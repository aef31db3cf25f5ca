/-
What is pending in a timer queue.

A queue is looked at through one function, `pending?`: the timer that is pending under a handle.
There is one equation for each operation, so what a later proof needs to know of an operation is
which handle it is about.

* `pending?_schedule`, `pending?_cancel`, `pending?_takeDue_self`, `pending?_takeDue_of_ne` — what
  each operation does;
* `TimerQueue.Sound` — the timers are in the order of their handles, so a look-up finds every
  one of them (`Sound.pending?_eq_some_iff`);
* `nextDue?_eq_some`, `nextDue?_eq_none_iff` — a timer that fires is pending and due, and if none
  fires, none is due.
-/
import Mathlib
import ModuleHost.Timer.Queue

namespace ModuleHost

namespace TimerQueue

variable {q : TimerQueue} {t u : Timer} {ts : List Timer} {h : Int32} {now : ℕ}

/-- The timer that is pending under a handle. -/
def pending? (q : TimerQueue) (h : Int32) : Option Timer := q.timers.find? (·.handle = h)

theorem handle_of_pending? (ht : q.pending? h = some t) : t.handle = h := by
  simpa using List.find?_some ht

theorem isPending_eq : q.isPending h = (q.pending? h).isSome := by
  rw [isPending, pending?, List.isSome_find?]

theorem pending?_eq_none_iff : q.pending? h = none ↔ ∀ t ∈ q.timers, t.handle ≠ h := by
  simp [pending?]

/-! ### One equation for each operation -/

theorem find?_insert :
    (insert t ts).find? (·.handle = h) = if t.handle = h then some t else ts.find? (·.handle = h) := by
  induction ts with
  | nil =>
    by_cases ht : t.handle = h
    · simp [insert, ht]
    · simp [insert, ht]
  | cons u rest ih =>
    unfold insert
    split
    · by_cases ht : t.handle = h
      · simp [ht]
      · simp [ht]
    · split
      -- the timer takes the place of one with its handle
      · rename_i hu
        by_cases ht : t.handle = h
        · simp [ht]
        · simp [ht, ← hu]
      · rename_i hu
        rw [List.find?_cons, List.find?_cons, ih]
        by_cases ht : t.handle = h
        · have huh : u.handle ≠ h := fun huh => hu (ht.trans huh.symm)
          simp [ht, huh]
        · simp [ht]

theorem pending?_schedule (due : ℕ) (period : Option ℕ) (callback : Int32) :
    (q.schedule due period callback).2.pending? h
      = if q.nextHandle = h then some ⟨q.nextHandle, due, period, callback⟩ else q.pending? h :=
  find?_insert

theorem pending?_cancel (handle : Int32) :
    (q.cancel handle).pending? h = if handle = h then none else q.pending? h := by
  rw [pending?, cancel, List.find?_filter]
  by_cases hh : handle = h
  · subst hh
    simp
  · rw [if_neg hh]
    refine congrArg (List.find? · q.timers) (funext fun t => ?_)
    by_cases ht : t.handle = h
    · simp [ht, Ne.symm hh]
    · simp [ht]

/-- Cancelling a handle under which nothing is pending changes nothing. -/
theorem cancel_of_pending?_eq_none (hn : q.pending? h = none) : q.cancel h = q := by
  have hall : q.timers.filter (·.handle ≠ h) = q.timers := by
    refine List.filter_eq_self.mpr fun t ht => ?_
    simpa using pending?_eq_none_iff.mp hn t ht
  rw [cancel, hall]

/-- A timer that fires is pending, and its time has come. -/
theorem nextDue?_eq_some (ht : q.nextDue? now = some t) : t ∈ q.timers ∧ t.due ≤ now := by
  have hfold : ∀ (rest : List Timer) (u : Timer), rest.foldl earlier u ∈ u :: rest := by
    intro rest
    induction rest with
    | nil => exact fun u => List.mem_singleton_self u
    | cons v rest ih =>
      intro u
      have hmem := ih (earlier u v)
      rw [List.mem_cons] at hmem
      rcases hmem with hmem | hmem
      · rw [List.foldl_cons, hmem]
        unfold earlier
        split
        · exact List.mem_cons_of_mem _ List.mem_cons_self
        · exact List.mem_cons_self
      · exact List.mem_cons_of_mem _ (List.mem_cons_of_mem _ hmem)
  have hmem : t ∈ q.timers.filter (·.due ≤ now) := by
    unfold nextDue? earliest? at ht
    cases hf : q.timers.filter (·.due ≤ now) with
    | nil =>
      rw [hf] at ht
      exact absurd ht (by simp)
    | cons u rest =>
      rw [hf] at ht
      cases ht
      exact hfold rest u
  simpa using hmem

theorem earliest?_eq_none_iff : earliest? ts = none ↔ ts = [] := by
  cases ts with
  | nil => simp [earliest?]
  | cons t rest => simp [earliest?]

theorem nextDue?_eq_none_iff : q.nextDue? now = none ↔ ∀ t ∈ q.timers, now < t.due := by
  simp [nextDue?, earliest?_eq_none_iff, List.filter_eq_nil_iff]

theorem takeDue_of_none (hn : q.nextDue? now = none) : q.takeDue now = (.nothing, q) := by
  rw [takeDue, hn]

/-- A timeout leaves the queue when it fires. -/
theorem takeDue_timeout (ht : q.nextDue? now = some t) (hp : t.period = none) :
    q.takeDue now = (.fired t.callback, q.cancel t.handle) := by
  simp only [takeDue, ht, hp]

/-- An interval comes back one period after the instant at which it fires. -/
theorem takeDue_interval {p : ℕ} (ht : q.nextDue? now = some t) (hp : t.period = some p)
    (hl : now + p ≤ latestInstant) :
    q.takeDue now = (.fired t.callback,
      { q.cancel t.handle with
        timers := insert { t with due := now + p } (q.cancel t.handle).timers }) := by
  simp only [takeDue, ht, hp, later?, if_pos hl]

theorem takeDue_overflow {p : ℕ} (ht : q.nextDue? now = some t) (hp : t.period = some p)
    (hl : ¬ now + p ≤ latestInstant) :
    q.takeDue now = (.overflow, q.cancel t.handle) := by
  simp only [takeDue, ht, hp, later?, if_neg hl]

/-- Firing is about the handle of the timer that fires. -/
theorem pending?_takeDue_of_ne (ht : q.nextDue? now = some t) (hne : t.handle ≠ h) :
    (q.takeDue now).2.pending? h = q.pending? h := by
  have hcancel : (q.cancel t.handle).pending? h = q.pending? h := by
    rw [pending?_cancel, if_neg hne]
  cases hp : t.period with
  | none => rw [takeDue_timeout ht hp, hcancel]
  | some p =>
    by_cases hl : now + p ≤ latestInstant
    · rw [takeDue_interval ht hp hl, pending?, find?_insert, if_neg hne]
      exact hcancel
    · rw [takeDue_overflow ht hp hl, hcancel]

/-- What is pending under the handle of the timer that has fired. -/
theorem pending?_takeDue_self (ht : q.nextDue? now = some t)
    (hno : (q.takeDue now).1 ≠ .overflow) :
    (q.takeDue now).2.pending? t.handle = t.period.map fun p => { t with due := now + p } := by
  cases hp : t.period with
  | none => rw [takeDue_timeout ht hp, pending?_cancel, if_pos rfl]; rfl
  | some p =>
    by_cases hl : now + p ≤ latestInstant
    · rw [takeDue_interval ht hp hl, pending?, find?_insert, if_pos rfl]
      rw [hp]; rfl
    · rw [takeDue_overflow ht hp hl] at hno
      exact absurd rfl hno

/-! ### Soundness -/

/-- Timers are in the order of their handles. -/
def Sound (q : TimerQueue) : Prop := q.timers.Pairwise (·.handle < ·.handle)

theorem mem_of_mem_insert (hu : u ∈ insert t ts) : u = t ∨ u ∈ ts := by
  induction ts with
  | nil => exact .inl (List.mem_singleton.mp hu)
  | cons v rest ih =>
    unfold insert at hu
    split at hu
    · exact List.mem_cons.mp hu
    · split at hu
      · rcases List.mem_cons.mp hu with hu | hu
        · exact .inl hu
        · exact .inr (List.mem_cons_of_mem _ hu)
      · rcases List.mem_cons.mp hu with rfl | hu
        · exact .inr List.mem_cons_self
        · exact (ih hu).imp id (List.mem_cons_of_mem _)

theorem sorted_insert (hs : ts.Pairwise (·.handle < ·.handle)) :
    (insert t ts).Pairwise (·.handle < ·.handle) := by
  induction ts with
  | nil => exact List.pairwise_singleton _ _
  | cons v rest ih =>
    obtain ⟨hv, hrest⟩ := List.pairwise_cons.mp hs
    unfold insert
    split
    · rename_i htv
      refine List.pairwise_cons.mpr ⟨fun u hu => ?_, hs⟩
      rcases List.mem_cons.mp hu with rfl | hu
      · exact htv
      · exact Int32.lt_trans htv (hv u hu)
    · split
      · rename_i heq
        exact List.pairwise_cons.mpr ⟨fun u hu => heq ▸ hv u hu, hrest⟩
      · rename_i hlt hne
        refine List.pairwise_cons.mpr ⟨fun u hu => ?_, ih hrest⟩
        rcases mem_of_mem_insert hu with rfl | hu
        · rw [Int32.lt_iff_toInt_lt] at hlt ⊢
          have := mt Int32.toInt_inj.mp hne
          omega
        · exact hv u hu

theorem sound_empty : empty.Sound := List.Pairwise.nil

theorem Sound.schedule (hs : q.Sound) (due : ℕ) (period : Option ℕ) (callback : Int32) :
    (q.schedule due period callback).2.Sound := sorted_insert hs

theorem Sound.cancel (hs : q.Sound) (handle : Int32) : (q.cancel handle).Sound :=
  List.Pairwise.filter _ hs

theorem Sound.takeDue (hs : q.Sound) (now : ℕ) : (q.takeDue now).2.Sound := by
  cases ht : q.nextDue? now with
  | none =>
    rw [takeDue_of_none ht]
    exact hs
  | some t =>
    cases hp : t.period with
    | none =>
      rw [takeDue_timeout ht hp]
      exact hs.cancel _
    | some p =>
      by_cases hl : now + p ≤ latestInstant
      · rw [takeDue_interval ht hp hl]
        exact sorted_insert (hs.cancel _)
      · rw [takeDue_overflow ht hp hl]
        exact hs.cancel _

/-- A look-up finds every timer. -/
theorem Sound.pending?_eq_some_iff (hs : q.Sound) :
    q.pending? h = some t ↔ t ∈ q.timers ∧ t.handle = h := by
  constructor
  · exact fun ht => ⟨List.mem_of_find?_eq_some ht, handle_of_pending? ht⟩
  · rintro ⟨hmem, rfl⟩
    obtain ⟨before, after, hsplit⟩ := List.append_of_mem hmem
    rw [Sound, hsplit, List.pairwise_append] at hs
    have hbefore : before.find? (fun u => u.handle = t.handle) = none := by
      refine List.find?_eq_none.mpr fun u hu => ?_
      have hlt := Int32.lt_iff_toInt_lt.mp (hs.2.2 u hu t List.mem_cons_self)
      simp only [decide_eq_true_eq]
      exact fun heq => absurd (congrArg Int32.toInt heq) (by omega)
    rw [pending?, hsplit, List.find?_append, hbefore]
    simp

/-- A timer that fires is what is pending under its handle. -/
theorem Sound.pending?_of_nextDue? (hs : q.Sound) (ht : q.nextDue? now = some t) :
    q.pending? t.handle = some t := hs.pending?_eq_some_iff.mpr ⟨(nextDue?_eq_some ht).1, rfl⟩

end TimerQueue

end ModuleHost
