/-
Draining the timers that are due.

Whoever asks for due timers until there is none gets each timer that was due once, the earliest
first.  An interval that has fired is put back later than the instant of the asking, because no
period is zero, so it does not fire again and the asking comes to an end.

* `not_before_of_nextDue?` — the timer that fires is the earliest of those that are due;
* `Drainable.mem_takeDue` — everything that one asking does to the timers;
* `Drains` — asking until there is none;
* `Drainable.exists_drains` — the order and the end of it, by induction on the number of timers
  that are due;
* `exists_fireTimers_of_drains` — the same for the rounds of a pump whose callbacks leave the
  timers alone;
* `due_timers_drain` — the main theorem.
-/
import Mathlib
import ModuleHost.Proofs.Timer.Handles
import ModuleHost.Proofs.Timer.Pumping

namespace ModuleHost

open Act

/-- A timer fires before another one: it is due earlier or, at the same instant, it has the
smaller handle. -/
def Timer.Before (t u : Timer) : Prop := t.due < u.due ∨ (t.due = u.due ∧ t.handle < u.handle)

instance : DecidableRel Timer.Before := fun _ _ => inferInstanceAs (Decidable (_ ∨ _))

namespace TimerQueue

variable {q q' q'' : TimerQueue} {t u v : Timer} {ts : List Timer} {now : ℕ}

/-! ### The earliest timer -/

/-- What does not come after the earlier of two timers comes after neither of them. -/
theorem not_before_of_earlier (hv : ¬ (earlier t u).Before v) : ¬ t.Before v ∧ ¬ u.Before v := by
  unfold earlier at hv
  simp only [Timer.Before, Int32.lt_iff_toInt_lt] at hv ⊢
  split at hv
  · omega
  · omega

theorem not_before_foldl (ts : List Timer) (u : Timer) :
    ¬ u.Before (ts.foldl earlier u) ∧ ∀ v ∈ ts, ¬ v.Before (ts.foldl earlier u) := by
  induction ts generalizing u with
  | nil =>
    refine ⟨?_, by simp⟩
    simp [Timer.Before, Int32.lt_irrefl]
  | cons v rest ih =>
    obtain ⟨hfirst, hrest⟩ := ih (earlier u v)
    obtain ⟨hu, hv⟩ := not_before_of_earlier hfirst
    exact ⟨hu, List.forall_mem_cons.mpr ⟨hv, hrest⟩⟩

/-- No timer that is due comes before the one that fires. -/
theorem not_before_of_nextDue? (ht : q.nextDue? now = some t) (hu : u ∈ q.timers)
    (hdue : u.due ≤ now) : ¬ u.Before t := by
  have hmem : u ∈ q.timers.filter (·.due ≤ now) := List.mem_filter.mpr ⟨hu, by simpa using hdue⟩
  unfold nextDue? at ht
  cases hts : q.timers.filter (·.due ≤ now) with
  | nil =>
    rw [hts] at hmem
    exact absurd hmem List.not_mem_nil
  | cons v rest =>
    rw [hts] at ht hmem
    cases ht
    obtain ⟨hv, hrest⟩ := not_before_foldl rest v
    have hall : ∀ u ∈ v :: rest, ¬ u.Before (rest.foldl earlier v) :=
      List.forall_mem_cons.mpr ⟨hv, hrest⟩
    exact hall u hmem

theorem before_of_not_before (hut : ¬ u.Before t) (hne : u.handle ≠ t.handle) : t.Before u := by
  have := mt Int32.toInt_inj.mp hne
  simp only [Timer.Before, Int32.lt_iff_toInt_lt] at hut ⊢
  omega

theorem Sound.mem_iff (hs : q.Sound) : t ∈ q.timers ↔ q.pending? t.handle = some t := by
  rw [hs.pending?_eq_some_iff, and_iff_left rfl]

theorem Sound.eq_of_handle_eq (hs : q.Sound) (ht : t ∈ q.timers) (hu : u ∈ q.timers)
    (heq : u.handle = t.handle) : u = t := by
  have htu := (heq ▸ hs.mem_iff.mp hu).symm.trans (hs.mem_iff.mp ht)
  exact Option.some.inj htu

theorem Sound.nodup (hs : q.Sound) : q.timers.Nodup := by
  have hsorted : q.timers.Pairwise (·.handle < ·.handle) := hs
  refine hsorted.imp fun {t u} hlt heq => ?_
  rw [heq] at hlt
  exact Int32.lt_irrefl hlt

/-! ### One asking -/

/-- A queue that can be drained at an instant: no period is zero, and the next instant of every
interval that is due can be formed. -/
structure Drainable (q : TimerQueue) (now : ℕ) : Prop where
  sound : q.Sound
  spaced : ∀ t ∈ q.timers, ∀ p, t.period = some p → 0 < p
  timely : ∀ t ∈ q.timers, t.due ≤ now → ∀ p, t.period = some p → now + p ≤ latestInstant

/-- The timers that are due at an instant. -/
def dueTimers (q : TimerQueue) (now : ℕ) : List Timer := q.timers.filter (·.due ≤ now)

theorem mem_dueTimers : t ∈ q.dueTimers now ↔ t ∈ q.timers ∧ t.due ≤ now := by
  simp [dueTimers]

theorem dueTimers_eq_nil_iff : q.dueTimers now = [] ↔ q.nextDue? now = none := by
  simp [dueTimers, nextDue?_eq_none_iff, List.filter_eq_nil_iff]

namespace Drainable

theorem no_overflow (hq : q.Drainable now) (ht : q.nextDue? now = some t) :
    (q.takeDue now).1 ≠ .overflow := by
  obtain ⟨hmem, hdue⟩ := nextDue?_eq_some ht
  cases hp : t.period with
  | none => simp [takeDue_timeout ht hp]
  | some p => simp [takeDue_interval ht hp (hq.timely t hmem hdue p hp)]

theorem takeDue_eq (hq : q.Drainable now) (ht : q.nextDue? now = some t) :
    q.takeDue now = (.fired t.callback, (q.takeDue now).2) :=
  Prod.ext (takeDue_fst ht (hq.no_overflow ht)) rfl

/-- The timer that fires leaves the queue, and an interval comes back one period after the
instant. -/
theorem mem_takeDue (hq : q.Drainable now) (ht : q.nextDue? now = some t) :
    u ∈ (q.takeDue now).2.timers ↔ (u ∈ q.timers ∧ u.handle ≠ t.handle) ∨
      ∃ p, t.period = some p ∧ u = { t with due := now + p } := by
  rw [(hq.sound.takeDue now).mem_iff]
  by_cases hu : u.handle = t.handle
  · rw [hu, pending?_takeDue_self ht (hq.no_overflow ht), Option.map_eq_some_iff]
    simp [eq_comm]
  · have hother : ∀ p, u ≠ { t with due := now + p } := fun p h => hu (by rw [h])
    rw [pending?_takeDue_of_ne ht (Ne.symm hu), ← hq.sound.mem_iff]
    simp [hu, hother]

theorem takeDue (hq : q.Drainable now) (ht : q.nextDue? now = some t) :
    (q.takeDue now).2.Drainable now := by
  have hmem := (nextDue?_eq_some ht).1
  refine ⟨hq.sound.takeDue now, fun u hu => ?_, fun u hu hdue => ?_⟩
  · obtain ⟨hu, -⟩ | ⟨p, -, rfl⟩ := (hq.mem_takeDue ht).mp hu
    · exact hq.spaced u hu
    · exact hq.spaced t hmem
  · obtain ⟨hu, -⟩ | ⟨p, hp, rfl⟩ := (hq.mem_takeDue ht).mp hu
    · exact hq.timely u hu hdue
    · exact hq.timely t hmem (nextDue?_eq_some ht).2

/-- The timers that were due are the one that fires and those that are still due. -/
theorem perm_dueTimers (hq : q.Drainable now) (ht : q.nextDue? now = some t) :
    (q.dueTimers now).Perm (t :: (q.takeDue now).2.dueTimers now) := by
  obtain ⟨hmem, hdue⟩ := nextDue?_eq_some ht
  -- an interval that comes back is not due any more
  have hstill : ∀ u, u ∈ (q.takeDue now).2.dueTimers now ↔
      u ∈ q.dueTimers now ∧ u.handle ≠ t.handle := by
    intro u
    rw [mem_dueTimers, mem_dueTimers, hq.mem_takeDue ht]
    constructor
    · rintro ⟨⟨hu, hne⟩ | ⟨p, hp, rfl⟩, hlate⟩
      · exact ⟨⟨hu, hlate⟩, hne⟩
      · have := hq.spaced t hmem p hp
        exact absurd hlate (by simp; omega)
    · rintro ⟨⟨hu, hlate⟩, hne⟩
      exact ⟨.inl ⟨hu, hne⟩, hlate⟩
  have hrest : ((q.takeDue now).2.dueTimers now).Nodup := (hq.sound.takeDue now).nodup.filter _
  have hfirst : t ∉ (q.takeDue now).2.dueTimers now := fun h => ((hstill t).mp h).2 rfl
  refine (List.perm_ext_iff_of_nodup (hq.sound.nodup.filter _)
    (List.nodup_cons.mpr ⟨hfirst, hrest⟩)).mpr fun u => ?_
  rw [List.mem_cons, hstill]
  constructor
  · intro hu
    by_cases hne : u.handle = t.handle
    · exact .inl (hq.sound.eq_of_handle_eq hmem (mem_dueTimers.mp hu).1 hne)
    · exact .inr ⟨hu, hne⟩
  · rintro (rfl | ⟨hu, -⟩)
    · exact mem_dueTimers.mpr ⟨hmem, hdue⟩
    · exact hu

theorem length_dueTimers (hq : q.Drainable now) (ht : q.nextDue? now = some t) :
    (q.dueTimers now).length = ((q.takeDue now).2.dueTimers now).length + 1 :=
  (hq.perm_dueTimers ht).length_eq

end Drainable

/-- What is taken out of a queue depends on its timers only. -/
theorem takeDue_congr (htimers : q'.timers = q.timers) :
    (q'.takeDue now).1 = (q.takeDue now).1 ∧
      (q'.takeDue now).2.timers = (q.takeDue now).2.timers := by
  have hnext : q'.nextDue? now = q.nextDue? now := by rw [nextDue?, htimers, nextDue?]
  cases ht : q.nextDue? now with
  | none =>
    rw [takeDue_of_none (hnext.trans ht), takeDue_of_none ht]
    exact ⟨rfl, htimers⟩
  | some t =>
    have hcancel : (q'.cancel t.handle).timers = (q.cancel t.handle).timers :=
      congrArg (List.filter _) htimers
    cases hp : t.period with
    | none =>
      rw [takeDue_timeout (hnext.trans ht) hp, takeDue_timeout ht hp]
      exact ⟨rfl, hcancel⟩
    | some p =>
      by_cases hl : now + p ≤ latestInstant
      · rw [takeDue_interval (hnext.trans ht) hp hl, takeDue_interval ht hp hl]
        exact ⟨rfl, congrArg (insert _) hcancel⟩
      · rw [takeDue_overflow (hnext.trans ht) hp hl, takeDue_overflow ht hp hl]
        exact ⟨rfl, hcancel⟩

/-! ### Asking until there is none -/

/-- Asking for due timers at an instant until there is none: the callbacks that are handed out, and
the queue in the end. -/
inductive Drains (now : ℕ) : TimerQueue → List Int32 → TimerQueue → Prop
  | done {q q' : TimerQueue} (nothing : q.takeDue now = (.nothing, q')) : Drains now q [] q'
  | fired {q q₁ q' : TimerQueue} {callback : Int32} {callbacks : List Int32}
      (fires : q.takeDue now = (.fired callback, q₁)) (rest : Drains now q₁ callbacks q') :
      Drains now q (callback :: callbacks) q'

/-- There is one way only. -/
theorem Drains.unique {callbacks callbacks' : List Int32} (h : Drains now q callbacks q')
    (h' : Drains now q callbacks' q'') : callbacks' = callbacks ∧ q'' = q' := by
  induction h generalizing callbacks' q'' with
  | done nothing =>
    cases h' with
    | done nothing' =>
      cases nothing.symm.trans nothing'
      exact ⟨rfl, rfl⟩
    | fired fires' rest' => cases nothing.symm.trans fires'
  | fired fires rest ih =>
    cases h' with
    | done nothing' => cases fires.symm.trans nothing'
    | fired fires' rest' =>
      cases fires.symm.trans fires'
      obtain ⟨rfl, rfl⟩ := ih rest'
      exact ⟨rfl, rfl⟩

/-- What is pending once the timers that were due have fired: those that were not due, and the
intervals, one period after the instant. -/
def IsPendingAfter (q : TimerQueue) (now : ℕ) (u : Timer) : Prop :=
  (u ∈ q.timers ∧ now < u.due) ∨
    ∃ t ∈ q.timers, t.due ≤ now ∧ ∃ p, t.period = some p ∧ u = { t with due := now + p }

/-- One timer that fires changes nothing of what is pending once all have fired. -/
theorem Drainable.isPendingAfter_takeDue (hq : q.Drainable now) (ht : q.nextDue? now = some t) :
    (q.takeDue now).2.IsPendingAfter now u ↔ q.IsPendingAfter now u := by
  obtain ⟨hmem, hdue⟩ := nextDue?_eq_some ht
  have hback : ∀ p, t.period = some p → now < now + p := fun p hp => by
    have := hq.spaced t hmem p hp
    omega
  simp only [IsPendingAfter, hq.mem_takeDue ht]
  constructor
  · rintro (⟨⟨hu, -⟩ | ⟨p, hp, rfl⟩, hlate⟩ | ⟨v, ⟨hv, -⟩ | ⟨p, hp, rfl⟩, hlate, hagain⟩)
    · exact .inl ⟨hu, hlate⟩
    · exact .inr ⟨t, hmem, hdue, p, hp, rfl⟩
    · exact .inr ⟨v, hv, hlate, hagain⟩
    · exact absurd (hback p hp) (not_lt.mpr hlate)
  · rintro (⟨hu, hlate⟩ | ⟨v, hv, hlate, p, hp, rfl⟩)
    · refine .inl ⟨.inl ⟨hu, fun heq => ?_⟩, hlate⟩
      rw [hq.sound.eq_of_handle_eq hmem hu heq] at hlate
      exact absurd hdue (not_le.mpr hlate)
    · -- the interval that comes back is the one that has just fired, or another that is still due
      by_cases heq : v.handle = t.handle
      · obtain rfl := hq.sound.eq_of_handle_eq hmem hv heq
        exact .inl ⟨.inr ⟨p, hp, rfl⟩, hback p hp⟩
      · exact .inr ⟨v, .inl ⟨hv, heq⟩, hlate, p, hp, rfl⟩

/-- By induction on the number of timers that are due. -/
theorem Drainable.exists_drains (hq : q.Drainable now) :
    ∃ (fired : List Timer) (q' : TimerQueue), Drains now q (fired.map (·.callback)) q' ∧
      fired.Perm (q.dueTimers now) ∧ fired.Pairwise Timer.Before ∧ q'.Sound ∧
      ∀ u, u ∈ q'.timers ↔ q.IsPendingAfter now u := by
  generalize hn : (q.dueTimers now).length = n
  induction n generalizing q with
  | zero =>
    have hnil := List.eq_nil_of_length_eq_zero hn
    have hnone := dueTimers_eq_nil_iff.mp hnil
    refine ⟨[], q, .done (takeDue_of_none hnone), by rw [hnil], .nil, hq.sound, fun u => ?_⟩
    rw [nextDue?_eq_none_iff] at hnone
    constructor
    · exact fun hu => .inl ⟨hu, hnone u hu⟩
    · rintro (⟨hu, -⟩ | ⟨t, ht, hdue, -⟩)
      · exact hu
      · exact absurd hdue (not_le.mpr (hnone t ht))
  | succ n ih =>
    cases ht : q.nextDue? now with
    | none => simp [dueTimers_eq_nil_iff.mpr ht] at hn
    | some t =>
      have hlength := hq.length_dueTimers ht
      obtain ⟨fired, q', hdrains, hperm, horder, hsound, hmem⟩ := ih (hq.takeDue ht) (by omega)
      have hdue := hq.perm_dueTimers ht
      refine ⟨t :: fired, q', .fired (hq.takeDue_eq ht) hdrains,
        (hperm.cons t).trans hdue.symm, List.pairwise_cons.mpr ⟨fun u hu => ?_, horder⟩, hsound,
        fun u => (hmem u).trans (hq.isPendingAfter_takeDue ht)⟩
      -- what fires later was due as well, and has another handle
      have hlater := hperm.mem_iff.mp hu
      obtain ⟨hu, hlate⟩ := mem_dueTimers.mp (hdue.mem_iff.mpr (List.mem_cons_of_mem t hlater))
      refine before_of_not_before (not_before_of_nextDue? ht hu hlate) fun heq => ?_
      have hnodup := hdue.nodup (hq.sound.nodup.filter _)
      rw [hq.sound.eq_of_handle_eq (nextDue?_eq_some ht).1 hu heq] at hlater
      exact (List.nodup_cons.mp hnodup).1 hlater

/-! ### Intervals -/

/-- A timer that fires is pending again with its period, or it is gone. -/
theorem exists_period_of_mem_takeDue (hu : u ∈ (q.takeDue now).2.timers) :
    ∃ t ∈ q.timers, t.period = u.period := by
  have hcancel : ∀ handle, u ∈ (q.cancel handle).timers → ∃ t ∈ q.timers, t.period = u.period :=
    fun handle hu => ⟨u, (List.mem_filter.mp hu).1, rfl⟩
  cases ht : q.nextDue? now with
  | none =>
    rw [takeDue_of_none ht] at hu
    exact ⟨u, hu, rfl⟩
  | some t =>
    cases hp : t.period with
    | none =>
      rw [takeDue_timeout ht hp] at hu
      exact hcancel _ hu
    | some p =>
      by_cases hl : now + p ≤ latestInstant
      · rw [takeDue_interval ht hp hl] at hu
        obtain rfl | hu := mem_of_mem_insert hu
        · exact ⟨t, (nextDue?_eq_some ht).1, rfl⟩
        · exact hcancel _ hu
      · rw [takeDue_overflow ht hp hl] at hu
        exact hcancel _ hu

/-- No interval of a run has a shorter period than the shortest, by induction over runs. -/
theorem shortestPeriod_le_after (calls : List TimerCall) :
    ∀ t ∈ (empty.after calls).timers, ∀ p, t.period = some p → shortestPeriod ≤ p := by
  induction calls using List.reverseRecOn with
  | nil => exact fun t ht => absurd ht List.not_mem_nil
  | append_singleton calls c ih =>
    rw [after_append_singleton]
    intro t ht p hp
    obtain ⟨u, hmade, -, hact⟩ | ⟨-, ⟨handle, rfl⟩ | ⟨now, rfl⟩ | ⟨htimers, -⟩⟩ :=
      (empty.after calls).act_cases c
    · rw [hact] at ht
      obtain rfl | ht := mem_of_mem_insert ht
      · obtain ⟨_, _, -, -, hnone⟩ | ⟨_, period, -, -, hsome⟩ := TimerMoment.call_of_made? hmade
        · cases hnone.symm.trans hp
        · cases hsome.symm.trans hp
          exact le_max_right _ _
      · exact ih t ht p hp
    · exact ih t (List.mem_filter.mp ht).1 p hp
    · obtain ⟨u, hu, hperiod⟩ := exists_period_of_mem_takeDue ht
      exact ih u hu p (hperiod.trans hp)
    · rw [htimers] at ht
      exact ih t ht p hp

theorem drainable_after {calls : List TimerCall}
    (hno : ∀ t ∈ (empty.after calls).timers, t.due ≤ now →
      ∀ p, t.period = some p → now + p ≤ latestInstant) :
    (empty.after calls).Drainable now := by
  refine ⟨sound_after calls, fun t ht p hp => ?_, hno⟩
  have hshort : 0 < shortestPeriod := by decide
  exact hshort.trans_le (shortestPeriod_le_after calls t ht p hp)

/-! ### The queue in the end -/

/-- Asking for due timers has drained a queue: the timers that have fired, and the queue that is
left. -/
structure Drained (q : TimerQueue) (now : ℕ) (fired : List Timer) (q' : TimerQueue) : Prop where
  drains : Drains now q (fired.map (·.callback)) q'
  /-- Each timer that was due has fired once. -/
  each : fired.Perm (q.dueTimers now)
  inOrder : fired.Pairwise Timer.Before
  gone : ∀ t ∈ fired, t.period = none → q'.pending? t.handle = none
  again : ∀ t ∈ fired, ∀ p, t.period = some p →
    now < now + p ∧ q'.pending? t.handle = some { t with due := now + p }
  untouched : ∀ t ∈ q.timers, now < t.due → t ∈ q'.timers
  nothing_else : ∀ t ∈ q'.timers, q.IsPendingAfter now t
  later : ∀ due, q'.firstDue? = some due → now < due

theorem Drainable.exists_drained (hq : q.Drainable now) : ∃ fired q', q.Drained now fired q' := by
  obtain ⟨fired, q', hdrains, hperm, horder, hsound, hmem⟩ := hq.exists_drains
  have hfired : ∀ t ∈ fired, t ∈ q.timers ∧ t.due ≤ now :=
    fun t ht => mem_dueTimers.mp (hperm.mem_iff.mp ht)
  have hback : ∀ t ∈ q.timers, ∀ p, t.period = some p → now < now + p := fun t ht p hp => by
    have := hq.spaced t ht p hp
    omega
  refine ⟨fired, q', hdrains, hperm, horder, fun t ht hp => ?_, fun t ht p hp => ?_,
    fun t ht hlate => (hmem t).mpr (.inl ⟨ht, hlate⟩), fun t ht => (hmem t).mp ht,
    fun due hdue => ?_⟩
  · obtain ⟨hin, hdue⟩ := hfired t ht
    refine pending?_eq_none_iff.mpr fun u hu heq => ?_
    obtain ⟨hu, hlate⟩ | ⟨v, hv, -, p, hperiod, rfl⟩ := (hmem u).mp hu
    · obtain rfl := hq.sound.eq_of_handle_eq hin hu heq
      exact absurd hdue (not_le.mpr hlate)
    · obtain rfl := hq.sound.eq_of_handle_eq hin hv heq
      cases hp.symm.trans hperiod
  · obtain ⟨hin, hdue⟩ := hfired t ht
    refine ⟨hback t hin p hp, hsound.pending?_eq_some_iff.mpr ⟨?_, rfl⟩⟩
    exact (hmem _).mpr (.inr ⟨t, hin, hdue, p, hp, rfl⟩)
  · obtain ⟨u, hu, rfl⟩ := List.mem_map.mp (List.min?_mem hdue)
    obtain ⟨-, hlate⟩ | ⟨v, hv, -, p, hp, rfl⟩ := (hmem u).mp hu
    · exact hlate
    · exact hback v hv p hp

end TimerQueue

/-! ### A pump -/

variable {γ : Type} {m : Machine γ} {instant : ℕ} {q q' : TimerQueue} {callbacks : List Int32}

/-- The rounds of a pump return, and what they run neither makes timers nor cancels any. -/
def QuietRounds (m : Machine γ) (instant : ℕ) : ℕ → World γ → Prop
  | 0, _ => True
  | budget + 1, w => ∀ t, w.session.timers.nextDue? instant = some t →
    ∃ n w₁, runRound m budget t.callback (afterTakingDue instant w) = .ok n w₁ ∧
      w₁.session.timers.timers = (afterTakingDue instant w).session.timers.timers ∧
      QuietRounds m instant budget w₁

/-- Quiet rounds fire the timers as asking for them does, by induction on the asking. -/
theorem exists_fireTimers_of_drains (h : TimerQueue.Drains instant q callbacks q') :
    ∀ {budget : ℕ} {w : World γ}, w.session.timers.timers = q.timers →
      callbacks.length < budget → QuietRounds m instant budget w →
      ∃ w₁, fireTimers m instant budget w = .ok callbacks.length w₁ ∧
        w₁.session.timers.timers = q'.timers := by
  induction h with
  | done nothing =>
    intro budget w htimers hbudget hquiet
    obtain ⟨budget, rfl⟩ := Nat.exists_eq_succ_of_ne_zero (Nat.ne_of_gt hbudget)
    -- callbacks may have queued microtasks, but what is due depends on the timers only
    obtain ⟨hfirst, hrest⟩ := TimerQueue.takeDue_congr htimers
    rw [nothing] at hfirst hrest
    have htaken : takeDue instant w = .ok none (afterTakingDue instant w) := by
      rw [takeDue_eq, hfirst]
      rfl
    exact ⟨afterTakingDue instant w, bind_of_ok htaken _, hrest⟩
  | @fired q q₁ q' callback callbacks fires rest ih =>
    intro budget w htimers hbudget hquiet
    obtain ⟨budget, rfl⟩ := Nat.exists_eq_succ_of_ne_zero (Nat.ne_of_gt (Nat.zero_lt_of_lt hbudget))
    obtain ⟨hfirst, hrest⟩ := TimerQueue.takeDue_congr htimers
    rw [fires] at hfirst hrest
    obtain ⟨hnone, -⟩ | ⟨t, out⟩ | ⟨-, hoverflow⟩ := takeDue_cases instant w
    · rw [TimerQueue.takeDue_of_none hnone] at hfirst
      cases hfirst
    · obtain ⟨n, w₁, hround, hsame, hquiet⟩ := hquiet t out.next
      obtain ⟨w₂, hfire, hlast⟩ := ih (hsame.trans hrest) (Nat.lt_of_succ_lt_succ hbudget) hquiet
      refine ⟨w₂, ?_, hlast⟩
      rw [fireTimers_of_handsOut out, bind_of_ok hround, map_eq_pure_bind, bind_of_ok hfire]
      rfl
    · rw [takeDue_eq, hfirst] at hoverflow
      cases hoverflow

/-- Draining the timers that are due at an instant, for the queue of every run in which the next
instant of each interval that is due can be formed.  Asking comes to an end in one way only: each
timer that was due fires once, the earliest first; intervals come back later than the instant and
nothing else changes.  A pump whose rounds are quiet drains the queue in the same way; once it has
settled, it returns the number of timers that were due. -/
theorem due_timers_drain (calls : List TimerCall) (now : ℕ)
    (hno : ∀ t ∈ (TimerQueue.empty.after calls).timers, t.due ≤ now →
      ∀ p, t.period = some p → now + p ≤ latestInstant) :
    ∃ fired q', (TimerQueue.empty.after calls).Drained now fired q' ∧
      (∀ callbacks q'', TimerQueue.Drains now (TimerQueue.empty.after calls) callbacks q'' →
        callbacks = fired.map (·.callback) ∧ q'' = q') ∧
      ∀ {γ : Type} (m : Machine γ) (budget : ℕ) (w : World γ),
        w.session.timers = TimerQueue.empty.after calls →
        ((TimerQueue.empty.after calls).dueTimers now).length < budget →
        QuietRounds m now budget w →
        ∃ w₁, w₁.session.timers.timers = q'.timers ∧
          pump m budget now w = (settle m budget >>= fun _ =>
            pure ((TimerQueue.empty.after calls).dueTimers now).length) w₁ := by
  obtain ⟨fired, q', hdrained⟩ := (TimerQueue.drainable_after hno).exists_drained
  refine ⟨fired, q', hdrained, fun callbacks q'' h => hdrained.drains.unique h, ?_⟩
  intro γ m budget w hw hbudget hquiet
  have hlength : (fired.map (·.callback)).length
      = ((TimerQueue.empty.after calls).dueTimers now).length := by
    rw [List.length_map, hdrained.each.length_eq]
  rw [← hlength] at hbudget ⊢
  obtain ⟨w₁, hfire, hlast⟩ :=
    exists_fireTimers_of_drains hdrained.drains (congrArg (·.timers) hw) hbudget hquiet
  exact ⟨w₁, hlast, bind_of_ok hfire _⟩

/-- An interval of two milliseconds, and timeouts after one and after five. -/
def threeTimers : List TimerCall :=
  [.interval 0 (2 * millisecond) 7, .timeout 0 millisecond 8, .timeout 0 (5 * millisecond) 9]

/-- A session with these timers. -/
def timersWaiting : World Unit :=
  ⟨{ Session.new (.standard .default ⟨[]⟩ true) .none none with
      primary := some
        ⟨[("$invokeCallback", .func (.own 1 (.named "$invokeCallback") ⟨[.i32], []⟩))]⟩
      timers := TimerQueue.empty.after threeTimers }, ()⟩

/-- Whatever it calls returns at once. -/
def idle : Machine Unit := ⟨fun _ _ => pure [], fun _ _ => pure .undefined, fun _ => pure ()⟩

/-- Two rounds, and then nothing is due. -/
theorem quietRounds_idle : QuietRounds idle (3 * millisecond) 3 timersWaiting := by
  intro t ht
  cases (rfl : timersWaiting.session.timers.nextDue? (3 * millisecond)
    = some ⟨2, millisecond, none, 8⟩).symm.trans ht
  refine ⟨0, _, rfl, rfl, fun t ht => ?_⟩
  cases (rfl : _ = some (⟨1, 2 * millisecond, some (2 * millisecond), 7⟩ : Timer)).symm.trans ht
  refine ⟨0, _, rfl, rfl, fun t ht => ?_⟩
  cases (rfl : _ = (none : Option Timer)).symm.trans ht

theorem due_timers_drain_waiting :
    (∀ t ∈ (TimerQueue.empty.after threeTimers).timers, t.due ≤ 3 * millisecond →
      ∀ p, t.period = some p → 3 * millisecond + p ≤ latestInstant) ∧
    QuietRounds idle (3 * millisecond) 3 timersWaiting ∧
    ∃ fired q' w₁ w', (TimerQueue.empty.after threeTimers).Drained (3 * millisecond) fired q' ∧
      fired.map (·.callback) = [8, 7] ∧ q'.pending? 1
        = some ⟨1, 5 * millisecond, some (2 * millisecond), 7⟩ ∧
      pump idle 3 (3 * millisecond) timersWaiting = (settle idle 3 >>= fun _ => pure 2) w₁ ∧
      (settle idle 3 >>= fun _ => pure 2) w₁ = .ok 2 w' := by
  have hno : ∀ t ∈ (TimerQueue.empty.after threeTimers).timers, t.due ≤ 3 * millisecond →
      ∀ p, t.period = some p → 3 * millisecond + p ≤ latestInstant := by decide +kernel
  obtain ⟨fired, q', hdrained, honly, hpump⟩ := due_timers_drain threeTimers (3 * millisecond) hno
  obtain ⟨w₁, -, hrun⟩ := hpump idle 3 timersWaiting rfl (by decide +kernel) quietRounds_idle
  have hdrains : TimerQueue.Drains (3 * millisecond) (TimerQueue.empty.after threeTimers) [8, 7]
      ⟨4, [⟨1, 5 * millisecond, some (2 * millisecond), 7⟩, ⟨3, 5 * millisecond, none, 9⟩], []⟩ :=
    .fired rfl (.fired rfl (.done rfl))
  obtain ⟨hcallbacks, rfl⟩ := honly _ _ hdrains
  have hreturned : pump idle 3 (3 * millisecond) timersWaiting = .ok 2 _ := rfl
  exact ⟨hno, quietRounds_idle, fired, _, w₁, _, hdrained, hcallbacks.symm, rfl, hrun,
    hrun.symm.trans hreturned⟩

end ModuleHost
