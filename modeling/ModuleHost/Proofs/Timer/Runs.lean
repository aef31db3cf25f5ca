/-
Timers over whole runs.

The moments of a run are its calls, each with the queue as it was.  They say what has become of
every timer: the instants at which it was dispatched, and whether it was cancelled while it was
pending.  The life of a timer is the timer as it was asked for and the moments since.

* `lives` — the lives of all timers of a run;
* `TimerMoment.pending?_act_of_idle`, `_of_cancels`, `_of_dispatch?` — what one call does to a
  timer that has been made;
* `Tracks`, `Tracks.andThen`, `tracked_after` — by induction over runs, what is pending under the
  handle of a timer is what its life says.

Design notes: times may run backwards and callbacks may do anything, since a run is any list of
calls.  A run makes fewer than 2 ^ 31 - 1 timers, so no handle is handed out twice.
-/
import Mathlib
import ModuleHost.Proofs.Timer.Queue

namespace ModuleHost

/-- What a timer queue can be asked for. -/
inductive TimerCall where
  | timeout (now delay : ℕ) (callback : Int32)
  | interval (now period : ℕ) (callback : Int32)
  | cancel (handle : Int32)
  | takeDue (now : ℕ)
  | addMicrotask (callback : Int32)
  | takeMicrotask
  deriving DecidableEq

namespace TimerQueue

def act (q : TimerQueue) : TimerCall → TimerQueue
  | .timeout now delay callback => ((q.addTimeout? now delay callback).map (·.2)).getD q
  | .interval now period callback => ((q.addInterval? now period callback).map (·.2)).getD q
  | .cancel handle => q.cancel handle
  | .takeDue now => (q.takeDue now).2
  | .addMicrotask callback => q.addMicrotask callback
  | .takeMicrotask => q.takeMicrotask.2

def after (q : TimerQueue) (calls : List TimerCall) : TimerQueue := calls.foldl act q

theorem after_append (q : TimerQueue) (calls calls' : List TimerCall) :
    q.after (calls ++ calls') = (q.after calls).after calls' := List.foldl_append

end TimerQueue

/-- A call, and the queue before it. -/
structure TimerMoment where
  queue : TimerQueue
  call : TimerCall

/-- The moments of a run, oldest first. -/
def TimerQueue.moments (q : TimerQueue) : List TimerCall → List TimerMoment
  | [] => []
  | c :: rest => ⟨q, c⟩ :: (q.act c).moments rest

theorem TimerQueue.moments_append (q : TimerQueue) (calls : List TimerCall) (c : TimerCall) :
    q.moments (calls ++ [c]) = q.moments calls ++ [⟨q.after calls, c⟩] := by
  induction calls generalizing q with
  | nil => rfl
  | cons c' rest ih =>
    rw [List.cons_append, moments, ih]
    rfl

namespace TimerMoment

/-- The timer that is asked for, under the handle that is returned. -/
def made? (m : TimerMoment) : Option Timer :=
  match m.call with
  | .timeout now delay callback =>
    (m.queue.addTimeout? now delay callback).map fun r => ⟨r.1, now + delay, none, callback⟩
  | .interval now period callback =>
    let spaced := max period shortestPeriod
    (m.queue.addInterval? now period callback).map fun r =>
      ⟨r.1, now + spaced, some spaced, callback⟩
  | _ => none

/-- The instant of a call that hands out the timer with a handle. -/
def dispatch? (m : TimerMoment) (h : Int32) : Option ℕ :=
  match m.call with
  | .takeDue now =>
    match (m.queue.takeDue now).1, m.queue.nextDue? now with
    | .fired _, some t => if t.handle = h then some now else none
    | _, _ => none
  | _ => none

def cancels (m : TimerMoment) (h : Int32) : Bool := m.call = .cancel h

/-- Whether a timer that is pending is cancelled. -/
def revokes (m : TimerMoment) (h : Int32) : Bool := m.cancels h && m.queue.isPending h

/-- Whether an instant cannot be formed. -/
def overflows (m : TimerMoment) : Bool :=
  match m.call with
  | .timeout now delay callback => (m.queue.addTimeout? now delay callback).isNone
  | .interval now period callback => (m.queue.addInterval? now period callback).isNone
  | .takeDue now => (m.queue.takeDue now).1 = .overflow
  | _ => false

theorem call_of_made? {m : TimerMoment} {t : Timer} (ht : m.made? = some t) :
    (∃ now delay, m.call = .timeout now delay t.callback ∧
      t.due = now + delay ∧ t.period = none) ∨
    ∃ now period, m.call = .interval now period t.callback ∧
      t.due = now + max period shortestPeriod ∧ t.period = some (max period shortestPeriod) := by
  obtain ⟨q, c⟩ := m
  cases c with
  | timeout now delay callback =>
    obtain ⟨r, -, rfl⟩ := Option.map_eq_some_iff.mp ht
    exact .inl ⟨now, delay, rfl, rfl, rfl⟩
  | interval now period callback =>
    obtain ⟨r, -, rfl⟩ := Option.map_eq_some_iff.mp ht
    exact .inr ⟨now, period, rfl, rfl, rfl⟩
  | _ => cases ht

end TimerMoment

/-- The life of a timer: the timer as it was made, and the moments since. -/
structure TimerLife where
  timer : Timer
  later : List TimerMoment

inductive TimerState where
  | pending | dispatched | cancelled

namespace TimerLife

/-- The instants at which the timer was dispatched. -/
def dispatches (e : TimerLife) : List ℕ := e.later.filterMap (·.dispatch? e.timer.handle)

def isCancelled (e : TimerLife) : Bool := e.later.any (·.cancels e.timer.handle)

/-- Whether it was cancelled while it was pending. -/
def isRevoked (e : TimerLife) : Bool := e.later.any (·.revokes e.timer.handle)

/-- Whether it is in a state, after its life so far. -/
def IsIn (e : TimerLife) (q : TimerQueue) : TimerState → Prop
  | .pending => q.isPending e.timer.handle = true
  | .dispatched => e.dispatches ≠ []
  | .cancelled => e.isRevoked = true

def andThen (e : TimerLife) (m : TimerMoment) : TimerLife := { e with later := e.later ++ [m] }

end TimerLife

/-- The lives of the timers of a run, in order of creation. -/
def lives : List TimerMoment → List TimerLife
  | [] => []
  | m :: later => m.made?.toList.map (⟨·, later⟩) ++ lives later

/-! ### One moment more -/

section AndThen

variable {e : TimerLife} {m : TimerMoment} {past : List TimerMoment}

@[simp] theorem timer_andThen : (e.andThen m).timer = e.timer := rfl

theorem dispatches_andThen :
    (e.andThen m).dispatches = e.dispatches ++ (m.dispatch? e.timer.handle).toList := by
  cases h : m.dispatch? e.timer.handle <;> simp [TimerLife.dispatches, TimerLife.andThen, h]

theorem dispatches_andThen_of_none (hd : m.dispatch? e.timer.handle = none) :
    (e.andThen m).dispatches = e.dispatches := by
  rw [dispatches_andThen, hd]
  exact List.append_nil _

theorem isCancelled_andThen :
    (e.andThen m).isCancelled = (e.isCancelled || m.cancels e.timer.handle) := by
  simp [TimerLife.isCancelled, TimerLife.andThen]

theorem isRevoked_andThen :
    (e.andThen m).isRevoked = (e.isRevoked || m.revokes e.timer.handle) := by
  simp [TimerLife.isRevoked, TimerLife.andThen]

theorem lives_append :
    lives (past ++ [m]) = (lives past).map (·.andThen m) ++ m.made?.toList.map (⟨·, []⟩) := by
  induction past with
  | nil => simp [lives]
  | cons m' rest ih => simp [lives, ih, TimerLife.andThen, Function.comp_def]

end AndThen

/-! ### What one call does -/

namespace TimerQueue

variable {q : TimerQueue} {c : TimerCall} {h : Int32} {t : Timer} {now : ℕ}

/-- Everything a call can do to the timers: make one, cancel, take what is due, or nothing. -/
theorem act_cases (q : TimerQueue) (c : TimerCall) :
    (∃ t, (TimerMoment.mk q c).made? = some t ∧ t.handle = q.nextHandle ∧
      q.act c = (q.schedule t.due t.period t.callback).2) ∨
    (TimerMoment.mk q c).made? = none ∧
      ((∃ handle, c = .cancel handle) ∨ (∃ now, c = .takeDue now) ∨
        (q.act c).timers = q.timers ∧ (q.act c).nextHandle = q.nextHandle) := by
  cases c with
  | timeout now delay callback =>
    by_cases hl : now + delay ≤ latestInstant
    · exact .inl ⟨⟨q.nextHandle, now + delay, none, callback⟩, by
        simp [TimerMoment.made?, act, addTimeout?, later?, hl, schedule]⟩
    · refine .inr ⟨?_, .inr (.inr ?_)⟩ <;>
        simp [TimerMoment.made?, act, addTimeout?, later?, hl]
  | interval now period callback =>
    by_cases hl : now + max period shortestPeriod ≤ latestInstant
    · exact .inl ⟨⟨q.nextHandle, now + max period shortestPeriod,
        some (max period shortestPeriod), callback⟩, by
        simp only [TimerMoment.made?, act, addInterval?, later?, hl, schedule, if_true,
          Option.map_some, Option.getD_some, and_self]⟩
    · refine .inr ⟨?_, .inr (.inr ?_)⟩ <;>
        simp only [TimerMoment.made?, act, addInterval?, later?, hl, if_false, Option.map_none,
          Option.getD_none, and_self]
  | cancel handle => exact .inr ⟨rfl, .inl ⟨handle, rfl⟩⟩
  | takeDue now => exact .inr ⟨rfl, .inr (.inl ⟨now, rfl⟩)⟩
  | addMicrotask callback => exact .inr ⟨rfl, .inr (.inr ⟨rfl, rfl⟩)⟩
  | takeMicrotask =>
    refine .inr ⟨rfl, .inr (.inr ?_)⟩
    rw [act, takeMicrotask]
    split <;> exact ⟨rfl, rfl⟩

theorem act_of_made? (hm : (TimerMoment.mk q c).made? = some t) :
    t.handle = q.nextHandle ∧ q.act c = (q.schedule t.due t.period t.callback).2 := by
  obtain ⟨t', ht', hmade⟩ | ⟨hnone, -⟩ := q.act_cases c
  · obtain rfl : t' = t := Option.some.inj (ht'.symm.trans hm)
    exact hmade
  · rw [hnone] at hm
    cases hm

theorem Sound.act (hs : q.Sound) (c : TimerCall) : (q.act c).Sound := by
  obtain ⟨t, -, -, hact⟩ | ⟨-, ⟨handle, rfl⟩ | ⟨now, rfl⟩ | ⟨htimers, -⟩⟩ := q.act_cases c
  · rw [hact]
    exact hs.schedule _ _ _
  · exact hs.cancel handle
  · exact hs.takeDue now
  · rw [Sound, htimers]
    exact hs

theorem nextHandle_takeDue : (q.takeDue now).2.nextHandle = q.nextHandle := by
  unfold takeDue
  split
  · rfl
  · split
    · rfl
    · split <;> rfl

theorem nextHandle_act (hm : (TimerMoment.mk q c).made? = none) :
    (q.act c).nextHandle = q.nextHandle := by
  obtain ⟨t, ht, -, -⟩ | ⟨-, ⟨handle, rfl⟩ | ⟨now, rfl⟩ | ⟨-, hnext⟩⟩ := q.act_cases c
  · rw [hm] at ht
    exact absurd ht (by simp)
  · rfl
  · exact nextHandle_takeDue
  · exact hnext

theorem takeDue_fst (ht : q.nextDue? now = some t) (hno : (q.takeDue now).1 ≠ .overflow) :
    (q.takeDue now).1 = .fired t.callback := by
  cases hp : t.period with
  | none => rw [takeDue_timeout ht hp]
  | some p =>
    by_cases hl : now + p ≤ latestInstant
    · rw [takeDue_interval ht hp hl]
    · rw [takeDue_overflow ht hp hl] at hno
      exact absurd rfl hno

end TimerQueue

namespace TimerMoment

variable {q : TimerQueue} {c : TimerCall} {h : Int32} {now : ℕ}

/-- A timer that is dispatched is pending and due; an interval is put back. -/
theorem pending?_act_of_dispatch? (hs : q.Sound) (hd : (mk q c).dispatch? h = some now) :
    ∃ t, q.pending? h = some t ∧ t.due ≤ now ∧ (q.takeDue now).1 = .fired t.callback ∧
      (q.act c).pending? h = t.period.map fun p => { t with due := now + p } := by
  unfold dispatch? at hd
  cases c with
  | takeDue instant =>
    simp only at hd
    split at hd
    · rename_i callback t hfired ht
      split at hd
      · rename_i hh
        cases hd
        subst hh
        have hno : (q.takeDue now).1 ≠ .overflow := by
          rw [hfired]
          simp
        exact ⟨t, hs.pending?_of_nextDue? ht, (TimerQueue.nextDue?_eq_some ht).2,
          TimerQueue.takeDue_fst ht hno, TimerQueue.pending?_takeDue_self ht hno⟩
      · exact absurd hd (by simp)
    · exact absurd hd (by simp)
  | _ => exact absurd hd (by simp)

theorem pending?_act_of_cancels (hc : (mk q c).cancels h = true) : (q.act c).pending? h = none := by
  obtain rfl : c = .cancel h := by simpa [cancels] using hc
  exact (TimerQueue.pending?_cancel h).trans (if_pos rfl)

theorem dispatch?_of_cancels (hc : (mk q c).cancels h = true) : (mk q c).dispatch? h = none := by
  obtain rfl : c = .cancel h := by simpa [cancels] using hc
  rfl

/-- Any other call leaves what is pending under a handle that has been handed out. -/
theorem pending?_act_of_idle (hused : q.nextHandle ≠ h) (hno : (mk q c).overflows = false)
    (hd : (mk q c).dispatch? h = none) (hc : (mk q c).cancels h = false) :
    (q.act c).pending? h = q.pending? h := by
  obtain ⟨t, -, -, hact⟩ | ⟨-, ⟨handle, rfl⟩ | ⟨now, rfl⟩ | ⟨htimers, -⟩⟩ := q.act_cases c
  · rw [hact]
    exact (TimerQueue.pending?_schedule ..).trans (if_neg hused)
  · have hne : handle ≠ h := by simpa [cancels] using hc
    exact (TimerQueue.pending?_cancel handle).trans (if_neg hne)
  · cases ht : q.nextDue? now with
    | none => rw [TimerQueue.act, TimerQueue.takeDue_of_none ht]
    | some t =>
      refine TimerQueue.pending?_takeDue_of_ne ht fun hth => ?_
      -- it would have been dispatched
      have hfired := TimerQueue.takeDue_fst ht (by simpa [overflows] using hno)
      exact absurd hd (by simp [dispatch?, hfired, ht, hth])
  · rw [TimerQueue.pending?, htimers, TimerQueue.pending?]

end TimerMoment

/-! ### What is known of a timer -/

namespace TimerLife

variable {q : TimerQueue} {e : TimerLife} {c : TimerCall} {p : ℕ}

/-- A timeout is pending as it was made, or it was dispatched once when it was due, or it was
cancelled before. -/
inductive Timeout (e : TimerLife) (q : TimerQueue) : Prop
  | pending (found : q.pending? e.timer.handle = some e.timer) (dispatches : e.dispatches = [])
      (revoked : e.isRevoked = false)
  | dispatched (now : ℕ) (due : e.timer.due ≤ now) (gone : q.pending? e.timer.handle = none)
      (dispatches : e.dispatches = [now]) (revoked : e.isRevoked = false)
  | cancelled (gone : q.pending? e.timer.handle = none) (dispatches : e.dispatches = [])
      (revoked : e.isRevoked = true)

/-- The instant from which an interval is due: one period after it was dispatched last. -/
def nextDue (e : TimerLife) (p : ℕ) : ℕ := (e.dispatches.getLast?.map (· + p)).getD e.timer.due

/-- An interval is dispatched in steps of a period at least, and pending until it is cancelled. -/
structure Interval (e : TimerLife) (q : TimerQueue) (p : ℕ) : Prop where
  spaced : e.dispatches.IsChain (· + p ≤ ·)
  due : ∀ now ∈ e.dispatches, e.timer.due ≤ now
  found : e.isCancelled = false →
    q.pending? e.timer.handle = some { e.timer with due := e.nextDue p }

/-- The queue after the life of a timer so far. -/
structure Tracks (e : TimerLife) (q : TimerQueue) : Prop where
  used : e.timer.handle.toInt < q.nextHandle.toInt
  quiet : e.later.Pairwise fun m m' =>
    m.cancels e.timer.handle = true → m'.dispatch? e.timer.handle = none
  own : ∀ m ∈ e.later, ∀ now, m.dispatch? e.timer.handle = some now →
    (m.queue.takeDue now).1 = .fired e.timer.callback
  gone : e.isCancelled = true → q.pending? e.timer.handle = none
  timeout : e.timer.period = none → e.Timeout q
  interval : ∀ p, e.timer.period = some p → e.Interval q p

theorem nextDue_le (hi : e.Interval q p) : e.timer.due ≤ e.nextDue p := by
  unfold nextDue
  cases hl : e.dispatches.getLast? with
  | none => exact le_refl _
  | some last =>
    have hlast := hi.due last (List.mem_of_getLast? hl)
    simp only [Option.map_some, Option.getD_some]
    omega

/-- A moment does one of three things to a timer: it dispatches it, cancels its handle, or
leaves it as it is. -/
theorem moment_cases (hs : q.Sound) (hused : e.timer.handle.toInt < q.nextHandle.toInt)
    (hno : (TimerMoment.mk q c).overflows = false) :
    (∃ t now, (TimerMoment.mk q c).dispatch? e.timer.handle = some now ∧
      (TimerMoment.mk q c).cancels e.timer.handle = false ∧
      q.pending? e.timer.handle = some t ∧ t.due ≤ now ∧
      (q.act c).pending? e.timer.handle = t.period.map fun p => { t with due := now + p }) ∨
    (TimerMoment.mk q c).dispatch? e.timer.handle = none ∧
      ((TimerMoment.mk q c).cancels e.timer.handle = true ∧
          (q.act c).pending? e.timer.handle = none ∨
        (TimerMoment.mk q c).cancels e.timer.handle = false ∧
          (q.act c).pending? e.timer.handle = q.pending? e.timer.handle) := by
  cases hd : (TimerMoment.mk q c).dispatch? e.timer.handle with
  | some now =>
    obtain ⟨t, hpending, hdue, -, hafter⟩ := TimerMoment.pending?_act_of_dispatch? hs hd
    refine .inl ⟨t, now, rfl, Bool.eq_false_iff.mpr fun hc => ?_, hpending, hdue, hafter⟩
    rw [TimerMoment.dispatch?_of_cancels hc] at hd
    exact absurd hd (by simp)
  | none =>
    refine .inr ⟨rfl, ?_⟩
    cases hc : (TimerMoment.mk q c).cancels e.timer.handle with
    | true => exact .inl ⟨rfl, TimerMoment.pending?_act_of_cancels hc⟩
    | false =>
      have hne : q.nextHandle ≠ e.timer.handle := fun heq => absurd hused (by rw [heq]; omega)
      exact .inr ⟨rfl, TimerMoment.pending?_act_of_idle hne hno hd hc⟩

theorem Timeout.andThen (ht : e.Timeout q) (hp : e.timer.period = none) (hs : q.Sound)
    (hused : e.timer.handle.toInt < q.nextHandle.toInt)
    (hno : (TimerMoment.mk q c).overflows = false) :
    (e.andThen ⟨q, c⟩).Timeout (q.act c) := by
  have hrevokes : (TimerMoment.mk q c).revokes e.timer.handle
      = ((TimerMoment.mk q c).cancels e.timer.handle && (q.pending? e.timer.handle).isSome) := by
    rw [TimerMoment.revokes, TimerQueue.isPending_eq]
  obtain ⟨t, now, hd, hc, hpending, hdue, hafter⟩ | ⟨hd, ⟨hc, hafter⟩ | ⟨hc, hafter⟩⟩ :=
    moment_cases hs hused hno
  -- dispatched: it was pending
  · cases ht with
    | pending found dispatches revoked =>
      obtain rfl : e.timer = t := Option.some.inj (found.symm.trans hpending)
      refine .dispatched now hdue ?_ ?_ ?_
      · rw [timer_andThen, hafter, hp]
        rfl
      · rw [dispatches_andThen, dispatches, hd]
        rfl
      · rw [isRevoked_andThen, revoked, hrevokes, hc]
        rfl
    | dispatched _ _ gone => exact absurd hpending (by simp [gone])
    | cancelled gone => exact absurd hpending (by simp [gone])
  -- cancelled: that counts as long as it is pending
  · have hdispatches := dispatches_andThen_of_none hd
    have hrevoked : (e.andThen ⟨q, c⟩).isRevoked
        = (e.isRevoked || (q.pending? e.timer.handle).isSome) := by
      rw [isRevoked_andThen, hrevokes, hc, Bool.true_and]
    cases ht with
    | pending found dispatches revoked =>
      exact .cancelled hafter (hdispatches.trans dispatches) (by rw [hrevoked, found]; simp)
    | dispatched now due gone dispatches revoked =>
      exact .dispatched now due hafter (hdispatches.trans dispatches)
        (by rw [hrevoked, gone, revoked]; rfl)
    | cancelled gone dispatches revoked =>
      exact .cancelled hafter (hdispatches.trans dispatches) (by rw [hrevoked, revoked]; rfl)
  -- left alone
  · have hdispatches := dispatches_andThen_of_none hd
    have hrevoked : (e.andThen ⟨q, c⟩).isRevoked = e.isRevoked := by
      rw [isRevoked_andThen, hrevokes, hc, Bool.false_and, Bool.or_false]
    cases ht with
    | pending found dispatches revoked =>
      exact .pending (hafter.trans found) (hdispatches.trans dispatches) (hrevoked.trans revoked)
    | dispatched now due gone dispatches revoked =>
      exact .dispatched now due (hafter.trans gone) (hdispatches.trans dispatches)
        (hrevoked.trans revoked)
    | cancelled gone dispatches revoked =>
      exact .cancelled (hafter.trans gone) (hdispatches.trans dispatches) (hrevoked.trans revoked)

theorem Interval.andThen (hi : e.Interval q p) (hp : e.timer.period = some p) (hs : q.Sound)
    (hused : e.timer.handle.toInt < q.nextHandle.toInt)
    (hgone : e.isCancelled = true → q.pending? e.timer.handle = none)
    (hno : (TimerMoment.mk q c).overflows = false) :
    (e.andThen ⟨q, c⟩).Interval (q.act c) p := by
  obtain ⟨t, now, hd, hc, hpending, hdue, hafter⟩ | ⟨hd, hcancel⟩ := moment_cases hs hused hno
  -- dispatched: it was not cancelled, so it was pending for the instant one period later
  · have hdispatches : (e.andThen ⟨q, c⟩).dispatches = e.dispatches ++ [now] := by
      rw [dispatches_andThen, hd]
      rfl
    have hlive : e.isCancelled = false := Bool.eq_false_iff.mpr fun hcancelled => by
      rw [hgone hcancelled] at hpending
      exact absurd hpending (by simp)
    obtain rfl : { e.timer with due := e.nextDue p } = t :=
      Option.some.inj ((hi.found hlive).symm.trans hpending)
    refine ⟨?_, fun instant hinstant => ?_, fun _ => ?_⟩
    · rw [hdispatches, List.isChain_append]
      refine ⟨hi.spaced, List.isChain_singleton _, fun last hlast next hnext => ?_⟩
      obtain rfl : now = next := by simpa using hnext
      simpa [nextDue, Option.mem_def.mp hlast] using hdue
    · rw [hdispatches, List.mem_append, List.mem_singleton] at hinstant
      rcases hinstant with hinstant | rfl
      · exact hi.due instant hinstant
      · exact (nextDue_le hi).trans hdue
    · have hnext : (e.andThen ⟨q, c⟩).nextDue p = now + p := by
        rw [nextDue, hdispatches]
        simp
      rw [timer_andThen, hafter, hnext]
      simp [hp]
  -- cancelled or left alone
  · have hdispatches := dispatches_andThen_of_none hd
    refine ⟨by rw [hdispatches]; exact hi.spaced, by rw [hdispatches]; exact hi.due, fun hlive => ?_⟩
    rw [isCancelled_andThen, Bool.or_eq_false_iff] at hlive
    obtain ⟨hc, -⟩ | ⟨-, hafter⟩ := hcancel
    · exact absurd hlive.2 (by simp [hc])
    · rw [timer_andThen, hafter, hi.found hlive.1, nextDue, nextDue, hdispatches]
      rfl

/-- Whatever is pending under the handle of a timer has its callback. -/
theorem Tracks.callback_eq (ht : e.Tracks q) {t : Timer}
    (hpending : q.pending? e.timer.handle = some t) : t.callback = e.timer.callback := by
  cases hp : e.timer.period with
  | none =>
    cases ht.timeout hp with
    | pending found =>
      rw [found] at hpending
      cases hpending
      rfl
    | dispatched _ _ gone => exact absurd hpending (by simp [gone])
    | cancelled gone => exact absurd hpending (by simp [gone])
  | some p =>
    cases hc : e.isCancelled with
    | true => exact absurd hpending (by simp [ht.gone hc])
    | false =>
      rw [(ht.interval p hp).found hc] at hpending
      cases hpending
      rfl

/-- What one moment more does to what is known of a timer. -/
theorem Tracks.andThen (ht : e.Tracks q) (hs : q.Sound)
    (hno : (TimerMoment.mk q c).overflows = false)
    (hnext : q.nextHandle.toInt ≤ (q.act c).nextHandle.toInt) :
    (e.andThen ⟨q, c⟩).Tracks (q.act c) where
  used := lt_of_lt_of_le ht.used hnext
  quiet := by
    refine List.pairwise_append.mpr ⟨ht.quiet, List.pairwise_singleton _ _, ?_⟩
    intro m hm m' hm' hc
    obtain rfl := List.mem_singleton.mp hm'
    -- nothing is pending any more
    have hcancelled : e.isCancelled = true := List.any_eq_true.mpr ⟨m, hm, hc⟩
    rw [timer_andThen]
    cases hd : (TimerMoment.mk q c).dispatch? e.timer.handle with
    | none => rfl
    | some now =>
      obtain ⟨t, hpending, -⟩ := TimerMoment.pending?_act_of_dispatch? hs hd
      rw [ht.gone hcancelled] at hpending
      exact absurd hpending (by simp)
  own m hm now hd := by
    rcases List.mem_append.mp hm with hm | hm
    · exact ht.own m hm now hd
    · obtain rfl := List.mem_singleton.mp hm
      obtain ⟨t, hpending, -, hfired, -⟩ := TimerMoment.pending?_act_of_dispatch? hs hd
      rw [timer_andThen, ← ht.callback_eq hpending]
      exact hfired
  gone hcancelled := by
    rw [isCancelled_andThen, Bool.or_eq_true] at hcancelled
    obtain ⟨t, now, -, hc, hpending, -⟩ | ⟨-, ⟨-, hafter⟩ | ⟨hc, hafter⟩⟩ :=
      moment_cases hs ht.used hno
    · have hgone := ht.gone (hcancelled.resolve_right (by simp [hc]))
      exact absurd hpending (by simp [hgone])
    · exact hafter
    · exact hafter.trans (ht.gone (hcancelled.resolve_right (by simp [hc])))
  timeout hp := (ht.timeout hp).andThen hp hs ht.used hno
  interval p hp := (ht.interval p hp).andThen hp hs ht.used ht.gone hno

end TimerLife

/-! ### Runs -/

theorem toInt_handleAfter {h : Int32} {n : ℕ} (hh : h.toInt = n) (hn : n + 1 < 2 ^ 31) :
    (TimerQueue.handleAfter h).toInt = n + 1 := by
  have hone : (1 : Int32).toInt = 1 := rfl
  have hsucc : (h + 1).toInt = n + 1 := by
    rw [Int32.toInt_add, hh, hone, Int.bmod_eq_of_le (by omega) (by omega)]
  change (if h + 1 ≤ 1 then (1 : Int32) else h + 1).toInt = n + 1
  split
  · rename_i hle
    rw [Int32.le_iff_toInt_le, hsucc, hone] at hle
    rw [hone]
    omega
  · exact hsucc

/-- The queue after the moments of a run: handles have been handed out in order, each once, and
what is pending under the handle of a timer is what its life says. -/
structure Tracked (q : TimerQueue) (past : List TimerMoment) : Prop where
  sound : q.Sound
  next : q.nextHandle.toInt = (lives past).length + 1
  tracks : ∀ e ∈ lives past, e.Tracks q
  nodup : ((lives past).map (·.timer.handle)).Nodup

section Tracked

variable {q : TimerQueue} {past : List TimerMoment} {c : TimerCall} {t : Timer}

theorem tracked_empty : Tracked .empty [] where
  sound := TimerQueue.sound_empty
  next := rfl
  tracks _ he := absurd he List.not_mem_nil
  nodup := List.nodup_nil

theorem handles_andThen (m : TimerMoment) (es : List TimerLife) :
    (es.map (·.andThen m)).map (·.timer.handle) = es.map (·.timer.handle) := by
  rw [List.map_map]
  rfl

/-- The timers that had been made before, one moment later. -/
theorem Tracked.tracks_andThen (ht : Tracked q past) (hno : (TimerMoment.mk q c).overflows = false)
    (hnext : q.nextHandle.toInt ≤ (q.act c).nextHandle.toInt) :
    ∀ e ∈ (lives past).map (·.andThen ⟨q, c⟩), e.Tracks (q.act c) := by
  intro e he
  obtain ⟨e', he', rfl⟩ := List.mem_map.mp he
  exact (ht.tracks e' he').andThen ht.sound hno hnext

theorem tracks_made (hhandle : t.handle = q.nextHandle)
    (hact : q.act c = (q.schedule t.due t.period t.callback).2)
    (hnext : q.nextHandle.toInt < (q.act c).nextHandle.toInt) :
    TimerLife.Tracks ⟨t, []⟩ (q.act c) := by
  have hfound : (q.act c).pending? t.handle = some t := by
    rw [hact, TimerQueue.pending?_schedule, if_pos hhandle.symm, ← hhandle]
  exact {
    used := by rw [hhandle]; exact hnext
    quiet := .nil
    own := fun _ h => absurd h List.not_mem_nil
    gone := fun h => absurd h Bool.false_ne_true
    timeout := fun _ => .pending hfound rfl rfl
    interval := fun _ _ => ⟨.nil, fun _ h => absurd h List.not_mem_nil, fun _ => hfound⟩ }

/-- A moment at which no timer is made. -/
theorem Tracked.andThen_of_none (ht : Tracked q past)
    (hno : (TimerMoment.mk q c).overflows = false) (hmade : (TimerMoment.mk q c).made? = none) :
    Tracked (q.act c) (past ++ [⟨q, c⟩]) := by
  have hlives : lives (past ++ [⟨q, c⟩]) = (lives past).map (·.andThen ⟨q, c⟩) := by
    rw [lives_append, hmade]
    exact List.append_nil _
  have hnext : (q.act c).nextHandle = q.nextHandle := TimerQueue.nextHandle_act hmade
  refine ⟨ht.sound.act c, ?_, ?_, ?_⟩
  · rw [hlives, List.length_map, hnext, ht.next]
  · rw [hlives]
    exact ht.tracks_andThen hno (by rw [hnext])
  · rw [hlives, handles_andThen]
    exact ht.nodup

/-- A moment at which a timer is made, under a handle that has not been handed out. -/
theorem Tracked.andThen_of_some (ht : Tracked q past)
    (hno : (TimerMoment.mk q c).overflows = false) (hmade : (TimerMoment.mk q c).made? = some t)
    (hcount : (lives past).length + 1 < 2 ^ 31 - 1) : Tracked (q.act c) (past ++ [⟨q, c⟩]) := by
  obtain ⟨hhandle, hact⟩ := TimerQueue.act_of_made? hmade
  have hlives : lives (past ++ [⟨q, c⟩]) = (lives past).map (·.andThen ⟨q, c⟩) ++ [⟨t, []⟩] := by
    rw [lives_append, hmade]
    rfl
  have hnext : (q.act c).nextHandle.toInt = (lives past).length + 1 + 1 := by
    rw [hact]
    exact_mod_cast toInt_handleAfter (by exact_mod_cast ht.next) (by omega)
  have hlt : q.nextHandle.toInt < (q.act c).nextHandle.toInt := by
    rw [hnext, ht.next]
    omega
  refine ⟨ht.sound.act c, ?_, fun e he => ?_, ?_⟩
  · rw [hnext, hlives, List.length_append, List.length_map, List.length_singleton]
    push_cast
    ring
  · rw [hlives, List.mem_append, List.mem_singleton] at he
    rcases he with he | rfl
    · exact ht.tracks_andThen hno (le_of_lt hlt) e he
    · exact tracks_made hhandle hact hlt
  · rw [hlives, List.map_append, handles_andThen, List.nodup_append]
    refine ⟨ht.nodup, List.nodup_singleton _, fun h hh h' hh' heq => ?_⟩
    -- the handles handed out before are smaller
    obtain ⟨e, he, rfl⟩ := List.mem_map.mp hh
    have hnew : h' = q.nextHandle := (List.mem_singleton.mp hh').trans hhandle
    have hused := (ht.tracks e he).used
    rw [heq, hnew] at hused
    omega

end Tracked

/-- By induction over runs. -/
theorem tracked_after (calls : List TimerCall) :
    (lives (TimerQueue.empty.moments calls)).length < 2 ^ 31 - 1 →
    (∀ m ∈ TimerQueue.empty.moments calls, m.overflows = false) →
    Tracked (TimerQueue.empty.after calls) (TimerQueue.empty.moments calls) := by
  induction calls using List.reverseRecOn with
  | nil => exact fun _ _ => tracked_empty
  | append_singleton calls c ih =>
    intro hcount hno
    rw [TimerQueue.moments_append] at hcount hno ⊢
    have hlength : (lives (TimerQueue.empty.moments calls)).length
        + (TimerMoment.mk (TimerQueue.empty.after calls) c).made?.toList.length < 2 ^ 31 - 1 := by
      simpa [lives_append] using hcount
    have ht := ih (by omega) fun m hm => hno m (List.mem_append_left _ hm)
    have hlast := hno _ (List.mem_append_right _ (List.mem_singleton_self _))
    have hafter : TimerQueue.empty.after (calls ++ [c]) = (TimerQueue.empty.after calls).act c :=
      TimerQueue.after_append ..
    rw [hafter]
    cases hmade : (TimerMoment.mk (TimerQueue.empty.after calls) c).made? with
    | none => exact ht.andThen_of_none hlast hmade
    | some t =>
      rw [hmade] at hlength
      exact ht.andThen_of_some hlast hmade hlength

end ModuleHost
