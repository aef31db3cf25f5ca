/-
The delays that modules ask for.

A delay is any number.  What is not a positive number is no delay, and what is too long for a
duration is the longest one; that one is longer than the distance between any two instants, so a
timer with it can never be made, and an interval with a long period cannot be put back once it has
fired.  In both cases the host gives up.

* `TimerKind.run_eq` — what a call of a timer function does, for every delay;
* `takeDue_eq_panic_iff` — one asking gives up exactly if it comes to an interval whose next
  instant cannot be formed;
* `fireTimers_error_cases`, `pump_of_overflows` — by induction on the budget, the same for pumps;
* `timer_request_returns_iff` — the two put together, after every run;
* `endless_delay_panics` — delays for which the host does give up.
-/
import Mathlib
import ModuleHost.Proofs.Timer.Handles
import ModuleHost.Proofs.Timer.Draining

namespace ModuleHost

open Act

/-! ### Delays -/

namespace HostCall

/-- What is not a number asks for no delay. -/
theorem delayOf_of_nan {x : Double} (hx : x.datum = .nan) : delayOf x = 0 := by
  rw [delayOf, hx]

/-- So does what has a minus sign. -/
theorem delayOf_of_negative {x : Double}
    (hx : x.datum = .infinite true ∨ ∃ n e, x.datum = .finite true n e) : delayOf x = 0 := by
  obtain hx | ⟨n, e, hx⟩ := hx
  · rw [delayOf, hx]
  · rw [delayOf, hx]

/-- What is too long for a duration asks for the longest one. -/
theorem delayOf_of_infinite {x : Double} (hx : x.datum = .infinite false) :
    delayOf x = maxDuration := by
  have hquotient : (x.divNat 1000).datum = .infinite false := by
    rw [Double.divNat, hx]
    rfl
  rw [delayOf, hx, hquotient]

end HostCall

open HostCall

/-- The two kinds of timers. -/
inductive TimerKind where
  | timeout | interval

namespace TimerKind

def func : TimerKind → HostFunc
  | .timeout => .setTimeout
  | .interval => .setInterval

/-- How long a timer waits before it is due for the first time. -/
def wait : TimerKind → Double → ℕ
  | .timeout, x => delayOf x
  | .interval, x => max (delayOf x) shortestPeriod

def period? : TimerKind → Double → Option ℕ
  | .timeout, _ => none
  | .interval, x => some (max (delayOf x) shortestPeriod)

/-- Whatever asks for no delay waits for the shortest period at most. -/
theorem wait_le_of_delayOf_eq_zero (k : TimerKind) {x : Double} (hx : delayOf x = 0) :
    k.wait x ≤ shortestPeriod := by
  cases k with
  | timeout => exact hx.trans_le (Nat.zero_le _)
  | interval => exact (max_eq_right (hx.trans_le (Nat.zero_le _))).le

/-- An infinite wait is longer than the time up to the last instant. -/
theorem latestInstant_lt_wait (k : TimerKind) {x : Double} (hx : x.datum = .infinite false) :
    latestInstant < k.wait x := by
  have hlong : latestInstant < delayOf x := by
    rw [delayOf_of_infinite hx]
    decide
  cases k with
  | timeout => exact hlong
  | interval => exact lt_max_of_lt_left hlong

/-- The timer that is asked for in a session. -/
def timer (k : TimerKind) (callback : Int32) (x : Double) (s : Session) : Timer :=
  ⟨s.timers.nextHandle, s.clock + 1 + k.wait x, k.period? x, callback⟩

variable {γ : Type} {m : Machine γ}

/-- The world after the clock has been read. -/
def clocked (w : World γ) : World γ :=
  ⟨{ w.session with clock := w.session.clock + 1 }, w.guest⟩

/-- The world after a timer has been made. -/
def granted (k : TimerKind) (callback : Int32) (x : Double) (w : World γ) : World γ :=
  let t := k.timer callback x w.session
  ⟨{ (clocked w).session with timers := (w.session.timers.schedule t.due t.period callback).2 },
    w.guest⟩

/-- What a call does to the timers once the clock has been read. -/
def put? (k : TimerKind) (callback : Int32) (x : Double) (q : TimerQueue) (instant : ℕ) :
    Option (Int32 × TimerQueue) :=
  (TimerQueue.later? instant (k.wait x)).map fun due => q.schedule due (k.period? x) callback

theorem run_eq_scheduleTimer (k : TimerKind) (callback : Int32) (x : Double) :
    HostCall.run m k.func [.i32 callback, .f64 x]
      = wordResult (scheduleTimer (k.put? callback x)) := by
  cases k with
  | timeout => rfl
  | interval => rfl

/-- A call of a timer function makes a timer, or gives up if the instant cannot be formed. -/
theorem run_eq (k : TimerKind) (callback : Int32) (x : Double) (w : World γ) :
    HostCall.run m k.func [.i32 callback, .f64 x] w
      = if (k.timer callback x w.session).due ≤ latestInstant
        then .ok [.i32 (k.timer callback x w.session).handle] (k.granted callback x w)
        else .error .panic (clocked w) := by
  have hclock : (now : Act γ ℕ) w = .ok (w.session.clock + 1) (clocked w) := rfl
  rw [run_eq_scheduleTimer, wordResult, scheduleTimer_eq, bind_assoc, bind_of_ok hclock]
  by_cases hl : (k.timer callback x w.session).due ≤ latestInstant
  · have hlater : TimerQueue.later? (w.session.clock + 1) (k.wait x)
        = some (k.timer callback x w.session).due := if_pos hl
    have hstep : step (schedule (k.put? callback x) (w.session.clock + 1)) (clocked w)
        = .ok w.session.timers.nextHandle (k.granted callback x w) := by
      rw [step, schedule, put?, hlater]
      rfl
    rw [if_pos hl]
    exact bind_of_ok hstep _
  · have hlater : TimerQueue.later? (w.session.clock + 1) (k.wait x) = none := if_neg hl
    have hstep : step (schedule (k.put? callback x) (w.session.clock + 1)) (clocked w)
        = .error .panic (clocked w) := by
      rw [step, schedule, put?, hlater]
      rfl
    rw [if_neg hl]
    exact bind_of_error hstep _

end TimerKind

/-! ### Asking for what is due -/

section Pump

variable {γ : Type} {m : Machine γ} {w w' : World γ} {instant budget : ℕ}

/-- The worlds that firing reaches between two rounds, with what is left of the budget. -/
inductive Reaches (m : Machine γ) (instant : ℕ) : ℕ → World γ → ℕ → World γ → Prop
  | refl {budget : ℕ} {w : World γ} : Reaches m instant budget w budget w
  | round {budget left n : ℕ} {w w₁ w' : World γ} {t : Timer} (out : HandsOut instant w t)
      (ran : runRound m budget t.callback (afterTakingDue instant w) = .ok n w₁)
      (rest : Reaches m instant budget w₁ left w') : Reaches m instant (budget + 1) w left w'

/-- Firing fails where it comes to an interval whose next instant cannot be formed. -/
theorem fireTimers_of_overflows {left : ℕ} (h : Reaches m instant budget w left w')
    (hleft : 0 < left) (hover : Overflows instant w') :
    fireTimers m instant budget w = .error .panic (afterTakingDue instant w') := by
  induction h with
  | refl =>
    obtain ⟨left, rfl⟩ := Nat.exists_eq_succ_of_ne_zero (Nat.ne_of_gt hleft)
    exact bind_of_error (takeDue_eq_panic_iff.mpr hover) _
  | round out ran rest ih =>
    rw [fireTimers_of_handsOut out, bind_of_ok ran, map_eq_pure_bind]
    exact bind_of_error (ih hleft hover) _

/-- Firing fails in one of three ways, by induction on the budget: at an interval whose next
instant cannot be formed, in a round, or because the budget is spent. -/
theorem fireTimers_error_cases {e : Fault} (h : fireTimers m instant budget w = .error e w') :
    (∃ left w₁, Reaches m instant budget w (left + 1) w₁ ∧ Overflows instant w₁ ∧ e = .panic) ∨
    (∃ left w₁ t, Reaches m instant budget w (left + 1) w₁ ∧ HandsOut instant w₁ t ∧
      runRound m left t.callback (afterTakingDue instant w₁) = .error e w') ∨
    Reaches m instant budget w 0 w' ∧ e = .exhausted := by
  induction budget generalizing w with
  | zero =>
    cases h
    exact .inr (.inr ⟨.refl, rfl⟩)
  | succ budget ih =>
    obtain ⟨hnone, htaken⟩ | ⟨t, out⟩ | ⟨spent, hoverflow⟩ := takeDue_cases instant w
    · cases (bind_of_ok htaken _).symm.trans h
    · rw [fireTimers_of_handsOut out] at h
      cases hr : runRound m budget t.callback (afterTakingDue instant w) with
      | error e' w₁ =>
        cases (bind_of_error hr _).symm.trans h
        exact .inr (.inl ⟨budget, w, t, .refl, out, hr⟩)
      | ok n w₁ =>
        -- the round is put before what the others reach
        rw [bind_of_ok hr, map_eq_pure_bind] at h
        cases hf : fireTimers m instant budget w₁ with
        | ok n' w₂ => cases (bind_of_ok hf _).symm.trans h
        | error e' w₂ =>
          cases (bind_of_error hf _).symm.trans h
          obtain ⟨left, w₃, hreach, hover, rfl⟩ | ⟨left, w₃, u, hreach, hout, hrun⟩ |
            ⟨hreach, rfl⟩ := ih hf
          · exact .inl ⟨left, w₃, .round out hr hreach, hover, rfl⟩
          · exact .inr (.inl ⟨left, w₃, u, .round out hr hreach, hout, hrun⟩)
          · exact .inr (.inr ⟨.round out hr hreach, rfl⟩)
    · cases (bind_of_error hoverflow _).symm.trans h
      exact .inl ⟨budget, w, .refl, spent, rfl⟩

theorem pump_of_overflows {left : ℕ} (h : Reaches m instant budget w (left + 1) w')
    (hover : Overflows instant w') :
    pump m budget instant w = .error .panic (afterTakingDue instant w') :=
  bind_of_error (fireTimers_of_overflows h (Nat.succ_pos left) hover) _

end Pump

/-! ### Requests -/

open TimerQueue in
/-- What a call of a timer function has done when it returns: under the handle that it returns the
timer is pending as it was asked for, and it is one more if nothing was pending there, which is so
until all handles have been handed out. -/
structure TimerKind.Asked (q q' : TimerQueue) (calls : List TimerCall) (t : Timer) : Prop where
  positive : 0 < t.handle
  pending : q'.pending? t.handle = some t
  fresh_iff : Fresh q q' t.handle ↔ q.isPending t.handle = false
  fresh : made calls < handleCount → Fresh q q' t.handle

theorem TimerKind.asked_granted {γ : Type} {w : World γ} {calls : List TimerCall}
    (hw : w.session.timers = TimerQueue.empty.after calls) (k : TimerKind) (callback : Int32)
    (x : Double) :
    TimerKind.Asked w.session.timers (k.granted callback x w).session.timers calls
      (k.timer callback x w.session) := by
  set t := k.timer callback x w.session
  have hnext : t.handle = (TimerQueue.empty.after calls).nextHandle := by
    rw [← hw]
    rfl
  have hgranted : (k.granted callback x w).session.timers
      = ((TimerQueue.empty.after calls).schedule t.due t.period callback).2 := by
    rw [← hw]
    rfl
  have hfresh := (TimerQueue.sound_after calls).fresh_schedule_iff
    (TimerQueue.nextHandle_after_pos calls) t.due t.period callback
  rw [hw, hgranted]
  refine ⟨hnext ▸ TimerQueue.nextHandle_after_pos calls, ?_, hnext ▸ hfresh, fun hcount => ?_⟩
  · rw [TimerQueue.pending?_schedule, if_pos hnext.symm, ← hnext]
    rfl
  · rw [hnext]
    exact hfresh.mpr (TimerQueue.not_pending_nextHandle hcount)

/-- Whatever delay a module asks for, after every run: the call returns exactly if the instant at
which the timer is due can be formed, and then the timer is pending; otherwise the host gives up
and no timer is made.  So it returns for what is not a positive number, up to a short time before
the last instant, and never for an infinite delay.  From then on a pump gives up exactly if it
reaches an interval whose next instant cannot be formed; whatever else it fails of is a callback or
the budget. -/
theorem timer_request_returns_iff {γ : Type} (m : Machine γ) (calls : List TimerCall) (w : World γ)
    (hw : w.session.timers = TimerQueue.empty.after calls) (k : TimerKind) (callback : Int32)
    (x : Double) :
    let t := k.timer callback x w.session
    let called := HostCall.run m k.func [.i32 callback, .f64 x] w
    ((∃ vs w', called = .ok vs w') ↔ t.due ≤ latestInstant) ∧
    (∀ vs w', called = .ok vs w' → vs = [.i32 t.handle] ∧
      TimerKind.Asked w.session.timers w'.session.timers calls t) ∧
    (∀ e w', called = .error e w' → e = .panic ∧ w'.session.timers = w.session.timers) ∧
    ((x.datum = .nan ∨ x.datum = .infinite true ∨ ∃ n e, x.datum = .finite true n e) →
      w.session.clock + 1 + shortestPeriod ≤ latestInstant → ∃ vs w', called = .ok vs w') ∧
    (x.datum = .infinite false → ∃ w', called = .error .panic w') ∧
    ∀ (v v' : World γ) (instant budget : ℕ),
      (∀ left, Reaches m instant budget v (left + 1) v' → Overflows instant v' →
        pump m budget instant v = .error .panic (afterTakingDue instant v')) ∧
      ∀ e, fireTimers m instant budget v = .error e v' →
        (∃ left v₁, Reaches m instant budget v (left + 1) v₁ ∧ Overflows instant v₁ ∧ e = .panic) ∨
        (∃ left v₁ u, Reaches m instant budget v (left + 1) v₁ ∧ HandsOut instant v₁ u ∧
          runRound m left u.callback (afterTakingDue instant v₁) = .error e v') ∨
        Reaches m instant budget v 0 v' ∧ e = .exhausted := by
  intro t called
  have hrun : called = if t.due ≤ latestInstant then .ok [.i32 t.handle] (k.granted callback x w)
      else .error .panic (TimerKind.clocked w) := TimerKind.run_eq k callback x w
  have hreturns : (∃ vs w', called = .ok vs w') ↔ t.due ≤ latestInstant := by
    rw [hrun]
    split
    · rename_i hl
      exact ⟨fun _ => hl, fun _ => ⟨_, _, rfl⟩⟩
    · rename_i hl
      refine ⟨?_, fun h => absurd h hl⟩
      rintro ⟨vs, w', h⟩
      cases h
  refine ⟨hreturns, fun vs w' h => ?_, fun e w' h => ?_, fun hx hl => ?_, fun hx => ?_,
    fun v v' instant budget => ⟨fun left => pump_of_overflows, fun e => fireTimers_error_cases⟩⟩
  · rw [hrun] at h
    split at h
    · cases h
      exact ⟨rfl, TimerKind.asked_granted hw k callback x⟩
    · cases h
  · rw [hrun] at h
    split at h
    · cases h
    · cases h
      exact ⟨rfl, rfl⟩
  · have hzero : delayOf x = 0 := hx.elim delayOf_of_nan delayOf_of_negative
    have hwait := k.wait_le_of_delayOf_eq_zero hzero
    exact hreturns.mpr ((Nat.add_le_add_left hwait _).trans hl)
  · have hwait := k.latestInstant_lt_wait hx
    have hlate : ¬ t.due ≤ latestInstant := not_le.mpr (Nat.lt_add_left _ hwait)
    rw [hrun, if_neg hlate]
    exact ⟨_, rfl⟩

/-- A new session. -/
def untimed : World Unit := ⟨Session.new (.standard .default ⟨[]⟩ true) .none none, ()⟩

/-- A timeout after a second and a half. -/
theorem timer_request_returns_iff_untimed :
    untimed.session.timers = TimerQueue.empty.after [] ∧
    ∃ w', HostCall.run idle .setTimeout [.i32 7, .f64 (Double.ofNat 1500)] untimed
        = .ok [.i32 1] w' ∧
      TimerKind.Asked untimed.session.timers w'.session.timers []
        ⟨1, 1500 * millisecond + 1, none, 7⟩ := by
  obtain ⟨hreturns, hasked, -⟩ :=
    timer_request_returns_iff idle [] untimed rfl .timeout 7 (Double.ofNat 1500)
  obtain ⟨vs, w', hok⟩ := hreturns.mpr (by decide +kernel)
  obtain ⟨rfl, hasked⟩ := hasked vs w' hok
  have hdue : TimerKind.timeout.timer 7 (Double.ofNat 1500) untimed.session
      = ⟨1, 1500 * millisecond + 1, none, 7⟩ := by decide +kernel
  rw [hdue] at hasked
  exact ⟨rfl, w', hok, hasked⟩

/-- A period of more than half the distance to the last instant. -/
def longPeriod : Double := Double.ofNat (8 * 10 ^ 21)

/-- No timeout is granted after an infinite delay; and an interval is granted with a long period,
but a pump gives up when it is due. -/
theorem endless_delay_panics :
    (¬ ∀ (k : TimerKind) (callback : Int32) (x : Double), ∃ vs w',
      HostCall.run idle k.func [.i32 callback, .f64 x] untimed = .ok vs w') ∧
    ¬ ∀ (k : TimerKind) (callback : Int32) (x : Double) (vs : List Val) (w' : World Unit)
      (instant : ℕ), HostCall.run idle k.func [.i32 callback, .f64 x] untimed = .ok vs w' →
      ∀ v, pump idle 1 instant w' ≠ .error .panic v := by
  constructor
  · intro h
    obtain ⟨vs, w', hok⟩ := h .timeout 5 (Double.infinity false)
    rw [TimerKind.run_eq, if_neg (by decide +kernel)] at hok
    cases hok
  · intro h
    have hok := TimerKind.run_eq (m := idle) .interval 7 longPeriod untimed
    rw [if_pos (by decide +kernel)] at hok
    have hover : Overflows (9 * 10 ^ 27)
        (TimerKind.interval.granted 7 longPeriod untimed) :=
      ⟨TimerKind.interval.timer 7 longPeriod untimed.session, _, by decide +kernel, rfl,
        by decide +kernel⟩
    exact h .interval 7 longPeriod _ _ (9 * 10 ^ 27) hok _ (pump_of_overflows .refl hover)

end ModuleHost
