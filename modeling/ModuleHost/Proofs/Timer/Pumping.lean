/-
The timers of a session that is pumped.

Whatever a session goes through, its timer queue goes through calls; and a pump is made of
rounds, each of which takes the timer that is due next out of the queue and then runs its
callback and the microtasks after it.

* `Session.Evolves.exists_after` — an evolution makes calls of the queue and does nothing
  else to it;
* `Fires` — the rounds of a pump, and how they end;
* `exists_fires` — by induction on the budget, every pump of sandboxed code has its rounds;
* `Fires.pump_eq_error`, `Fires.pump_eq` — it fails as they end, or settles with nothing due.
-/
import Mathlib
import ModuleHost.Proofs.Session.Machine
import ModuleHost.Proofs.Timer.Runs

namespace ModuleHost

open Act

/-! ### The calls of an evolution -/

namespace TimerQueue

variable {q q' : TimerQueue}

theorem Change.exists_act (hc : q.Change q') : ∃ c, q' = q.act c := by
  cases hc with
  | @timeout now delay callback r added => exact ⟨.timeout now delay callback, by simp [act, added]⟩
  | @interval now period callback r added =>
    exact ⟨.interval now period callback, by simp [act, added]⟩
  | cancelled handle => exact ⟨.cancel handle, rfl⟩
  | due now => exact ⟨.takeDue now, rfl⟩
  | queued callback => exact ⟨.addMicrotask callback, rfl⟩
  | unqueued => exact ⟨.takeMicrotask, rfl⟩

end TimerQueue

namespace Session

variable {s s' : Session}

theorem Change.exists_after (hc : s.Change s') : ∃ calls, s'.timers = s.timers.after calls := by
  cases hc with
  | timers hc =>
    obtain ⟨c, hact⟩ := hc.exists_act
    exact ⟨[c], hact⟩
  | _ => exact ⟨[], rfl⟩

theorem Evolves.exists_after (hev : s.Evolves s') :
    ∃ calls, s'.timers = s.timers.after calls := by
  induction hev with
  | refl => exact ⟨[], rfl⟩
  | tail _ hc ih =>
    obtain ⟨calls, hcalls⟩ := ih
    obtain ⟨calls', hcalls'⟩ := hc.exists_after
    exact ⟨calls ++ calls', by rw [hcalls', hcalls, TimerQueue.after_append]⟩

/-- The queue of a reachable session is that of a run. -/
theorem Reachable.exists_after (hs : s.Reachable) :
    ∃ calls, s.timers = TimerQueue.empty.after calls := by
  obtain ⟨e, c, loader, hev⟩ := hs
  exact hev.exists_after

end Session

/-! ### The rounds of a pump -/

/-- A timer that fires, and what is asked for while its callback and the microtasks after it
run. -/
structure Round where
  timer : Timer
  asked : List TimerCall

def Round.calls (r : Round) (instant : ℕ) : List TimerCall := .takeDue instant :: r.asked

variable {γ : Type} {m : Machine γ} {w w' : World γ} {instant budget : ℕ}

def runRound (m : Machine γ) (budget : ℕ) (callback : Int32) : Act γ ℕ :=
  runCallback m callback >>= fun _ => drainMicrotasks m budget

/-- The world after the timer that is due next has been taken out of the queue. -/
def afterTakingDue (instant : ℕ) (w : World γ) : World γ :=
  ⟨{ w.session with timers := (w.session.timers.takeDue instant).2 }, w.guest⟩

/-- The timer that is due next is handed out. -/
structure HandsOut (instant : ℕ) (w : World γ) (t : Timer) : Prop where
  next : w.session.timers.nextDue? instant = some t
  dispatched :
    (TimerMoment.mk w.session.timers (.takeDue instant)).dispatch? t.handle = some instant
  taken : takeDue instant w = .ok (some t.callback) (afterTakingDue instant w)

/-- An interval is next whose next instant cannot be formed. -/
def Overflows (instant : ℕ) (w : World γ) : Prop :=
  ∃ t p, w.session.timers.nextDue? instant = some t ∧ t.period = some p ∧
    latestInstant < instant + p

/-- How firing ends. -/
inductive Ending where
  /-- The budget is spent. -/
  | exhausted
  /-- Nothing is due any more. -/
  | nothing
  /-- An interval is due whose next instant cannot be formed. -/
  | overflowed
  /-- The last round has failed. -/
  | failed (e : Fault)

namespace Ending

def fault? : Ending → Option Fault
  | exhausted => some .exhausted
  | nothing => none
  | overflowed => some .panic
  | failed e => some e

/-- The calls of the queue that are not part of a round. -/
def calls (instant : ℕ) : Ending → List TimerCall
  | overflowed => [.takeDue instant]
  | _ => []

end Ending

/-- The rounds of a pump, up to the end or to the one that fails: in each the timer that is due next
is handed out, and its callback runs. -/
inductive Fires (m : Machine γ) (instant : ℕ) :
    ℕ → World γ → List Round → Ending → World γ → Prop
  | exhausted {w : World γ} : Fires m instant 0 w [] .exhausted w
  | nothing {budget : ℕ} {w : World γ} (none : w.session.timers.nextDue? instant = none) :
      Fires m instant (budget + 1) w [] .nothing w
  | overflowed {budget : ℕ} {w : World γ} (spent : Overflows instant w) :
      Fires m instant (budget + 1) w [] .overflowed (afterTakingDue instant w)
  | failed {budget : ℕ} {w w' : World γ} {t : Timer} {asked : List TimerCall} {e : Fault}
      (out : HandsOut instant w t)
      (ran : runRound m budget t.callback (afterTakingDue instant w) = .error e w')
      (timers : w'.session.timers = (afterTakingDue instant w).session.timers.after asked) :
      Fires m instant (budget + 1) w [⟨t, asked⟩] (.failed e) w'
  | fired {budget n : ℕ} {w w₁ w' : World γ} {t : Timer} {asked : List TimerCall}
      {rounds : List Round} {ending : Ending} (out : HandsOut instant w t)
      (ran : runRound m budget t.callback (afterTakingDue instant w) = .ok n w₁)
      (timers : w₁.session.timers = (afterTakingDue instant w).session.timers.after asked)
      (rest : Fires m instant budget w₁ rounds ending w') :
      Fires m instant (budget + 1) w (⟨t, asked⟩ :: rounds) ending w'

theorem takeDue_eq (instant : ℕ) (w : World γ) :
    takeDue instant w = (match (w.session.timers.takeDue instant).1 with
      | .nothing => return none
      | .fired callback => return some callback
      | .overflow => throw .panic : Act γ (Option Int32)) (afterTakingDue instant w) := rfl

theorem takeDue_eq_panic_iff :
    takeDue instant w = .error .panic (afterTakingDue instant w) ↔ Overflows instant w := by
  constructor
  · intro h
    cases ht : w.session.timers.nextDue? instant with
    | none =>
      rw [takeDue_eq, TimerQueue.takeDue_of_none ht] at h
      cases h
    | some t =>
      cases hp : t.period with
      | none =>
        rw [takeDue_eq, TimerQueue.takeDue_timeout ht hp] at h
        cases h
      | some p =>
        refine ⟨t, p, ht, hp, not_le.mp fun hl => ?_⟩
        rw [takeDue_eq, TimerQueue.takeDue_interval ht hp hl] at h
        cases h
  · rintro ⟨t, p, ht, hp, hl⟩
    rw [takeDue_eq, TimerQueue.takeDue_overflow ht hp (not_le.mpr hl)]
    rfl

/-- Nothing is due, or a timer is handed out, or its next instant cannot be formed. -/
theorem takeDue_cases (instant : ℕ) (w : World γ) :
    (w.session.timers.nextDue? instant = none ∧ takeDue instant w = .ok none w) ∨
    (∃ t, HandsOut instant w t) ∨
    (Overflows instant w ∧ takeDue instant w = .error .panic (afterTakingDue instant w)) := by
  cases ht : w.session.timers.nextDue? instant with
  | none =>
    refine .inl ⟨rfl, ?_⟩
    rw [takeDue_eq, afterTakingDue, TimerQueue.takeDue_of_none ht]
    rfl
  | some t =>
    refine .inr ?_
    by_cases ho : (w.session.timers.takeDue instant).1 = .overflow
    · have hpanic : takeDue instant w = .error .panic (afterTakingDue instant w) := by
        rw [takeDue_eq, ho]
        rfl
      exact .inr ⟨takeDue_eq_panic_iff.mp hpanic, hpanic⟩
    · have hfired := TimerQueue.takeDue_fst ht ho
      refine .inl ⟨t, ht, ?_, ?_⟩
      · simp [TimerMoment.dispatch?, hfired, ht]
      · rw [takeDue_eq, hfired]
        rfl

theorem fireTimers_of_handsOut {t : Timer} (out : HandsOut instant w t) :
    fireTimers m instant (budget + 1) w
      = (runRound m budget t.callback >>= fun _ => (· + 1) <$> fireTimers m instant budget)
          (afterTakingDue instant w) := by
  rw [fireTimers]
  refine (bind_of_ok out.taken _).trans ?_
  simp only [runRound, bind_assoc, map_eq_pure_bind]

theorem Machine.Evolving.runRound (hm : m.Evolving) (budget : ℕ) (callback : Int32) :
    Act.Evolving (runRound m budget callback) :=
  ((Patient.runCallback callback).orderly.bind fun _ => .drainMicrotasks budget).evolving hm

section Fires

variable {rounds : List Round} {ending : Ending}

theorem Fires.timers (h : Fires m instant budget w rounds ending w') :
    w'.session.timers
      = w.session.timers.after (rounds.flatMap (·.calls instant) ++ ending.calls instant) := by
  induction h with
  | exhausted => rfl
  | nothing none => rfl
  | overflowed spent => rfl
  | failed out ran timers =>
    rw [timers, List.flatMap_singleton]
    exact congrArg (TimerQueue.after _) (List.append_nil _).symm
  | fired out ran timers rest ih =>
    rw [ih, timers, List.flatMap_cons, List.append_assoc,
      TimerQueue.after_append _ (Round.calls _ _)]
    rfl

theorem Fires.nextDue?_eq_none (h : Fires m instant budget w rounds ending w')
    (hend : ending.fault? = none) : w'.session.timers.nextDue? instant = none := by
  induction h with
  | nothing none => exact none
  | fired out ran timers rest ih => exact ih hend
  | _ => cases hend

/-- Firing that comes to an end returns the number of its rounds. -/
theorem Fires.eq_ok (h : Fires m instant budget w rounds ending w') (hend : ending.fault? = none) :
    fireTimers m instant budget w = .ok rounds.length w' := by
  induction h with
  | nothing none =>
    obtain ⟨-, htaken⟩ | ⟨t, out⟩ | ⟨⟨t, p, ht, -⟩, -⟩ := takeDue_cases instant _
    · exact bind_of_ok htaken _
    · cases none.symm.trans out.next
    · cases none.symm.trans ht
  | fired out ran timers rest ih =>
    rw [fireTimers_of_handsOut out, bind_of_ok ran, map_eq_pure_bind, bind_of_ok (ih hend)]
    rfl
  | _ => cases hend

theorem Fires.eq_error {e : Fault} (h : Fires m instant budget w rounds ending w')
    (hend : ending.fault? = some e) : fireTimers m instant budget w = .error e w' := by
  induction h with
  | exhausted =>
    cases hend
    rfl
  | nothing none => cases hend
  | overflowed spent =>
    cases hend
    exact bind_of_error (takeDue_eq_panic_iff.mpr spent) _
  | failed out ran timers =>
    cases hend
    rw [fireTimers_of_handsOut out]
    exact bind_of_error ran _
  | fired out ran timers rest ih =>
    rw [fireTimers_of_handsOut out, bind_of_ok ran, map_eq_pure_bind]
    exact bind_of_error (ih hend) _

/-- Firing what is due comes in rounds, by induction on the budget. -/
theorem exists_fires (hm : m.Evolving) (instant budget : ℕ) (w : World γ) :
    ∃ rounds ending w', Fires m instant budget w rounds ending w' := by
  induction budget generalizing w with
  | zero => exact ⟨[], .exhausted, w, .exhausted⟩
  | succ budget ih =>
    obtain ⟨hnone, -⟩ | ⟨t, out⟩ | ⟨spent, -⟩ := takeDue_cases instant w
    · exact ⟨[], .nothing, w, .nothing hnone⟩
    · have hround := hm.runRound budget t.callback
      cases hr : ModuleHost.runRound m budget t.callback (afterTakingDue instant w) with
      | error e w₁ =>
        obtain ⟨asked, htimers⟩ := (hround.of_error hr).exists_after
        exact ⟨[⟨t, asked⟩], .failed e, w₁, .failed out hr htimers⟩
      | ok n w₁ =>
        obtain ⟨asked, htimers⟩ := (hround.of_ok hr).exists_after
        obtain ⟨rounds, ending, w', hfires⟩ := ih w₁
        exact ⟨⟨t, asked⟩ :: rounds, ending, w', .fired out hr htimers hfires⟩
    · exact ⟨[], .overflowed, afterTakingDue instant w, .overflowed spent⟩

/-- A pump whose rounds fail ends as they do. -/
theorem Fires.pump_eq_error {e : Fault} (h : Fires m instant budget w rounds ending w')
    (hend : ending.fault? = some e) : pump m budget instant w = .error e w' :=
  bind_of_error (h.eq_error hend) _

/-- A pump whose rounds come to an end settles and returns their number. -/
theorem Fires.pump_eq (h : Fires m instant budget w rounds ending w')
    (hend : ending.fault? = none) :
    pump m budget instant w = (settle m budget >>= fun _ => pure rounds.length) w' :=
  bind_of_ok (h.eq_ok hend) _

/-- What is asked of the timers after the rounds of a pump: the call that has overflowed, or what
settling asks for. -/
theorem Fires.exists_rest (hm : m.Evolving) (h : Fires m instant budget w rounds ending w') :
    ∃ rest, (final (pump m budget instant) w).session.timers
        = w.session.timers.after (rounds.flatMap (·.calls instant) ++ rest) ∧
      (ending.fault? ≠ none → rest = ending.calls instant) := by
  cases hend : ending.fault? with
  | some e =>
    refine ⟨ending.calls instant, ?_, fun _ => rfl⟩
    rw [final, h.pump_eq_error hend]
    exact h.timers
  | none =>
    have hsettles := ((Orderly.settle budget).bind fun _ => .pure rounds.length).evolving hm
    obtain ⟨more, hmore⟩ := (hsettles w').exists_after
    refine ⟨ending.calls instant ++ more, ?_, fun hne => absurd rfl hne⟩
    rw [final, h.pump_eq hend, ← List.append_assoc, TimerQueue.after_append, ← h.timers]
    exact hmore

end Fires

end ModuleHost
