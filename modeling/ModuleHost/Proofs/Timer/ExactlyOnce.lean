/-
Timers are dispatched exactly once.

Put together from the lives of timers and the rounds of pumps: in every run a timeout is
dispatched at most once and not before it is due, an interval in steps of its period until it
is cancelled, and nothing after its handle has been cancelled.  Every session that pumps a
module is such a run, whatever the callbacks do and whichever of them fail.

* `TimerLife.Exact` — what holds of one timer at the end of any run;
* `timers_dispatched_exactly_once` — it holds of all timers of a run, and sessions make runs.
-/
import Mathlib
import ModuleHost.Proofs.Session.Announcements
import ModuleHost.Proofs.Session.Histories

namespace ModuleHost

open Act

variable {past : List TimerMoment} {e : TimerLife} {q : TimerQueue} {p : ℕ}

/-! ### What was asked for -/

theorem exists_made?_of_mem_lives (he : e ∈ lives past) : ∃ m ∈ past, m.made? = some e.timer := by
  induction past with
  | nil => exact absurd he List.not_mem_nil
  | cons m later ih =>
    rcases List.mem_append.mp he with he | he
    · obtain ⟨t, ht, rfl⟩ := List.mem_map.mp he
      exact ⟨m, List.mem_cons_self, Option.mem_toList.mp ht⟩
    · obtain ⟨m', hm', hmade⟩ := ih he
      exact ⟨m', List.mem_cons_of_mem _ hm', hmade⟩

namespace TimerLife

/-! ### One timer -/

/-- A timeout that was asked for in a run, at the end of it. -/
structure AsTimeout (past : List TimerMoment) (e : TimerLife) (q : TimerQueue) : Prop where
  asked : ∃ m ∈ past, ∃ now delay, m.call = .timeout now delay e.timer.callback ∧
    e.timer.due = now + delay
  once : e.dispatches.length ≤ 1
  due : ∀ now ∈ e.dispatches, e.timer.due ≤ now
  state : ∃! s, e.IsIn q s
  /-- Cancelling it comes too late and changes nothing. -/
  late : e.dispatches ≠ [] → q.cancel e.timer.handle = q

/-- An interval that was asked for in a run, at the end of it. -/
structure AsInterval (past : List TimerMoment) (e : TimerLife) (q : TimerQueue) (p : ℕ) :
    Prop where
  asked : ∃ m ∈ past, ∃ now period, m.call = .interval now period e.timer.callback ∧
    p = max period shortestPeriod ∧ e.timer.due = now + p
  due : ∀ now ∈ e.dispatches, e.timer.due ≤ now
  spaced : e.dispatches.IsChain (· + p ≤ ·)
  apart : e.dispatches.Pairwise (· < ·)
  pending : q.isPending e.timer.handle = !e.isCancelled

/-- A timer that was asked for in a run, at the end of it. -/
structure Exact (past : List TimerMoment) (e : TimerLife) (q : TimerQueue) : Prop where
  timeout : e.timer.period = none → e.AsTimeout past q
  interval : ∀ p, e.timer.period = some p → e.AsInterval past q p
  own : ∀ m ∈ e.later, ∀ now, m.dispatch? e.timer.handle = some now →
    (m.queue.takeDue now).1 = .fired e.timer.callback
  /-- Once its handle has been cancelled it is not dispatched any more. -/
  quiet : e.later.Pairwise fun m m' =>
    m.cancels e.timer.handle = true → m'.dispatch? e.timer.handle = none

theorem Timeout.exists_unique_state (ht : e.Timeout q) : ∃! s, e.IsIn q s := by
  have hpending : e.IsIn q .pending ↔ (q.pending? e.timer.handle).isSome := by
    rw [IsIn, TimerQueue.isPending_eq]
  cases ht with
  | pending found dispatches revoked =>
    refine ⟨.pending, hpending.mpr (by simp [found]), fun s hs => ?_⟩
    cases s with
    | pending => rfl
    | dispatched => exact absurd dispatches hs
    | cancelled => exact absurd (revoked.symm.trans hs) Bool.false_ne_true
  | dispatched now due gone dispatches revoked =>
    refine ⟨.dispatched, by simp [IsIn, dispatches], fun s hs => ?_⟩
    cases s with
    | pending => exact absurd (hpending.mp hs) (by simp [gone])
    | dispatched => rfl
    | cancelled => exact absurd (revoked.symm.trans hs) Bool.false_ne_true
  | cancelled gone dispatches revoked =>
    refine ⟨.cancelled, revoked, fun s hs => ?_⟩
    cases s with
    | pending => exact absurd (hpending.mp hs) (by simp [gone])
    | dispatched => exact absurd dispatches hs
    | cancelled => rfl

theorem Tracks.asTimeout (ht : e.Tracks q) (he : e ∈ lives past) (hp : e.timer.period = none) :
    e.AsTimeout past q := by
  have hstate := (ht.timeout hp).exists_unique_state
  obtain ⟨m, hm, hmade⟩ := exists_made?_of_mem_lives he
  have hasked : ∃ m ∈ past, ∃ now delay, m.call = .timeout now delay e.timer.callback ∧
      e.timer.due = now + delay := by
    obtain ⟨now, delay, hcall, hdue, -⟩ | ⟨now, period, -, -, hperiod⟩ :=
      TimerMoment.call_of_made? hmade
    · exact ⟨m, hm, now, delay, hcall, hdue⟩
    · rw [hp] at hperiod
      cases hperiod
  cases ht.timeout hp with
  | pending found dispatches revoked =>
    exact ⟨hasked, by simp [dispatches], by simp [dispatches], hstate, fun h => absurd dispatches h⟩
  | dispatched now due gone dispatches revoked =>
    exact ⟨hasked, by simp [dispatches], by simpa [dispatches] using due, hstate,
      fun _ => TimerQueue.cancel_of_pending?_eq_none gone⟩
  | cancelled gone dispatches revoked =>
    exact ⟨hasked, by simp [dispatches], by simp [dispatches], hstate, fun h => absurd dispatches h⟩

theorem Tracks.asInterval (ht : e.Tracks q) (he : e ∈ lives past)
    (hp : e.timer.period = some p) : e.AsInterval past q p := by
  have hinterval := ht.interval p hp
  obtain ⟨m, hm, hmade⟩ := exists_made?_of_mem_lives he
  obtain ⟨now, delay, -, -, hperiod⟩ | ⟨now, period, hcall, hdue, hperiod⟩ :=
    TimerMoment.call_of_made? hmade
  · rw [hp] at hperiod
    cases hperiod
  · obtain rfl : p = max period shortestPeriod := Option.some.inj (hp.symm.trans hperiod)
    have hpos : 0 < max period shortestPeriod := lt_max_of_lt_right (by decide)
    refine ⟨⟨m, hm, now, period, hcall, rfl, hdue⟩, hinterval.due, hinterval.spaced, ?_, ?_⟩
    · have hchain : e.dispatches.IsChain (· < ·) := hinterval.spaced.imp fun a b hab => by omega
      exact List.isChain_iff_pairwise.mp hchain
    · rw [TimerQueue.isPending_eq]
      cases hc : e.isCancelled with
      | true => rw [ht.gone hc]; rfl
      | false => rw [hinterval.found hc]; rfl

theorem Tracks.isExact (ht : e.Tracks q) (he : e ∈ lives past) : e.Exact past q where
  timeout := ht.asTimeout he
  interval _ := ht.asInterval he
  own := ht.own
  quiet := ht.quiet

end TimerLife

/-! ### All timers -/

/-- In every run that makes fewer than 2 ^ 31 - 1 timers and in which no instant overflows, the
timers have handles of their own and each is dispatched exactly as it was asked for.  The queue
of every session is that of a run, and a pump goes on with it round by round, whatever the
callbacks do and whether or not they fail: it ends as its rounds do, or settles once nothing is due
any more.  Each timer that fires is one call of the export for callbacks on record, with the
microtasks after it. -/
theorem timers_dispatched_exactly_once {γ : Type} {c : Code γ} (hc : c.Sandboxed)
    (depth budget instant : ℕ) {calls : List TimerCall} {w : World γ}
    (hw : w.session.timers = TimerQueue.empty.after calls)
    (hcount : (lives (TimerQueue.empty.moments calls)).length < 2 ^ 31 - 1)
    (hno : ∀ m ∈ TimerQueue.empty.moments calls, m.overflows = false) :
    ((lives (TimerQueue.empty.moments calls)).map (·.timer.handle)).Nodup ∧
    (∀ e ∈ lives (TimerQueue.empty.moments calls),
      e.Exact (TimerQueue.empty.moments calls) w.session.timers) ∧
    (∃ rounds ending rest w₁, Fires (c.machine depth) instant budget w rounds ending w₁ ∧
      (final (pump (c.machine depth) budget instant) w).session.timers
        = TimerQueue.empty.after (calls ++ (rounds.flatMap (·.calls instant) ++ rest)) ∧
      (∀ e, ending.fault? = some e →
        pump (c.machine depth) budget instant w = .error e w₁ ∧ rest = ending.calls instant) ∧
      (ending.fault? = none → w₁.session.timers.nextDue? instant = none ∧
        pump (c.machine depth) budget instant w
          = (settle (c.machine depth) budget >>= fun _ => pure rounds.length) w₁) ∧
      (∀ n w', pump (c.machine depth) budget instant w = .ok n w' →
        n = rounds.length ∧ w₁.session.timers.nextDue? instant = none) ∧
      History.fired (fireHistory (c.machine depth) instant budget w)
        = rounds.map (·.timer.callback)) ∧
    Invoking (fireTimers (c.machine depth).recorded instant budget)
      (fireTimers (c.machine depth) instant budget)
      (fireHistory (c.machine depth) instant budget) ∧
    ∀ s : Session, s.Reachable → ∃ calls, s.timers = TimerQueue.empty.after calls := by
  have htracked := tracked_after calls hcount hno
  have hm := hc.machine depth
  refine ⟨htracked.nodup, fun e he => ?_, ?_, hm.fireTimers_invoking instant budget,
    fun s hs => hs.exists_after⟩
  · rw [hw]
    exact (htracked.tracks e he).isExact he
  · obtain ⟨rounds, ending, w₁, hfires⟩ := exists_fires hm instant budget w
    obtain ⟨rest, hfinal, hrest⟩ := hfires.exists_rest hm
    rw [hw, ← TimerQueue.after_append] at hfinal
    refine ⟨rounds, ending, rest, w₁, hfires, hfinal, fun e he => ?_, fun hnone => ?_,
      fun n w' hok => ?_, fired_fireHistory_of_fires hfires⟩
    · exact ⟨hfires.pump_eq_error he, hrest (by simp [he])⟩
    · exact ⟨hfires.nextDue?_eq_none hnone, hfires.pump_eq hnone⟩
    · cases hend : ending.fault? with
      | some e => cases (hfires.pump_eq_error hend).symm.trans hok
      | none =>
        obtain ⟨_, w₂, -, hpure⟩ := exists_of_bind_ok ((hfires.pump_eq hend).symm.trans hok)
        cases hpure
        exact ⟨rfl, hfires.nextDue?_eq_none hend⟩

/-- An interval that fires once and a timeout that fires, both cancelled afterwards, and an
interval that is due from the third millisecond on. -/
def timerCalls : List TimerCall :=
  [.interval 0 (2 * millisecond) 7, .timeout 0 millisecond 8, .takeDue (2 * millisecond),
    .takeDue (2 * millisecond), .interval (2 * millisecond) 0 9, .cancel 1, .cancel 2]

/-- A session with these timers, whose callbacks all fail. -/
def timed : World Unit :=
  ⟨{ Session.new (.standard .default ⟨[]⟩ true) .none none with
      primary := some
        ⟨[("$invokeCallback", .func (.own 1 (.named "$invokeCallback") ⟨[.i32], []⟩))]⟩
      timers := TimerQueue.empty.after timerCalls }, ()⟩

theorem timers_dispatched_exactly_once_timed :
    (refusing.Sandboxed ∧ timed.session.timers = TimerQueue.empty.after timerCalls ∧
      (lives (TimerQueue.empty.moments timerCalls)).length < 2 ^ 31 - 1 ∧
      ∀ m ∈ TimerQueue.empty.moments timerCalls, m.overflows = false) ∧
    ((lives (TimerQueue.empty.moments timerCalls)).map (·.timer.handle)).Nodup ∧
    (∀ e ∈ lives (TimerQueue.empty.moments timerCalls),
      e.Exact (TimerQueue.empty.moments timerCalls) timed.session.timers) ∧
    (∃ rounds ending rest w₁,
      Fires (refusing.machine 1) (3 * millisecond) 2 timed rounds ending w₁ ∧
      ending.fault? = some (.text "no") ∧
      (final (pump (refusing.machine 1) 2 (3 * millisecond)) timed).session.timers
        = TimerQueue.empty.after
            (timerCalls ++ (rounds.flatMap (·.calls (3 * millisecond)) ++ rest)) ∧
      pump (refusing.machine 1) 2 (3 * millisecond) timed = .error (.text "no") w₁ ∧
      rest = ending.calls (3 * millisecond) ∧
      History.fired (fireHistory (refusing.machine 1) (3 * millisecond) 2 timed)
        = rounds.map (·.timer.callback)) ∧
    Invoking (fireTimers (refusing.machine 1).recorded (3 * millisecond) 2)
      (fireTimers (refusing.machine 1) (3 * millisecond) 2)
      (fireHistory (refusing.machine 1) (3 * millisecond) 2) := by
  have hcount : (lives (TimerQueue.empty.moments timerCalls)).length < 2 ^ 31 - 1 := by
    decide +kernel
  have hno : ∀ m ∈ TimerQueue.empty.moments timerCalls, m.overflows = false := by decide +kernel
  have hfails : fault? (fireTimers (refusing.machine 1) (3 * millisecond) 2) timed
      = some (.text "no") := by decide +kernel
  obtain ⟨hnodup, hexact, ⟨rounds, ending, rest, w₁, hfires, hfinal, hfailed, -, -, hcallbacks⟩,
    hinvoking, -⟩ :=
    timers_dispatched_exactly_once refusing_sandboxed 1 2 (3 * millisecond) (w := timed) rfl
      hcount hno
  have hend : ending.fault? = some (.text "no") := by
    cases hend : ending.fault? with
    | none =>
      rw [fault?, hfires.eq_ok hend] at hfails
      cases hfails
    | some e =>
      rw [fault?, hfires.eq_error hend] at hfails
      exact hfails
  obtain ⟨hpump, hrest⟩ := hfailed _ hend
  exact ⟨⟨refusing_sandboxed, rfl, hcount, hno⟩, hnodup, hexact,
    ⟨rounds, ending, rest, w₁, hfires, hend, hfinal, hpump, hrest, hcallbacks⟩, hinvoking⟩

/-- The pump ends with the failure, and the interval whose callback failed is pending. -/
example : ((pump (refusing.machine 1) 2 (3 * millisecond) timed matches .error (.text "no") _) ∧
    (final (pump (refusing.machine 1) 2 (3 * millisecond)) timed).session.timers.isPending 3) := by
  decide +kernel

end ModuleHost
