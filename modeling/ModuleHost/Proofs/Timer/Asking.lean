/-
What module code can ask of the timers.

Module code makes timers, cancels them and queues microtasks.  It takes nothing out of the queue:
that is done by whoever drives the session.  `q.Asks q'` says that a queue has come of another one
by requests of that kind.

* `TimerCall.IsRequest`, `TimerQueue.Asks` — the requests, and what comes of them;
* `microtasks_after` — requests leave the microtasks that are queued where they are and put
  theirs behind them, in the order in which they were made;
* `mem_timers_after` — what is pending after calls that fire no timer was pending before or was
  made by them.
-/
import Mathlib
import ModuleHost.Proofs.Timer.Runs

namespace ModuleHost

namespace TimerCall

/-- Whether nothing is taken out of the queue. -/
def IsRequest : TimerCall → Prop
  | .takeDue _ | .takeMicrotask => False
  | _ => True

/-- Whether no timer is taken out of the queue because it is due. -/
def FiresNone : TimerCall → Prop
  | .takeDue _ => False
  | _ => True

theorem IsRequest.firesNone {c : TimerCall} (hc : c.IsRequest) : c.FiresNone := by
  cases c with
  | takeDue now => exact hc.elim
  | _ => trivial

/-- The microtask that is queued. -/
def microtask? : TimerCall → Option Int32
  | .addMicrotask callback => some callback
  | _ => none

/-- The microtasks that are queued by calls. -/
def microtasks (calls : List TimerCall) : List Int32 := calls.filterMap microtask?

end TimerCall

namespace TimerQueue

variable {q q' q'' : TimerQueue} {c : TimerCall} {calls : List TimerCall} {t : Timer}

/-- Calls of a kind lead from one queue to the other. -/
def Via (P : TimerCall → Prop) (q q' : TimerQueue) : Prop :=
  ∃ calls : List TimerCall, (∀ c ∈ calls, P c) ∧ q' = q.after calls

section Via

variable {P P' : TimerCall → Prop}

theorem Via.refl : Via P q q := ⟨[], by simp, rfl⟩

theorem Via.single (hc : P c) : Via P q (q.act c) := ⟨[c], by simpa using hc, rfl⟩

theorem Via.trans (h : Via P q q') (h' : Via P q' q'') : Via P q q'' := by
  obtain ⟨calls, hcalls, rfl⟩ := h
  obtain ⟨calls', hcalls', rfl⟩ := h'
  refine ⟨calls ++ calls', fun c hc => ?_, (after_append q calls calls').symm⟩
  exact (List.mem_append.mp hc).elim (hcalls c) (hcalls' c)

theorem Via.mono (hP : ∀ c, P c → P' c) (h : Via P q q') : Via P' q q' := by
  obtain ⟨calls, hcalls, hafter⟩ := h
  exact ⟨calls, fun c hc => hP c (hcalls c hc), hafter⟩

end Via

/-- Requests lead from one queue to the other. -/
def Asks : TimerQueue → TimerQueue → Prop := Via TimerCall.IsRequest

theorem Asks.refl : q.Asks q := Via.refl

theorem Asks.single (hc : c.IsRequest) : q.Asks (q.act c) := Via.single hc

theorem Asks.trans (h : q.Asks q') (h' : q'.Asks q'') : q.Asks q'' := Via.trans h h'

theorem Asks.timeout {now delay : ℕ} {callback : Int32} {r : Int32 × TimerQueue}
    (added : q.addTimeout? now delay callback = some r) : q.Asks r.2 :=
  ⟨[.timeout now delay callback], by simp [TimerCall.IsRequest], by simp [after, act, added]⟩

theorem Asks.interval {now period : ℕ} {callback : Int32} {r : Int32 × TimerQueue}
    (added : q.addInterval? now period callback = some r) : q.Asks r.2 :=
  ⟨[.interval now period callback], by simp [TimerCall.IsRequest], by simp [after, act, added]⟩

/-! ### One request -/

theorem microtasks_act (hc : c.IsRequest) :
    (q.act c).microtasks = q.microtasks ++ c.microtask?.toList := by
  cases c with
  | timeout now delay callback =>
    cases hadd : q.addTimeout? now delay callback with
    | none => simp [act, hadd, TimerCall.microtask?]
    | some r =>
      obtain ⟨due, -, rfl⟩ := Option.map_eq_some_iff.mp hadd
      simp [act, hadd, TimerCall.microtask?, schedule]
  | interval now period callback =>
    cases hadd : q.addInterval? now period callback with
    | none => simp [act, hadd, TimerCall.microtask?]
    | some r =>
      obtain ⟨due, -, rfl⟩ := Option.map_eq_some_iff.mp hadd
      simp [act, hadd, TimerCall.microtask?, schedule]
  | cancel handle => simp [act, cancel, TimerCall.microtask?]
  | addMicrotask callback => rfl
  | takeDue now => exact hc.elim
  | takeMicrotask => exact hc.elim

theorem mem_timers_act (hc : c.FiresNone) (ht : t ∈ (q.act c).timers) :
    t ∈ q.timers ∨ (TimerMoment.mk q c).made? = some t := by
  obtain ⟨u, hmade, hhandle, hact⟩ | ⟨-, ⟨handle, rfl⟩ | ⟨now, rfl⟩ | ⟨htimers, -⟩⟩ := q.act_cases c
  · rw [hact] at ht
    obtain rfl | ht := mem_of_mem_insert ht
    · refine .inr (hmade.trans (congrArg some ?_))
      rw [← hhandle]
    · exact .inl ht
  · exact .inl (List.mem_of_mem_filter ht)
  · exact hc.elim
  · exact .inl (htimers ▸ ht)

/-! ### Requests -/

/-- Requests leave the microtasks that are queued where they are, and put theirs behind them. -/
theorem microtasks_after (hcalls : ∀ c ∈ calls, c.IsRequest) :
    (q.after calls).microtasks = q.microtasks ++ TimerCall.microtasks calls := by
  induction calls generalizing q with
  | nil => simp [after, TimerCall.microtasks]
  | cons c rest ih =>
    have hrest := ih (q := q.act c) fun c' hc' => hcalls c' (List.mem_cons_of_mem _ hc')
    rw [show q.after (c :: rest) = (q.act c).after rest from rfl, hrest,
      microtasks_act (hcalls c List.mem_cons_self), List.append_assoc]
    cases hm : c.microtask? <;> simp [TimerCall.microtasks, hm]

/-- What is pending after calls that fire no timer was pending before them, or one of them has made
it. -/
theorem mem_timers_after (hcalls : ∀ c ∈ calls, c.FiresNone) (ht : t ∈ (q.after calls).timers) :
    t ∈ q.timers ∨ ∃ m ∈ q.moments calls, m.made? = some t := by
  induction calls generalizing q with
  | nil => exact .inl ht
  | cons c rest ih =>
    have hrest := ih (q := q.act c) (fun c' hc' => hcalls c' (List.mem_cons_of_mem _ hc')) ht
    obtain hbefore | ⟨m, hm, hmade⟩ := hrest
    · obtain hbefore | hmade := mem_timers_act (hcalls c List.mem_cons_self) hbefore
      · exact .inl hbefore
      · exact .inr ⟨⟨q, c⟩, List.mem_cons_self, hmade⟩
    · exact .inr ⟨m, List.mem_cons_of_mem _ hm, hmade⟩

theorem Asks.prefix_microtasks (h : q.Asks q') : q.microtasks <+: q'.microtasks := by
  obtain ⟨calls, hcalls, rfl⟩ := h
  exact ⟨_, (microtasks_after hcalls).symm⟩

end TimerQueue

end ModuleHost
