/-
What is left when a drive returns.

Settling runs microtasks until none is queued, then tells the module about releases, and then makes
the cleanup calls that are due; it does not go back to the microtasks.  So when the entry point or a
pump returns, the queue holds what the releases and cleanup calls of that drive have queued, and
nothing else.  A pump has fired all timers that were due before it settles, so what is due when it
returns has been asked for while it settled.

* `Settles` — the worlds between the stages of settling;
* `Settles.queued`, `Settles.firesNone` — what has been queued, and that no timer has fired since;
* `nextDue?_of_fire_ok` — nothing is due when firing returns, by induction on the budget;
* `returned_quiescent_iff` — exactly when nothing is left;
* `pestering` — a module that leaves something behind in each of these ways.
-/
import Mathlib
import ModuleHost.Proofs.Session.Microtasks

namespace ModuleHost

open Act

variable {γ α : Type} {m : Machine γ} {budget instant : ℕ} {w w' drained released : World γ}

/-! ### Nothing is due -/

/-- When firing due timers returns, none is due. -/
theorem nextDue?_of_fire_ok {n : ℕ} (hok : fireTimers m instant budget w = .ok n w') :
    w'.session.timers.nextDue? instant = none := by
  induction budget generalizing w n with
  | zero => cases hok
  | succ budget ih =>
    obtain ⟨hnone, htaken⟩ | ⟨t, out⟩ | ⟨-, hoverflow⟩ := takeDue_cases instant w
    · cases (bind_of_ok htaken _).symm.trans hok
      exact hnone
    · rw [fireTimers_of_handsOut out] at hok
      obtain ⟨_, w₁, -, hrest⟩ := exists_of_bind_ok hok
      rw [map_eq_pure_bind] at hrest
      obtain ⟨k, w₂, hfire, hpure⟩ := exists_of_bind_ok hrest
      cases hpure
      exact ih hfire
    · cases (bind_of_error hoverflow _).symm.trans hok

/-! ### Firing none -/

namespace Session

/-- Calls that fire no timer lead from the timers of one session to those of the other. -/
def FiresNone (s s' : Session) : Prop := TimerQueue.Via TimerCall.FiresNone s.timers s'.timers

instance : IsPreorder Session FiresNone where
  refl _ := TimerQueue.Via.refl
  trans _ _ _ := TimerQueue.Via.trans

end Session

theorem Act.Asking.firesNone {x : Act γ α} (hx : Asking x) : Along Session.FiresNone x :=
  fun w => (hx w).mono fun _ hc => hc.firesNone

theorem firesNone_takeMicrotask : Along Session.FiresNone (takeMicrotask : Act γ (Option Int32)) :=
  fun _ => .single (c := .takeMicrotask) trivial

theorem firesNone_drain (hm : m.Asking) (budget : ℕ) :
    Along Session.FiresNone (drainMicrotasks m budget) := by
  induction budget with
  | zero => exact .throw _
  | succ budget ih =>
    refine .bind firesNone_takeMicrotask fun callback => ?_
    cases callback with
    | none => exact .pure _
    | some callback =>
      exact .bind (hm.runCallback callback).firesNone fun _ => .bind ih fun _ => .pure _

/-! ### Settling -/

/-- Settling in its stages: microtasks, releases, cleanup calls. -/
structure Settles (m : Machine γ) (budget : ℕ) (w drained released w' : World γ) : Prop where
  drain : ∃ n, drainMicrotasks m budget w = .ok n drained
  release : ∃ n, announceOrphans m drained = .ok n released
  cleanup : ∃ n, runCleanups m released = .ok n w'

theorem exists_settles (hok : settle m budget w = .ok ⟨⟩ w') :
    ∃ drained released, Settles m budget w drained released w' := by
  obtain ⟨n, drained, hdrain, hrest⟩ := exists_of_bind_ok hok
  obtain ⟨k, released, hrelease, hrest⟩ := exists_of_bind_ok hrest
  obtain ⟨l, w₁, hcleanup, hpure⟩ := exists_of_bind_ok hrest
  cases hpure
  exact ⟨drained, released, ⟨n, hdrain⟩, ⟨k, hrelease⟩, ⟨l, hcleanup⟩⟩

/-- What is queued in the end has been queued by releases and cleanup calls. -/
theorem Settles.queued (hm : m.Asking) (h : Settles m budget w drained released w') :
    w'.queued = queues (announceOrphans m) drained ++ queues (runCleanups m) released := by
  obtain ⟨⟨n, hdrain⟩, ⟨k, hrelease⟩, ⟨l, hcleanup⟩⟩ := h
  rw [(Patient.runCleanups.asking hm).queued_of_ok hcleanup,
    (Patient.announceOrphans.asking hm).queued_of_ok hrelease, (drained_of_ok hdrain).1,
    List.nil_append]

theorem Settles.queued_eq_nil_iff (hm : m.Asking) (h : Settles m budget w drained released w') :
    w'.queued = [] ↔
      queues (announceOrphans m) drained = [] ∧ queues (runCleanups m) released = [] := by
  rw [h.queued hm, List.append_eq_nil_iff]

/-- No timer fires. -/
theorem Settles.firesNone (hm : m.Asking) (h : Settles m budget w drained released w') :
    w.session.FiresNone w'.session := by
  obtain ⟨⟨n, hdrain⟩, ⟨k, hrelease⟩, ⟨l, hcleanup⟩⟩ := h
  refine trans_of Session.FiresNone ((firesNone_drain hm budget).of_ok hdrain) ?_
  exact trans_of Session.FiresNone
    ((Patient.announceOrphans.asking hm).firesNone.of_ok hrelease)
    ((Patient.runCleanups.asking hm).firesNone.of_ok hcleanup)

/-! ### What is left -/

/-- Nothing is due in the end exactly if nothing that was asked for in the meantime is. -/
theorem TimerQueue.nextDue?_after_eq_none_iff {q : TimerQueue} {calls : List TimerCall}
    (hq : q.nextDue? instant = none) (hcalls : ∀ c ∈ calls, c.FiresNone) :
    (q.after calls).nextDue? instant = none ↔
      ∀ moment ∈ q.moments calls, ∀ t, moment.made? = some t → t ∈ (q.after calls).timers →
        instant < t.due := by
  rw [nextDue?_eq_none_iff] at hq ⊢
  constructor
  · exact fun h moment _ t _ ht => h t ht
  · intro h t ht
    obtain hbefore | ⟨moment, hmoment, hmade⟩ := mem_timers_after hcalls ht
    · exact hq t hbefore
    · exact h moment hmoment t hmade ht

/-- When the entry point returns, no microtask is queued exactly if the releases and cleanup calls
it has delivered have queued none.  The same holds when a pump returns; and no timer is due then
exactly if none that was made while the pump settled, and is still pending, is due. -/
theorem returned_quiescent_iff {c : Code γ} (hc : c.Asking) (depth budget : ℕ) (w w' : World γ) :
    (∀ args, runMain (c.machine depth) budget args w = .ok ⟨⟩ w' →
      ∃ results entered drained released,
        enterMain (c.machine depth) args w = .ok results entered ∧
        Settles (c.machine depth) budget entered drained released w' ∧
        (w'.queued = [] ↔ queues (announceOrphans (c.machine depth)) drained = [] ∧
          queues (runCleanups (c.machine depth)) released = [])) ∧
    ∀ instant n, pump (c.machine depth) budget instant w = .ok n w' →
      ∃ fired drained released late,
        fireTimers (c.machine depth) instant budget w = .ok n fired ∧
        Settles (c.machine depth) budget fired drained released w' ∧
        (w'.queued = [] ↔ queues (announceOrphans (c.machine depth)) drained = [] ∧
          queues (runCleanups (c.machine depth)) released = []) ∧
        (∀ call ∈ late, call.FiresNone) ∧ w'.session.timers = fired.session.timers.after late ∧
        (w'.session.timers.nextDue? instant = none ↔
          ∀ moment ∈ fired.session.timers.moments late, ∀ t, moment.made? = some t →
            t ∈ w'.session.timers.timers → instant < t.due) := by
  have hm := hc.machine depth
  constructor
  · intro args hok
    rw [runMain_eq] at hok
    obtain ⟨results, entered, henter, hsettle⟩ := exists_of_bind_ok hok
    obtain ⟨drained, released, hstages⟩ := exists_settles hsettle
    exact ⟨results, entered, drained, released, henter, hstages, hstages.queued_eq_nil_iff hm⟩
  · intro instant n hok
    obtain ⟨k, fired, hfire, hrest⟩ := exists_of_bind_ok hok
    obtain ⟨_, w₁, hsettle, hpure⟩ := exists_of_bind_ok hrest
    cases hpure
    obtain ⟨drained, released, hstages⟩ := exists_settles hsettle
    obtain ⟨late, hlate, htimers⟩ := hstages.firesNone hm
    refine ⟨fired, drained, released, late, hfire, hstages, hstages.queued_eq_nil_iff hm, hlate,
      htimers, ?_⟩
    -- nothing was due when firing ended, and no timer has fired since
    rw [htimers]
    exact TimerQueue.nextDue?_after_eq_none_iff (nextDue?_of_fire_ok hfire) hlate

/-- A module that queues a microtask and asks for a timeout when it hears of a closure. -/
def pestering : Code Unit := releaseCode fun m _ => do
  let _ ← m.call (.host .queueMicrotask) [.i32 5]
  let _ ← m.call (.host .setTimeout) [.i32 6, .f64 .zero]

theorem pestering_asking : pestering.Asking :=
  releaseCode_asking fun _ hm _ =>
    Asking.bind (hm.call _ _) fun _ => Asking.bind (hm.call _ _) fun _ => .pure _

theorem pestering_sandboxed : pestering.Sandboxed :=
  releaseCode_sandboxed fun _ hm _ =>
    (hm.call _ _).bind fun _ => (hm.call _ _).bind fun _ => .pure _

/-- The exports of the module. -/
def pesteringExports : Instance :=
  ⟨[("$invokeMain", .func (.own 1 (.named "$invokeMain") ⟨[.externref], []⟩)),
    ("$releaseClosure", .func releaseFunc)]⟩

/-- A session in which closure 1 has been wrapped and the wrapper dropped. -/
def oneOrphan : World Unit :=
  final (do
    modifySession fun s => { s with
      primary := some pesteringExports
      memory := none
      deferred := { s.deferred with linker := some .empty } }
    let f ← onHeap (·.wrap .session ⟨1, 0⟩)
    modifyHeap (·.releaseAll [.function f]) : Act Unit Unit)
    ⟨.new (.standard .default ⟨[]⟩ true) .none none, ()⟩

theorem oneOrphan_reachable : oneOrphan.session.Reachable := by
  refine ⟨_, _, _, Evolving.bind (.modifySession fun _ => ?_) (fun _ => ?_) ⟨_, ()⟩⟩
  · exact (Session.Change.linked pesteringExports .empty).evolves
  · exact (Evolving.onHeap fun _ => (Heap.Change.wrapped .session _).evolves).bind fun _ =>
      .modifyHeap fun _ => .releaseAll _

/-- The world after the entry point has been called. -/
def entered : World Unit := final (runMain (pestering.machine 2) 1 []) oneOrphan

/-- The world after a pump. -/
def pumped : World Unit := final (pump (pestering.machine 2) 1 millisecond) oneOrphan

theorem runMain_pestering : runMain (pestering.machine 2) 1 [] oneOrphan = .ok ⟨⟩ entered := by
  have hok : fault? (runMain (pestering.machine 2) 1 []) oneOrphan = none := by decide +kernel
  obtain ⟨⟨⟩, hok⟩ := exists_eq_ok_of_fault? hok
  exact hok

theorem exists_pump_pestering :
    ∃ n, pump (pestering.machine 2) 1 millisecond oneOrphan = .ok n pumped := by
  have hok : fault? (pump (pestering.machine 2) 1 millisecond) oneOrphan = none := by decide +kernel
  exact exists_eq_ok_of_fault? hok

/-- The entry point returns with the microtask that the release of closure 1 has queued, and a pump
returns with the timeout that it has asked for. -/
theorem returned_quiescent_iff_pestering :
    (pestering.Asking ∧ runMain (pestering.machine 2) 1 [] oneOrphan = .ok ⟨⟩ entered ∧
      entered.queued = [5]) ∧
    (∃ results called drained released,
      enterMain (pestering.machine 2) [] oneOrphan = .ok results called ∧
      Settles (pestering.machine 2) 1 called drained released entered ∧
      (entered.queued = [] ↔ queues (announceOrphans (pestering.machine 2)) drained = [] ∧
        queues (runCleanups (pestering.machine 2)) released = [])) ∧
    ∃ n fired late, pump (pestering.machine 2) 1 millisecond oneOrphan = .ok n pumped ∧
      fireTimers (pestering.machine 2) millisecond 1 oneOrphan = .ok n fired ∧
      pumped.session.timers = fired.session.timers.after late ∧
      (pumped.session.timers.nextDue? millisecond = none ↔
        ∀ moment ∈ fired.session.timers.moments late, ∀ t, moment.made? = some t →
          t ∈ pumped.session.timers.timers → millisecond < t.due) := by
  obtain ⟨n, hpump⟩ := exists_pump_pestering
  obtain ⟨fired, -, -, late, hfire, -, -, -, htimers, hdue⟩ :=
    (returned_quiescent_iff pestering_asking 2 1 oneOrphan pumped).2 millisecond n hpump
  exact ⟨⟨pestering_asking, runMain_pestering, by decide +kernel⟩,
    (returned_quiescent_iff pestering_asking 2 1 oneOrphan entered).1 [] runMain_pestering,
    n, fired, late, hpump, hfire, htimers, hdue⟩

/-- Microtasks are queued when the entry point and when a pump have returned, and a timer is due
when a pump has. -/
theorem returned_with_work_left :
    (¬ ∀ (code : Code Unit) (depth budget : ℕ) (args : List Value) (w w' : World Unit),
      code.Asking → code.Sandboxed → w.session.Reachable →
      runMain (code.machine depth) budget args w = .ok ⟨⟩ w' → w'.queued = []) ∧
    (¬ ∀ (code : Code Unit) (depth budget instant n : ℕ) (w w' : World Unit),
      code.Asking → code.Sandboxed → w.session.Reachable →
      pump (code.machine depth) budget instant w = .ok n w' → w'.queued = []) ∧
    ¬ ∀ (code : Code Unit) (depth budget instant n : ℕ) (w w' : World Unit),
      code.Asking → code.Sandboxed → w.session.Reachable →
      pump (code.machine depth) budget instant w = .ok n w' →
      w'.session.timers.nextDue? instant = none := by
  obtain ⟨n, hpump⟩ := exists_pump_pestering
  refine ⟨fun h => ?_, fun h => ?_, fun h => ?_⟩
  · have hnone := h pestering 2 1 [] oneOrphan entered pestering_asking pestering_sandboxed
      oneOrphan_reachable runMain_pestering
    exact absurd hnone (by decide +kernel)
  · have hnone := h pestering 2 1 millisecond n oneOrphan pumped pestering_asking
      pestering_sandboxed oneOrphan_reachable hpump
    exact absurd hnone (by decide +kernel)
  · have hnone := h pestering 2 1 millisecond n oneOrphan pumped pestering_asking
      pestering_sandboxed oneOrphan_reachable hpump
    exact absurd hnone (by decide +kernel)

end ModuleHost
