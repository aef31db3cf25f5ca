/-
Module code takes nothing out of the queue of timers.

Module code and supplied functions work on the timers through the functions of the host table that
they call, and native functions do not reach them at all.  `Code.Asking` says so of the former,
given a machine to call; by induction on the depth of calls the machine of such code only asks, and
so does everything that runs through it: exports, function values, releases, cleanup calls and
deferred loading.

* `Code.Asking.machine` — the machine of such code only asks;
* `Act.queues` — the microtasks that a computation queues;
* `Act.Asking.queued_final`, `.exists_calls` — they come to stand behind those that are queued,
  and they are those of the requests that the computation makes.
-/
import Mathlib
import ModuleHost.Proofs.Session.Machine

namespace ModuleHost

open Act

variable {γ α β : Type} {m : Machine γ}

/-! ### Deferred loading -/

namespace Machine.Asking

theorem linkPrimary (hm : m.Asking) (d : Description) (supplied : List Supplied) :
    Act.Asking (linkPrimary m d supplied) :=
  .bind .session fun _ => .bind ((Patient.makeInstance _ d).asking hm) fun _ =>
    .modifySession fun _ => .refl rfl

theorem askLoader (hm : m.Asking) (name : String) : Act.Asking (askLoader m name) := by
  refine .bind .session fun s => ?_
  dsimp only
  split
  · exact .pure _
  · refine .bind (.modifySession fun _ => .refl rfl) fun _ => ?_
    split
    · exact .bind (hm.note _) fun _ => .pure _
    · exact .bind (hm.note _) fun _ => .pure _

theorem compileAndKeep (name : String) (c : Capabilities) (source : Except LoadError Source) :
    Act.Asking (compileAndKeep name c source : Act γ (Except LoadError Description)) := by
  cases source with
  | error e => exact .pure _
  | ok source =>
    refine .bind .session fun s => ?_
    split
    · exact .pure _
    · exact .bind (.modifySession fun _ => .refl rfl) fun _ => .pure _

theorem obtainModule (hm : m.Asking) (name : String) (c : Capabilities) :
    Act.Asking (obtainModule m name c) := by
  refine .bind .session fun s => ?_
  split
  · exact .pure _
  · exact .bind (hm.askLoader name) fun source => compileAndKeep name c source

theorem linkModule (hm : m.Asking) (module : Description) : Act.Asking (linkModule m module) := by
  refine .bind .session fun s => ?_
  cases s.deferred.linker with
  | none => exact .pure _
  | some linker =>
    exact .bind ((Patient.makeInstance linker module).asking hm).attempt fun _ => .pure _

theorem load (hm : m.Asking) (name : String) : Act.Asking (load m name) := by
  rw [load_eq]
  refine .bind .session fun s => .bind ?_ fun outcome =>
    .bind (.modifySession fun _ => .refl rfl) fun _ => .pure _
  refine .bind (hm.obtainModule name _) fun obtained => ?_
  cases obtained with
  | error e => exact .pure _
  | ok module => exact hm.linkModule module

theorem loadModule (hm : m.Asking) (name : Reference) : Act.Asking (loadModule m name) := by
  refine .bind ((Patient.arg name).asking hm) fun _ =>
    .bind ((Patient.orFail _).asking hm) fun _ => .bind (hm.load _) fun outcome => ?_
  cases outcome with
  | ok i =>
    exact ((Patient.onHeap fun _ => (Heap.Change.newModule _).evolves).bind
      fun _ => .give _).asking hm
  | error e =>
    exact ((Patient.onHeap fun _ => (Heap.Change.newError _).evolves).bind
      fun _ => .give _).asking hm

end Machine.Asking

/-! ### Code -/

/-- Code takes nothing out of the queue of timers if the machine that it calls does not. -/
structure Code.Asking (c : Code γ) : Prop where
  own : ∀ m : Machine γ, m.Asking →
    ∀ number place args, Act.Asking (c.own m number place args)
  supplied : ∀ m : Machine γ, m.Asking → ∀ tag t args, Act.Asking (c.supplied m tag t args)
  note : ∀ e, Act.Asking (c.note e)

namespace Code.Asking

variable {c : Code γ}

theorem run (hc : c.Asking) (hm : m.Asking) (f : Func) (args : List Val) :
    Act.Asking (c.run m f args) := by
  cases f with
  | host i => exact (HostCall.patient_run i args).asking hm
  | builtin b => exact (b.patient_run args).asking hm
  | loadModule =>
    unfold Code.run
    split
    · contradiction
    · contradiction
    · exact .bind (hm.loadModule _) fun _ => .pure _
    · exact .throw _
    all_goals contradiction
  | supplied tag t => exact hc.supplied m hm tag t args
  | own number place t => exact hc.own m hm number place args
  | const n => exact (Patient.takeStack.bind fun _ => .pure _).asking hm
  | relay f => exact (Patient.takeStack.bind fun _ => .call f args).asking hm

/-- A native function has no queue of timers. -/
theorem runNative (c : Code γ) (id : ℕ) (args : List Value) : Act.Asking (c.runNative id args) := by
  intro w
  unfold final Code.runNative onValues
  cases c.native id args (w.session.heap, w.guest) with
  | ok a r => exact .refl rfl
  | error e r => exact .refl rfl

/-- The machine of such code only asks, by induction on the depth of calls. -/
theorem machine (hc : c.Asking) (depth : ℕ) : (c.machine depth).Asking := by
  induction depth with
  | zero => exact ⟨fun _ _ => .throw _, runNative c, hc.note⟩
  | succ depth ih => exact ⟨hc.run ih, runNative c, hc.note⟩

end Code.Asking

/-! ### What is queued -/

/-- The microtasks of a world that are queued, in order. -/
def World.queued (w : World γ) : List Int32 := w.session.timers.microtasks

namespace Act

/-- The microtasks that a computation queues: those behind the ones that were there. -/
def queues (x : Act γ α) (w : World γ) : List Int32 := (final x w).queued.drop w.queued.length

/-- A computation that only asks leaves the microtasks that are queued where they are. -/
theorem Asking.queued_final {x : Act γ α} (hx : Asking x) (w : World γ) :
    (final x w).queued = w.queued ++ queues x w := by
  obtain ⟨rest, hrest⟩ := (hx w).prefix_microtasks
  have hfinal : (final x w).queued = w.queued ++ rest := hrest.symm
  rw [queues, hfinal, List.drop_left]

theorem Asking.queued_of_ok {x : Act γ α} (hx : Asking x) {a : α} {w w' : World γ}
    (h : x w = .ok a w') : w'.queued = w.queued ++ queues x w := by
  have hfinal := hx.queued_final w
  rwa [show final x w = w' by rw [final, h]] at hfinal

/-- What it queues are the microtasks of the requests that it makes. -/
theorem Asking.exists_calls {x : Act γ α} (hx : Asking x) (w : World γ) :
    ∃ calls : List TimerCall, (∀ c ∈ calls, c.IsRequest) ∧
      (final x w).session.timers = w.session.timers.after calls ∧
      queues x w = TimerCall.microtasks calls := by
  obtain ⟨calls, hcalls, hafter⟩ := hx w
  refine ⟨calls, hcalls, hafter, ?_⟩
  have hfinal : (final x w).queued = w.queued ++ TimerCall.microtasks calls := by
    rw [World.queued, hafter, TimerQueue.microtasks_after hcalls]
    rfl
  rw [queues, hfinal, List.drop_left]

end Act

end ModuleHost
