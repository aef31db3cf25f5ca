/-
Steps on finalization registries, timer queues and the fixed tables of the host.

The timer queue of these steps belongs to the scenario and not to a session; its times are
what the steps say.
-/
import ModuleHost.Scenario.ValueSteps

namespace ModuleHost

open Act Play

/-! ### Finalization registries -/

/-- A step on finalization registries. -/
inductive RegistryStep where
  | new (cleanup : Literal)
  | register (on target held : Literal) (token : Option Literal)
  | unregister (on token : Literal)
  | collect (on : Literal)

/-- The identity of a registry literal. -/
def registryOf (l : Literal) : Play Nat := do orFail (← l.eval).expectRegistry

/-- Number of cells of a registry. -/
def cellCount (id : Nat) : Play Nat := return ((← heap).watchCells id).length

/-- Run a step on finalization registries. -/
def RegistryStep.run : RegistryStep → Play Product
  | .new cleanup => do
    let f ← functionOf cleanup
    freshProduct (.registry (← onHeap (·.newRegistry f)))
  | .register on target held token => do
    let id ← registryOf on
    let target ← target.eval
    let held ← held.eval
    let token ← token.mapM Literal.eval
    tryChange fun h => h.register id target held token
    return .output (.nat (← cellCount id))
  | .unregister on token => do
    let id ← registryOf on
    let token ← token.eval
    let any ← tryHeap fun h => h.unregister id token
    return .output (.list [.truth any, .nat (← cellCount id)])
  | .collect on => do
    let id ← registryOf on
    let held ← onHeap fun h => h.collect id
    held.forM hand
    let h ← heap
    let n ← cellCount id
    let wrapper := ((h.cleanup? id).map FunctionRef.isWrapper).getD false
    return .output <| .list [.list (held.map fun v => .view (h.view v)), .nat n, .truth (n = 0),
      .truth wrapper]

/-! ### Timer queues -/

/-- A step on the timer queue of the scenario; times are nanoseconds. -/
inductive TimerStep where
  | timeout (now delay : Nat) (callback : Int32)
  | interval (now period : Nat) (callback : Int32)
  | cancel (handle : Int32)
  | pop (now : Nat)
  | microtask (callback : Int32)
  | takeMicrotask
  | info

/-- Replace the timer queue of the scenario. -/
def setQueue (q : TimerQueue) : Play Unit := modifyNotebook fun n => { n with queue := q }

/-- A scheduled timer, or giving up when its instant cannot be formed. -/
def scheduled (r : Option (Int32 × TimerQueue)) : Play Product := do
  match r with
  | none => throw .panic
  | some (handle, q) =>
    setQueue q
    return .output (.int32 handle)

/-- A callback, if there is one. -/
def callbackOutput (callback : Option Int32) : Product :=
  .output (.optional (callback.map .int32))

/-- Run a step on the timer queue. -/
def TimerStep.run (s : TimerStep) : Play Product := do
  let q := (← notebook).queue
  match s with
  | .timeout now delay callback => scheduled (q.addTimeout? now delay callback)
  | .interval now period callback => scheduled (q.addInterval? now period callback)
  | .cancel handle =>
    setQueue (q.cancel handle)
    return .output (.truth (q.isPending handle))
  | .pop now =>
    let (popped, q) := q.takeDue now
    setQueue q
    match popped with
    | .nothing => return callbackOutput none
    | .fired callback => return callbackOutput (some callback)
    | .overflow => throw .panic
  | .microtask callback =>
    setQueue (q.addMicrotask callback)
    return noProduct
  | .takeMicrotask =>
    let (callback, q) := q.takeMicrotask
    setQueue q
    return callbackOutput callback
  | .info =>
    return .output <| .record [("pending", .nat q.timers.length),
      ("next_due", .optional (q.firstDue?.map .nat)), ("microtasks", .nat q.microtasks.length)]

/-! ### Fixed tables -/

/-- A step on what is fixed: load states, the host table, error texts. -/
inductive TableStep where
  | canAdvance (before after : LoadState)
  | isTerminal (state : LoadState)
  | hostImport (name : String)
  | hostTable
  | error (e : EmbedderError)

/-- Run a step on fixed tables. -/
def TableStep.run : TableStep → Output
  | .canAdvance before after => .truth (before.canAdvance after)
  | .isTerminal state => .truth state.isTerminal
  | .hostImport name =>
    .optional <| (HostFunc.ofName? name).map fun i =>
      .list [.word i.title, .word i.name, .nat i.arity]
  | .hostTable => .list (HostFunc.all.map fun i => .list [.word i.name, .nat i.arity])
  | .error e => .record [("display", .word e.message), ("sources", .words e.causes)]

end ModuleHost
