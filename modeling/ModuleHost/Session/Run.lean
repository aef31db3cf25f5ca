/-
Driving a session.

The embedder starts the module at its entry point and from then on pumps it: due timers
fire, each followed by the microtasks it queued, and then released closures and cleanup
calls are delivered.

* `runMain`, `pump` and `drainMicrotasks` drive the module; each takes a budget
  of callbacks, and work beyond it is cut off;
* `callExport`, `callValue` and the copies of strings and typed arrays are what else
  the embedder can ask for.
-/
import ModuleHost.Session.HostCalls
import ModuleHost.Session.Load

namespace ModuleHost

open Act

variable {γ : Type}

/-! ### Microtasks and timers -/

/-- Take the first microtask out of the queue. -/
def takeMicrotask : Act γ (Option Int32) := do
  let (callback, timers) := (← session).timers.takeMicrotask
  modifySession fun s => { s with timers }
  return callback

/-- Run microtasks until none is queued and return their number. -/
def drainMicrotasks (m : Machine γ) : (budget : Nat) → Act γ Nat
  | 0 => throw .exhausted
  | budget + 1 => do
    match ← takeMicrotask with
    | none => return 0
    | some callback =>
      runCallback m callback
      return (← drainMicrotasks m budget) + 1

/-- Take the next due timer out of the queue; giving up when it cannot be put back. -/
def takeDue (instant : Nat) : Act γ (Option Int32) := do
  let (popped, timers) := (← session).timers.takeDue instant
  modifySession fun s => { s with timers }
  match popped with
  | .nothing => return none
  | .fired callback => return some callback
  | .overflow => throw .panic

/-- Fire due timers until none is left, each followed by microtasks; returns their number. -/
def fireTimers (m : Machine γ) (instant : Nat) : (budget : Nat) → Act γ Nat
  | 0 => throw .exhausted
  | budget + 1 => do
    match ← takeDue instant with
    | none => return 0
    | some callback =>
      runCallback m callback
      let _ ← drainMicrotasks m budget
      return (← fireTimers m instant budget) + 1

/-- What follows any callback: microtasks, releases, cleanup calls. -/
def settle (m : Machine γ) (budget : Nat) : Act γ Unit := do
  let _ ← drainMicrotasks m budget
  let _ ← announceOrphans m
  let _ ← runCleanups m

/-- Fire what is due at an instant, settle, and return the number of timers fired. -/
def pump (m : Machine γ) (budget instant : Nat) : Act γ Nat := do
  let fired ← fireTimers m instant budget
  settle m budget
  return fired

/-! ### Calls -/

/-- Name of the entry point. -/
def mainExport : String := "$invokeMain"

/-- Call the entry point with an array of values, and settle. -/
def runMain (m : Machine γ) (budget : Nat) (args : List Value) : Act γ Unit := do
  let main ← requireExport mainExport
  let packed := Value.array (← onHeap (·.newArray args))
  let _ ← holding [packed] (callAny m main [.ref (.ofValue packed)])
  settle m budget

/-- Call an export of the primary instance. -/
def callExport (m : Machine γ) (name : String) (args : List Val) : Act γ (List Val) := do
  callAny m (← requireExport name) args

/-- The newest linked instance of a deferred module. -/
def deferredInstance? (name : String) : Act γ (Option Instance) :=
  return (← session).deferred.newest? name

/-- A failure of a native function, whatever it is. -/
def nativeFailure (f : FunctionRef) (e : Fault) : Fault :=
  match f, e with
  | .native _, .marshal e => .failed (.of e.message)
  | _, e => e

/-- Call a function value for the embedder.  A native function that fails has failed as a
whole, also when a conversion was the cause. -/
def callValue (m : Machine γ) (f : FunctionRef) (args : List Value) : Act γ Value :=
  tryCatch (applyFunction m f args) fun e => throw (nativeFailure f e)

/-! ### Typed arrays -/

/-- Copy a typed array to the memory. -/
def writeTypedArray (v : TypedView) (address : Nat) : Act γ Unit :=
  sendElements v 0 v.length address

/-- Copy elements of the memory into a fresh typed array. -/
def readTypedArray (e : Element) (address length : Nat) : Act γ Value := do
  let v ← onHeap (·.newTypedArray e length)
  hand (.typedArray v)
  receiveElements v 0 length address
  return .typedArray v

end ModuleHost
