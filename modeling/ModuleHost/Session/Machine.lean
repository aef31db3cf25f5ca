/-
The machine: what runs when a function is called.

Functions of the host table, string builtins and the loading import are the host's; what
the module's own functions do is up to its code, and so is what supplied and native functions
do.  `Code.machine` ties the knot between host and code: what a call runs may call again,
up to a depth at which the stack is exhausted.
-/
import ModuleHost.Session.HostCalls
import ModuleHost.Session.Load

namespace ModuleHost

open Act

/-- What is not the host's: calls from within go to the machine that is passed.  A native function
is called with values only; it has no session and no way back into the module. -/
structure Code (γ : Type) where
  /-- Run an own function of the instance with a number. -/
  own : Machine γ → Nat → Place → List Val → Act γ (List Val)
  /-- Run a function that the embedder supplied. -/
  supplied : Machine γ → String → FuncType → List Val → Act γ (List Val)
  /-- Run the native function with a number; the caller gets a handle on its result. -/
  native : Nat → List Value → ValueAct γ Value
  note : Event → Act γ Unit

namespace Code

variable {γ : Type}

/-- Run a function, calls from within going to the machine `m`. -/
def run (c : Code γ) (m : Machine γ) (f : Func) (args : List Val) : Act γ (List Val) :=
  match f, args with
  | .host i, args => HostCall.run m i args
  | .builtin b, args => b.run args
  | .loadModule, [.ref r] => return [.ref (← loadModule m r)]
  | .loadModule, _ => throw (.trap .signatureMismatch)
  | .supplied tag t, args => c.supplied m tag t args
  | .own number place _, args => c.own m number place args
  | .const n, _ => do
    takeStack
    return [.i32 n]
  | .relay f, args => do
    takeStack
    m.call f args

/-- Run a native function. -/
def runNative (c : Code γ) (id : Nat) (args : List Value) : Act γ Value :=
  onValues (c.native id args)

/-- The machine for calls nested at most `depth` deep. -/
def machine (c : Code γ) : (depth : Nat) → Machine γ
  | 0 => ⟨fun _ _ => throw (.trap .stackExhausted), c.runNative, c.note⟩
  | depth + 1 => ⟨c.run (machine c depth), c.runNative, c.note⟩

end Code

end ModuleHost
