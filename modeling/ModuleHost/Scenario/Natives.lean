/-
Native functions that scenarios make.

The embedder supplies native functions as code of its own.  A scenario has a few of them, each
with a name by which the heap knows it.
-/
import ModuleHost.Scenario.Notebook

namespace ModuleHost

/-- A native function of a scenario. -/
inductive Native where
  /-- Returns its first argument, or undefined. -/
  | echo
  /-- Returns the number of its arguments. -/
  | count
  /-- Returns the sum of its arguments. -/
  | sum
  /-- Notes its arguments in the journal and returns null. -/
  | note
  /-- Fails with a cause. -/
  | fail
  /-- Fails as a conversion without a primary instance does. -/
  | unlinked
  deriving DecidableEq, Repr

/-- Sum of numbers, from the first on. -/
def sumNumbers : Double → List Value → Except ConversionError Double
  | total, [] => .ok total
  | total, v :: rest => do sumNumbers (total.add (← v.expectNumber)) rest

namespace Native

/-- Name of the code. -/
def name : Native → String
  | echo => "echo"
  | count => "count"
  | sum => "sum"
  | note => "log"
  | fail => "fail"
  | unlinked => "marshal"

/-- All of them. -/
def all : List Native := [echo, count, sum, note, fail, unlinked]

/-- The one of a name. -/
def ofName? (name : String) : Option Native := all.find? (·.name = name)

/-- Run a native function; its result is borrowed. -/
def run : Native → List Value → ValueAct Notebook Value
  | .echo, args => return args.headD .undefined
  | .count, args => return .number (.ofNat args.length)
  | .sum, args =>
    match sumNumbers .zero args with
    | .ok total => return .number total
    | .error e => throw (.marshal e)
  | .note, args => do
    modify fun (h, n) =>
      (h, { n with journal := n.journal.push (.event (.native (args.map h.view))) })
    return .null
  | .fail, _ => throw (.failed ⟨"calling native", ["native failure"]⟩)
  | .unlinked, _ => throw (.marshal .notLinked)

end Native

/-- Run the native function with a number and take a handle on its result. -/
def runNative (id : Nat) (args : List Value) : ValueAct Notebook Value := do
  let code := ((← get).1.natives.get? id).map NativeFunction.code
  let result ← ((code.bind Native.ofName?).getD .echo).run args
  modify fun (h, n) => (h.retain result, n)
  return result

end ModuleHost
