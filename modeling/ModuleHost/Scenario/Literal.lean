/-
Values as scenarios write them.

Evaluating a literal makes fresh payloads, in the order in which they are written.  The
running step has a handle on the value of a whole literal; what a literal is made of
is held only by the containers in it.
-/
import ModuleHost.Scenario.Natives
import ModuleHost.Session.Exchange

namespace ModuleHost

open Act Play

/-- A value as it is written. -/
inductive Literal where
  | undefined
  | null
  | bool (b : Bool)
  | number (x : Double)
  | text (s : Text)
  /-- The value of a variable. -/
  | named (name : String)
  /-- A text so many times over. -/
  | repeated (s : Text) (n : Nat)
  /-- The texts of several values, one after the other. -/
  | joined (items : List Literal)
  | array (items : List Literal)
  | object (props : List (Literal × Literal))
  | typedArray (e : Element) (numbers : List Double)
  | dataView (bytes : List UInt8)
  | buffer (bytes : List UInt8)
  | native (f : Native)
  | error (f : Failure)

/-- An argument as it is written. -/
inductive Operand where
  | i32 (n : Int32)
  | i64 (n : Int64)
  | f32 (x : Single)
  | f64 (x : Double)
  | ref (v : Literal)
  /-- A reference that carries no host value. -/
  | foreign

/-- A fresh value, handed to the running step. -/
def fresh (v : Value) : Play Value := do
  hand v
  return v

/-- A failed conversion ends the step. -/
def expectText (v : Value) : Play Text := orFail v.expectString

mutual

/-- The value of a literal. -/
def Literal.eval : Literal → Play Value
  | .undefined => return .undefined
  | .null => return .null
  | .bool b => return .bool b
  | .number x => return .number x
  | .text s => return .string s
  | .named name => do
    let v ← valueOf name
    lend v
    return v
  | .repeated s n => return .string ⟨(List.replicate n s.units).flatten⟩
  | .joined items => lending do
    let vs ← Literal.evalAll items
    let h ← heap
    return .string ⟨vs.flatMap fun v => (h.display v).units⟩
  | .array items => do
    let id ← lending do
      let vs ← Literal.evalAll items
      onHeap (·.newArray vs)
    fresh (.array id)
  | .object props => do
    let id ← onHeap Heap.newObject
    hand (.object id)
    lending (Literal.setAll id props)
    return .object id
  | .typedArray e numbers => do fresh (.typedArray (← onHeap (·.typedArrayOf e numbers)))
  | .dataView bytes => do fresh (.dataView (← onHeap (·.newDataView (.ofList bytes))))
  | .buffer bytes => do fresh (.buffer (← onHeap (·.newBuffer (.ofList bytes))))
  | .native f => do fresh (.function (.native (← onHeap (·.newNative ⟨f.name, []⟩))))
  | .error f => do fresh (.error (← onHeap (·.newError f)))

/-- The values of several literals. -/
def Literal.evalAll : List Literal → Play (List Value)
  | [] => return []
  | l :: rest => do
    let v ← l.eval
    return v :: (← Literal.evalAll rest)

/-- Set properties of an object. -/
def Literal.setAll (id : Nat) : List (Literal × Literal) → Play Unit
  | [] => pure ()
  | (k, l) :: rest => do
    let key ← expectText (← k.eval)
    let v ← l.eval
    modifyHeap (·.objectSet id key v)
    Literal.setAll id rest

end

namespace Operand

/-- The argument that an operand stands for. -/
def eval : Operand → Play Val
  | .i32 n => return .i32 n
  | .i64 n => return .i64 n
  | .f32 x => return .f32 x
  | .f64 x => return .f64 x
  | .ref l => return .ref (.ofValue (← l.eval))
  | .foreign => return .ref .foreign

end Operand

end ModuleHost
