/-
Steps on values, texts, containers and functions.

Each step evaluates its operands in the order in which they are written, checks them,
and answers with a value, which the scenario can store, or with another output.
-/
import ModuleHost.Scenario.Literal

namespace ModuleHost

open Act Play

/-- What a step gives. -/
inductive Product where
  /-- A value, which can be stored in a variable. -/
  | value (v : Value)
  /-- A value that need not have been there; it is shown in a list of its own. -/
  | found (v : Value)
  | output (o : Output)

/-- A value handed out by the heap, as the product of a step. -/
def freshProduct (v : Value) : Play Product := return .value (← fresh v)

/-- No product. -/
def noProduct : Product := .output .nothing

/-! ### Values -/

/-- A step on values. -/
inductive ValueStep where
  /-- The value itself. -/
  | value (v : Literal)
  /-- Kind, tag and truthiness. -/
  | info (v : Literal)
  /-- Strict equality. -/
  | equal (a b : Literal)
  /-- The text that a module sees. -/
  | display (v : Literal)
  /-- The diagnostic form. -/
  | describe (v : Literal)
  /-- The value after it has been handed to a module and back. -/
  | crossing (v : Literal)
  /-- Whether the value is of a kind. -/
  | require (v : Literal) (kind : Expected)
  /-- The kind of a tag. -/
  | tag (n : Int)

/-- Fails unless a value is what is expected. -/
def Value.require (v : Value) : Expected → Except ConversionError Unit
  | .string => v.expectString.map fun _ => ()
  | .number => v.expectNumber.map fun _ => ()
  | .boolean => v.expectBool.map fun _ => ()
  | .array => v.expectArray.map fun _ => ()
  | .typedArray => v.expectTypedArray.map fun _ => ()
  | .dataView => v.expectDataView.map fun _ => ()
  | .arrayBuffer => v.expectBuffer.map fun _ => ()
  | .bufferOrView => v.expectBufferOrView.map fun _ => ()
  | .function => v.expectFunction.map fun _ => ()
  | .object => v.expectObject.map fun _ => ()
  | .error => v.expectError.map fun _ => ()
  | .registry => v.expectRegistry.map fun _ => ()

/-- Properties of a kind. -/
def kindOutput (k : Kind) : Output := .word k.name

/-- Properties of an element type. -/
def elementOutput (e : Element) : Output :=
  .record [("name", .word e.name), ("width", .nat e.width), ("signed", .truth e.isSigned),
    ("float", .truth e.isFloat), ("tag", .nat e.tag)]

/-- Run a step on values. -/
def ValueStep.run : ValueStep → Play Product
  | .value v => return .value (← v.eval)
  | .info v => do
    let v ← v.eval
    return .output <| .record [("kind", kindOutput v.kind), ("tag", .nat v.kind.tag),
      ("truthy", .truth v.truthy), ("undefined", .truth (v = .undefined))]
  | .equal a b => do
    let a ← a.eval
    let b ← b.eval
    return .output (.truth (a.same b))
  | .display v => do
    let v ← v.eval
    return .output (.text ((← heap).display v))
  | .describe v => do
    let v ← v.eval
    return .output (.word ((← heap).describe v))
  | .crossing v => do
    let v ← v.eval
    return .value (← arg (.ofValue v))
  | .require v kind => do
    let v ← v.eval
    orFail (v.require kind)
    return .output (.word "ok")
  | .tag n =>
    return .output <| .record [("kind", .optional ((Kind.ofTag? n).map kindOutput)),
      ("elem", .optional ((Element.ofTag? n).map elementOutput))]

/-! ### Texts -/

/-- A step on texts. -/
inductive TextStep where
  | info (s : Literal)
  /-- The unit at a position. -/
  | unit (s : Literal) (i : Nat)
  | append (a b : Literal)
  | slice (s : Literal) (start stop : Nat)
  | compare (a b : Literal)
  /-- The text of one code unit. -/
  | ofUnit (u : UInt16)

/-- The word for an order. -/
def orderingWord : Ordering → String
  | .lt => "Less"
  | .eq => "Equal"
  | .gt => "Greater"

/-- The text of a literal. -/
def textOf (l : Literal) : Play Text := do expectText (← l.eval)

/-- Run a step on texts. -/
def TextStep.run : TextStep → Play Product
  | .info s => do
    let s ← textOf s
    return .output <| .record [("len", .nat s.length), ("empty", .truth s.isEmpty),
      ("lossy", .word s.toString), ("display", .word s.toString),
      ("width", .word (TextWidth.of s.units).name),
      ("units", .list (s.units.map fun u => .nat u.toNat))]
  | .unit s i => do
    let s ← textOf s
    return .output (.optional ((s.unit? i).map fun u => .nat u.toNat))
  | .append a b => do
    let a ← textOf a
    let b ← textOf b
    return .value (.string (a ++ b))
  | .slice s start stop => do
    let s ← textOf s
    return .value (.string (s.slice start stop))
  | .compare a b => do
    let a ← textOf a
    let b ← textOf b
    return .output (.list [.word (orderingWord (a.compare b)), .truth (a = b)])
  | .ofUnit u => return .value (.string (.singleton u))

/-! ### Arrays, objects and errors -/

/-- A step on containers. -/
inductive ContainerStep where
  | arrayLength (on : Literal)
  | arrayGet (on : Literal) (i : Nat)
  | arraySet (on : Literal) (i : Nat) (v : Literal)
  | arrayPush (on v : Literal)
  | objectGet (on key : Literal)
  | objectSet (on key v : Literal)
  | objectHas (on key : Literal)
  | objectDelete (on key : Literal)
  | objectKeys (on : Literal)
  | errorInfo (v : Literal)

/-- The identity of an array literal. -/
def arrayOf (l : Literal) : Play Nat := do orFail (← l.eval).expectArray

/-- The identity of an object literal. -/
def objectOf (l : Literal) : Play Nat := do orFail (← l.eval).expectObject

/-- Run a step on containers. -/
def ContainerStep.run : ContainerStep → Play Product
  | .arrayLength on => do
    let id ← arrayOf on
    let n := ((← heap).elements id).length
    return .output (.list [.nat n, .truth (n = 0)])
  | .arrayGet on i => do
    let id ← arrayOf on
    let v := (← heap).arrayGet id i
    lend v
    return .value v
  | .arraySet on i v => do
    let id ← arrayOf on
    let v ← v.eval
    modifyHeap (·.arraySet id i v)
    return noProduct
  | .arrayPush on v => do
    let id ← arrayOf on
    let v ← v.eval
    modifyHeap (·.arrayPush id v)
    return noProduct
  | .objectGet on key => do
    let id ← objectOf on
    let key ← textOf key
    match (← heap).objectGet? id key with
    | none => return .output (.word "absent")
    | some v =>
      lend v
      return .found v
  | .objectSet on key v => do
    let id ← objectOf on
    let key ← textOf key
    let v ← v.eval
    modifyHeap (·.objectSet id key v)
    return noProduct
  | .objectHas on key => do
    let id ← objectOf on
    let key ← textOf key
    return .output (.truth ((← heap).objectHas id key))
  | .objectDelete on key => do
    let id ← objectOf on
    let key ← textOf key
    let present := (← heap).objectHas id key
    modifyHeap (·.objectDelete id key)
    return .output (.truth present)
  | .objectKeys on => do
    let id ← objectOf on
    return .output (.list (((← heap).objectKeys id).map .text))
  | .errorInfo v => do
    let id ← orFail (← v.eval).expectError
    let h ← heap
    let f := h.failure id
    return .output <| .record [("message", .word f.message), ("top", .word f.top),
      ("marshal", .truth f.isMarshal), ("debug", .word (h.describeError id))]

/-! ### Functions -/

/-- A step on functions and on the wrappers that the embedder keeps. -/
inductive FunctionStep where
  | call (on : Literal) (args : List Literal)
  | info (on : Literal)
  /-- The wrapper of a closure. -/
  | wrap (closure : Int32) (arity : Nat)
  /-- Number of closures that have a wrapper. -/
  | live
  /-- The closures that have lost their last wrapper. -/
  | take

/-- The function of a literal. -/
def functionOf (l : Literal) : Play FunctionRef := do orFail (← l.eval).expectFunction

/-- Whether a function wraps a closure. -/
def FunctionRef.isWrapper : FunctionRef → Bool
  | .wrapper _ _ => true
  | .native _ => false

/-- Run a step on functions. -/
def FunctionStep.run (m : Machine Notebook) : FunctionStep → Play Product
  | .call on args => do
    let f ← functionOf on
    let args ← Literal.evalAll args
    freshProduct (← applyFunction m f args)
  | .info on => do
    let f ← functionOf on
    return .output <| .record [("module", .truth f.isWrapper), ("wrapper", .truth f.isWrapper),
      ("debug", .word ((← heap).describeFunction f))]
  | .wrap closure arity => do
    freshProduct (.function (← onHeap (·.wrap .embedder ⟨closure, arity⟩)))
  | .live => return .output (.nat (← heap).embedderClosures.wrappedCount)
  | .take => do
    let ids ← onHeap (·.takeOrphans .embedder)
    return .output (.list (ids.map .int32))

end ModuleHost
