/-
Steps on buffers, typed arrays and data views.

A step that writes answers with all bytes of the buffer behind, so that what lies outside
the window can be seen too.
-/
import ModuleHost.Scenario.ValueSteps

namespace ModuleHost

open Act Play

/-- A number to be stored as a scalar. -/
inductive ScalarInput where
  | int (n : Int)
  | float (x : Double)

/-- The word of a scalar type for a number; an integer is cut to the width. -/
def ScalarInput.word (t : Scalar) : ScalarInput → Nat
  | int n => (n % Nat.pow 2 (8 * t.width)).toNat
  | float x => if t = .float32 then x.toSingle.bits.toNat else x.bits.toNat

/-- A step on buffers; where a buffer is wanted, a view stands for its buffer. -/
inductive BufferStep where
  | new (length : Nat)
  | behind (on : Literal)
  | length (on : Literal)
  | same (a b : Literal)
  | read (on : Literal) (offset length : Nat)
  | write (on : Literal) (offset : Nat) (bytes : List UInt8)

/-- The buffer of a buffer or view. -/
def Value.backing : Value → Except ConversionError Nat
  | .typedArray v => .ok v.buffer
  | .dataView v => .ok v.buffer
  | v => v.expectBuffer

/-- The buffer of a literal. -/
def bufferOf (l : Literal) : Play Nat := do orFail (← l.eval).backing

/-- All bytes of a buffer. -/
def bufferOutput (id : Nat) : Play Product := return .output (.bytes ((← heap).bytes id))

/-- Run a step on buffers. -/
def BufferStep.run : BufferStep → Play Product
  | .new n => do
    freshProduct (.buffer (← onHeap (·.newBuffer (.zeros n))))
  | .behind on => do
    let id ← bufferOf on
    lend (.buffer id)
    return .value (.buffer id)
  | .length on => do
    let id ← bufferOf on
    return .output (.nat ((← heap).byteLength id))
  | .same a b => do
    let a ← bufferOf a
    let b ← bufferOf b
    return .output (.truth (a = b))
  | .read on offset n => do
    let id ← bufferOf on
    return .output (.bytes (← orFail ((← heap).readBytes id offset n)))
  | .write on offset patch => do
    let id ← bufferOf on
    tryChange fun h => h.writeBytes id offset patch
    bufferOutput id

/-- A step on typed arrays. -/
inductive TypedStep where
  | new (e : Element) (length : Nat)
  | window (e : Element) (on : Literal) (offset length : Nat)
  | get (on : Literal) (i : Nat)
  | set (on : Literal) (i : Nat) (x : Double)
  | bytes (on : Literal) (start count : Nat)
  | setBytes (on : Literal) (start : Nat) (bytes : List UInt8)
  | info (on : Literal)

/-- The window of a typed array literal. -/
def typedOf (l : Literal) : Play TypedView := do orFail (← l.eval).expectTypedArray

/-- Run a step on typed arrays. -/
def TypedStep.run : TypedStep → Play Product
  | .new e length => do freshProduct (.typedArray (← onHeap (·.newTypedArray e length)))
  | .window e on offset length => do
    let id ← bufferOf on
    freshProduct (.typedArray (← tryHeap fun h => h.typedWindow e id offset length))
  | .get on i => do
    let v ← typedOf on
    return .output (.optional ((v.get? (← heap) i).map .number))
  | .set on i x => do
    let v ← typedOf on
    tryChange fun h => v.set h i x
    bufferOutput v.buffer
  | .bytes on start count => do
    let v ← typedOf on
    return .output (.bytes (← orFail (v.elementBytes (← heap) start count)))
  | .setBytes on start patch => do
    let v ← typedOf on
    tryChange fun h => v.setElementBytes h start patch
    bufferOutput v.buffer
  | .info on => do
    let v ← typedOf on
    return .output <| .record [("kind", .word v.element.name), ("len", .nat v.length),
      ("empty", .truth (v.length = 0)), ("byte_length", .nat v.byteLength),
      ("byte_offset", .nat v.offset), ("buffer", .nat ((← heap).byteLength v.buffer))]

/-- A step on data views. -/
inductive DataStep where
  | new (length : Nat)
  | window (on : Literal) (offset length : Nat)
  | copy (on : Literal) (offset length : Nat)
  | info (on : Literal)
  | get (on : Literal) (t : Scalar) (offset : Nat) (littleEndian : Bool)
  | set (on : Literal) (t : Scalar) (offset : Nat) (value : ScalarInput) (littleEndian : Bool)

/-- The window of a data view literal. -/
def dataOf (l : Literal) : Play ByteView := do orFail (← l.eval).expectDataView

/-- The number that a word of a scalar type stands for. -/
def scalarOutput (t : Scalar) (w : Nat) : Output :=
  match t with
  | .float32 => .number (Single.mk (UInt32.ofNat w)).toDouble
  | .float64 => .number (.ofWord w)
  | t => .word (toString (t.integer w))

/-- Run a step on data views. -/
def DataStep.run : DataStep → Play Product
  | .new length => do
    freshProduct (.dataView (← onHeap (·.newDataView (.zeros length))))
  | .window on offset length => do
    let id ← bufferOf on
    freshProduct (.dataView (← tryHeap fun h => h.byteWindow id offset length))
  | .copy on offset length => do
    let v ← dataOf on
    freshProduct (.dataView (← tryHeap fun h => v.copy h offset length))
  | .info on => do
    let v ← dataOf on
    return .output <| .record [("byte_length", .nat v.length), ("byte_offset", .nat v.offset),
      ("buffer", .nat ((← heap).byteLength v.buffer))]
  | .get on t offset littleEndian => do
    let v ← dataOf on
    return .output (scalarOutput t (← orFail (v.read (← heap) t offset littleEndian)))
  | .set on t offset value littleEndian => do
    let v ← dataOf on
    tryChange fun h => v.write h t offset (value.word t) littleEndian
    bufferOutput v.buffer

end ModuleHost
