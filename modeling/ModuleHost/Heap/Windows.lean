/-
Buffers, and windows on them.

A typed array or a data view is a window: it reads and writes the bytes of its
buffer from its offset on and nothing else.  Making a window checks that it lies
within the buffer, and buffers never change their size.

* `TypedView.get?` and `TypedView.set` convert between numbers and elements, which are stored in the
  byte order of the machine;
* `TypedView.elementBytes` and `TypedView.setElementBytes` move elements in the byte order of
  modules;
* `ByteView.read` and `ByteView.write` move one scalar in either byte order.

A failed operation changes nothing.  Makers give the caller one handle on the new
value, so a window on an existing buffer takes a handle on that buffer.
-/
import ModuleHost.Value.Bytes
import ModuleHost.Heap.Basic

namespace ModuleHost

namespace Heap

/-! ### Buffers -/

/-- The contents of a buffer. -/
def contents (h : Heap) (buffer : Nat) : ByteStore := (h.buffers.get? buffer).getD default

/-- The bytes of a buffer. -/
def bytes (h : Heap) (buffer : Nat) : List UInt8 := (h.contents buffer).toList

/-- Size of a buffer in bytes. -/
def byteLength (h : Heap) (buffer : Nat) : Nat := (h.contents buffer).size

/-- Replace the contents of a buffer. -/
def setContents (h : Heap) (buffer : Nat) (contents : ByteStore) : Heap :=
  { h with buffers := h.buffers.set buffer contents }

/-- A copy of `length` bytes from `offset` on. -/
def readBytes (h : Heap) (buffer offset length : Nat) : Except ConversionError (List UInt8) :=
  (h.contents buffer).read offset length

/-- Overwrite the bytes from `offset` on. -/
def writeBytes (h : Heap) (buffer offset : Nat) (bytes : List UInt8) :
    Except ConversionError Heap := do
  return h.setContents buffer (← (h.contents buffer).write offset bytes)

/-! ### Typed arrays -/

/-- A fresh array of zeros. -/
def newTypedArray (h : Heap) (e : Element) (length : Nat) : TypedView × Heap :=
  let (buffer, h) := h.newBuffer (.zeros (length * e.width))
  (⟨e, buffer, 0, length⟩, h)

/-- A fresh array of these numbers, each converted to the element type. -/
def typedArrayOf (h : Heap) (e : Element) (numbers : List Double) : TypedView × Heap :=
  let (buffer, h) := h.newBuffer (.ofList (numbers.flatMap (e.encode h.littleEndian)))
  (⟨e, buffer, 0, numbers.length⟩, h)

/-- A window of `length` elements from byte `offset` on, which must be a multiple of the
element width. -/
def typedWindow (h : Heap) (e : Element) (buffer offset length : Nat) :
    Except ConversionError (TypedView × Heap) := do
  let size := h.byteLength buffer
  let byteLength := length * e.width
  if wordLimit ≤ byteLength then throw (.outOfBounds offset length size)
  requireRange offset byteLength size
  if offset % e.width ≠ 0 then throw (.outOfBounds offset byteLength size)
  return (⟨e, buffer, offset, length⟩, h.retainTarget (.buffer buffer))

end Heap

namespace TypedView

/-- The element at an index, as a number. -/
def get? (v : TypedView) (h : Heap) (i : Nat) : Option Double :=
  if i < v.length then
    some (v.element.decode h.littleEndian
      ((h.contents v.buffer).slice (v.offset + i * v.element.width) v.element.width))
  else none

/-- Store a number at an index, converted to the element type. -/
def set (v : TypedView) (h : Heap) (i : Nat) (x : Double) : Except ConversionError Heap := do
  requireRange i 1 v.length
  return h.setContents v.buffer
    ((h.contents v.buffer).patch (v.offset + i * v.element.width)
      (v.element.encode h.littleEndian x))

/-- All elements as numbers. -/
def toList (v : TypedView) (h : Heap) : List Double := (List.range v.length).filterMap (v.get? h)

/-- The bytes of `count` elements from index `start` on, of each the least significant first. -/
def elementBytes (v : TypedView) (h : Heap) (start count : Nat) :
    Except ConversionError (List UInt8) := do
  let width := v.element.width
  requireRange start count v.length
  let bytes ← h.readBytes v.buffer (v.offset + start * width) (count * width)
  return swapWords h.littleEndian width count bytes

/-- Overwrite elements from index `start` on with bytes of which the least significant come first;
bytes short of a whole element are dropped. -/
def setElementBytes (v : TypedView) (h : Heap) (start : Nat) (bytes : List UInt8) :
    Except ConversionError Heap := do
  let width := v.element.width
  let count := bytes.length / width
  requireRange start count v.length
  h.writeBytes v.buffer (v.offset + start * width)
    (swapWords h.littleEndian width count (bytes.take (count * width)))

end TypedView

/-! ### Data views -/

namespace Heap

/-- A fresh view of a fresh buffer with these contents. -/
def newDataView (h : Heap) (contents : ByteStore) : ByteView × Heap :=
  let (buffer, h) := h.newBuffer contents
  (⟨buffer, 0, contents.size⟩, h)

/-- A window of `length` bytes from `offset` on. -/
def byteWindow (h : Heap) (buffer offset length : Nat) :
    Except ConversionError (ByteView × Heap) := do
  requireRange offset length (h.byteLength buffer)
  return (⟨buffer, offset, length⟩, h.retainTarget (.buffer buffer))

end Heap

namespace ByteView

/-- The viewed bytes. -/
def toBytes (v : ByteView) (h : Heap) : List UInt8 :=
  (h.contents v.buffer).slice v.offset v.length

/-- A view of a copy of `length` bytes at `offset`. -/
def copy (v : ByteView) (h : Heap) (offset length : Nat) :
    Except ConversionError (ByteView × Heap) := do
  requireRange offset length v.length
  let bytes ← h.readBytes v.buffer (v.offset + offset) length
  return h.newDataView (.ofList bytes)

/-- The word of a scalar at an offset. -/
def read (v : ByteView) (h : Heap) (t : Scalar) (offset : Nat) (littleEndian : Bool) :
    Except ConversionError Nat := do
  requireRange offset t.width v.length
  let bytes ← h.readBytes v.buffer (v.offset + offset) t.width
  return Scalar.decode littleEndian bytes

/-- Store the word of a scalar at an offset. -/
def write (v : ByteView) (h : Heap) (t : Scalar) (offset w : Nat) (littleEndian : Bool) :
    Except ConversionError Heap := do
  requireRange offset t.width v.length
  h.writeBytes v.buffer (v.offset + offset) (t.encode littleEndian w)

end ByteView

end ModuleHost
