/-
Arrays and objects.

An array grows when it is written beyond its end; what lies between is undefined.
An object keeps its properties in the order in which they first became present:
replacing a value keeps its place, and a deleted property set again comes last.

Storing takes a handle on the new value before the old one is given up; reading
lends the stored value.
-/
import ModuleHost.Heap.Basic

namespace ModuleHost

namespace Heap

/-! ### Arrays -/

/-- Elements of an array. -/
def elements (h : Heap) (array : Nat) : List Value := (h.arrays.get? array).getD []

/-- Replace the elements of an array. -/
def setElements (h : Heap) (array : Nat) (values : List Value) : Heap :=
  { h with arrays := h.arrays.set array values }

/-- The element at an index, undefined where there is none. -/
def arrayGet (h : Heap) (array i : Nat) : Value := ((h.elements array)[i]?).getD .undefined

/-- A list with `v` at index `i`, grown with undefined as needed. -/
def putAt (values : List Value) (i : Nat) (v : Value) : List Value :=
  if i < values.length then values.set i v
  else values ++ List.replicate (i - values.length) .undefined ++ [v]

/-- Store a value at an index. -/
def arraySet (h : Heap) (array i : Nat) (v : Value) : Heap :=
  let old := h.arrayGet array i
  let h := h.retain v
  (h.setElements array (putAt (h.elements array) i v)).release old

/-- Append a value. -/
def arrayPush (h : Heap) (array : Nat) (v : Value) : Heap :=
  let h := h.retain v
  h.setElements array (h.elements array ++ [v])

/-! ### Objects -/

/-- Properties of an object, in order. -/
def properties (h : Heap) (object : Nat) : List (Text × Value) :=
  (h.objects.get? object).getD []

/-- Replace the properties of an object. -/
def setProperties (h : Heap) (object : Nat) (props : List (Text × Value)) : Heap :=
  { h with objects := h.objects.set object props }

/-- Value of a property, if present. -/
def objectGet? (h : Heap) (object : Nat) (key : Text) : Option Value :=
  (h.properties object).lookup key

/-- Whether a property is present. -/
def objectHas (h : Heap) (object : Nat) (key : Text) : Bool :=
  (h.objectGet? object key).isSome

/-- Properties with one set: in its place if present, else at the end. -/
def putKey : List (Text × Value) → Text → Value → List (Text × Value)
  | [], key, v => [(key, v)]
  | (k, w) :: rest, key, v => if k = key then (key, v) :: rest else (k, w) :: putKey rest key v

/-- Set a property. -/
def objectSet (h : Heap) (object : Nat) (key : Text) (v : Value) : Heap :=
  let old := (h.objectGet? object key).getD .undefined
  let h := h.retain v
  (h.setProperties object (putKey (h.properties object) key v)).release old

/-- Remove a property. -/
def objectDelete (h : Heap) (object : Nat) (key : Text) : Heap :=
  let props := h.properties object
  let gone := (props.filter (·.1 = key)).map (·.2)
  (h.setProperties object (props.filter (·.1 ≠ key))).releaseAll gone

/-- Property names, in order. -/
def objectKeys (h : Heap) (object : Nat) : List Text := (h.properties object).map (·.1)

end Heap

end ModuleHost
