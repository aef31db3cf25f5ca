/-
Kinds of values, as type tags report them, and element types of typed arrays.
-/
namespace ModuleHost

/-- Element type of a typed array. -/
inductive Element where
  | int8 | uint8 | uint8Clamped | int16 | uint16 | int32 | uint32 | float32 | float64
  deriving DecidableEq, Repr

/-- Kind of a value; `other` covers null, objects, functions, modules, errors and registries. -/
inductive Kind where
  | undefined | boolean | number | string | array
  | typedArray (element : Element)
  | dataView | arrayBuffer | other
  deriving DecidableEq, Repr

namespace Element

/-- Every element type, in the order of their tags. -/
def all : List Element :=
  [int8, uint8, uint8Clamped, int16, uint16, int32, uint32, float32, float64]

/-- Element width in bytes. -/
def width : Element → Nat
  | int8 | uint8 | uint8Clamped => 1
  | int16 | uint16 => 2
  | int32 | uint32 | float32 => 4
  | float64 => 8

/-- Whether the elements are signed integers. -/
def isSigned : Element → Bool
  | int8 | int16 | int32 => true
  | _ => false

/-- Whether the elements are floating-point numbers. -/
def isFloat : Element → Bool
  | float32 | float64 => true
  | _ => false

/-- Name of the element type. -/
def name : Element → String
  | int8 => "Int8"
  | uint8 => "Uint8"
  | uint8Clamped => "Uint8Clamped"
  | int16 => "Int16"
  | uint16 => "Uint16"
  | int32 => "Int32"
  | uint32 => "Uint32"
  | float32 => "Float32"
  | float64 => "Float64"

/-- The element type of that name. -/
def ofName? (name : String) : Option Element := all.find? (·.name = name)

theorem width_pos (e : Element) : 0 < e.width := by cases e <;> decide

end Element

namespace Kind

/-- Every kind, in the order of their tags. -/
def all : List Kind :=
  [undefined, boolean, number, string, array] ++ Element.all.map typedArray ++
    [dataView, arrayBuffer, other]

/-- Type tag reported to a module. -/
def tag (k : Kind) : Nat := all.idxOf k + 1

/-- The kind with a tag. -/
def ofTag? (tag : Int) : Option Kind :=
  if 1 ≤ tag then all[(tag - 1).toNat]? else none

/-- Element type of a typed array kind. -/
def element? : Kind → Option Element
  | typedArray e => some e
  | _ => none

/-- Name of the kind. -/
def name : Kind → String
  | undefined => "Undefined"
  | boolean => "Boolean"
  | number => "Number"
  | string => "String"
  | array => "Array"
  | typedArray e => e.name ++ "Array"
  | dataView => "DataView"
  | arrayBuffer => "ArrayBuffer"
  | other => "Other"

theorem ofTag?_tag (k : Kind) : ofTag? k.tag = some k := by
  cases k with
  | typedArray e => cases e <;> decide
  | _ => decide

end Kind

namespace Element

/-- The element type of a typed array tag. -/
def ofTag? (tag : Int) : Option Element := (Kind.ofTag? tag).bind Kind.element?

/-- Type tag of arrays with these elements. -/
def tag (e : Element) : Nat := (Kind.typedArray e).tag

end Element

end ModuleHost
