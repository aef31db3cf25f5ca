/-
Why a value could not cross the boundary.

Every failed conversion has a cause of its own; `ConversionError.message` is the one
place that words them.
-/
import ModuleHost.Value.Kind

namespace ModuleHost

/-- What an operation wanted its argument to be. -/
inductive Expected where
  | string | number | boolean | array | typedArray | dataView | arrayBuffer | bufferOrView
  | function | object | error | registry
  deriving DecidableEq, Repr

namespace Expected

/-- The word for what was wanted. -/
def word : Expected → String
  | string => "string"
  | number => "number"
  | boolean => "boolean"
  | array => "array"
  | typedArray => "typed array"
  | dataView => "data view"
  | arrayBuffer => "array buffer"
  | bufferOrView => "array buffer or view"
  | function => "function"
  | object => "object"
  | error => "error"
  | registry => "finalization registry"

end Expected

/-- A value could not be converted across the boundary. -/
inductive ConversionError where
  /-- The reference carries no host value. -/
  | foreignReference
  /-- A null reference stands where a value is required. -/
  | nullReference
  /-- The value is of another kind than the operation wants. -/
  | typeMismatch (expected : Expected) (found : Kind)
  /-- The function is not a wrapper of a module closure. -/
  | notModuleFunction
  /-- No kind of the required sort has this tag. -/
  | invalidTypeTag (tag : Int)
  /-- The range `offset + length` leaves what is there. -/
  | outOfBounds (offset length size : Nat)
  /-- An export that the conversion needs is missing. -/
  | missingExport (name : String)
  /-- An export returned something else than its result type. -/
  | unexpectedResult (name : String)
  /-- No primary instance is linked yet. -/
  | notLinked
  /-- No trampoline exists for functions of this arity. -/
  | unsupportedArity (arity : Nat)
  deriving DecidableEq, Repr

namespace ConversionError

/-- The wording of a failed conversion. -/
def message : ConversionError → String
  | foreignReference => "externref does not carry a host value"
  | nullReference => "unexpected null reference"
  | typeMismatch expected found => s!"expected {expected.word}, found {found.name}"
  | notModuleFunction => "function was not created by the module"
  | invalidTypeTag tag => s!"invalid type tag {tag}"
  | outOfBounds offset length size => s!"access out of bounds: {offset} + {length} > {size}"
  | missingExport name => s!"missing export `{name}`"
  | unexpectedResult name => s!"export `{name}` returned an unexpected result"
  | notLinked => "primary instance is not linked"
  | unsupportedArity arity => s!"no trampoline for functions of arity {arity}"

end ConversionError

/-- Fails unless `length` items from `offset` on lie within `size`. -/
def requireRange (offset length size : Nat) : Except ConversionError Unit :=
  if offset + length ≤ size then .ok () else .error (.outOfBounds offset length size)

/-- Sizes and offsets are 64-bit words; a product beyond them cannot be formed. -/
def wordLimit : Nat := Nat.pow 2 64

end ModuleHost
