/-
Values that cross the boundary.

Primitive values are data.  A reference value is a number that names a shared
payload in the heap, so copying a value never copies its payload and identity is
equality of numbers; numbers are never used twice.  Typed arrays and data views
have no payload of their own: they are windows on a buffer.

* `Value.target?` names the payload that a value keeps alive.
-/
import ModuleHost.Number.Double
import ModuleHost.Text.Units
import ModuleHost.Value.Error

namespace ModuleHost

/-- Who keeps a table of wrappers: a session for its module, or the embedder for itself. -/
inductive Keeper where
  | session | embedder
  deriving DecidableEq, Repr

/-- A callable value: implemented by the host, or a wrapper of a module closure. -/
inductive FunctionRef where
  | native (id : Nat)
  | wrapper (keeper : Keeper) (id : Nat)
  deriving DecidableEq, Repr

/-- A window of `length` elements on a buffer. -/
@[ext]
structure TypedView where
  element : Element
  buffer : Nat
  offset : Nat
  length : Nat
  deriving DecidableEq, Repr

/-- A window of `length` bytes on a buffer. -/
@[ext]
structure ByteView where
  buffer : Nat
  offset : Nat
  length : Nat
  deriving DecidableEq, Repr

/-- Size of the window in bytes. -/
def TypedView.byteLength (v : TypedView) : Nat := v.length * v.element.width

/-- A host value. -/
inductive Value where
  | undefined
  | null
  | bool (b : Bool)
  | number (x : Double)
  | string (s : Text)
  | array (id : Nat)
  | object (id : Nat)
  | buffer (id : Nat)
  | typedArray (view : TypedView)
  | dataView (view : ByteView)
  | function (f : FunctionRef)
  | error (id : Nat)
  | linkedModule (id : Nat)
  | registry (id : Nat)
  deriving DecidableEq, Repr, Inhabited

/-- A shared payload. -/
inductive Target where
  | array (id : Nat)
  | object (id : Nat)
  | buffer (id : Nat)
  | function (f : FunctionRef)
  | error (id : Nat)
  | linkedModule (id : Nat)
  | registry (id : Nat)
  deriving DecidableEq, Repr

namespace Value

/-- The payload that a value keeps alive; views keep their buffer. -/
def target? : Value → Option Target
  | undefined | null | bool _ | number _ | string _ => none
  | array id => some (.array id)
  | object id => some (.object id)
  | buffer id => some (.buffer id)
  | typedArray view => some (.buffer view.buffer)
  | dataView view => some (.buffer view.buffer)
  | function f => some (.function f)
  | error id => some (.error id)
  | linkedModule id => some (.linkedModule id)
  | registry id => some (.registry id)

/-- Kind of a value. -/
def kind : Value → Kind
  | undefined => .undefined
  | bool _ => .boolean
  | number _ => .number
  | string _ => .string
  | array _ => .array
  | typedArray view => .typedArray view.element
  | dataView _ => .dataView
  | buffer _ => .arrayBuffer
  | null | function _ | object _ | linkedModule _ | error _ | registry _ => .other

/-- Boolean coercion. -/
def truthy : Value → Bool
  | undefined | null => false
  | bool b => b
  | number x => !x.isZero && !x.isNaN
  | string s => !s.isEmpty
  | _ => true

/-- Strict equality: primitives by value, a window by what it covers, the rest by identity. -/
def same : Value → Value → Bool
  | undefined, undefined => true
  | null, null => true
  | bool a, bool b => a == b
  | number x, number y => x.same y
  | string s, string t => s == t
  | array a, array b => a == b
  | typedArray v, typedArray w =>
    v.buffer == w.buffer && v.element == w.element && v.offset == w.offset && v.length == w.length
  | dataView v, dataView w => v.buffer == w.buffer && v.offset == w.offset && v.length == w.length
  | buffer a, buffer b => a == b
  | function f, function g => f == g
  | object a, object b => a == b
  | linkedModule a, linkedModule b => a == b
  | error a, error b => a == b
  | registry a, registry b => a == b
  | _, _ => false

/-- Numbers aside, values are the same exactly if they are equal. -/
theorem same_eq {v : Value} (hv : ∀ x, v ≠ number x) (w : Value) : v.same w = decide (v = w) := by
  rw [Bool.eq_iff_iff, decide_eq_true_eq]
  cases v with
  | number x => exact absurd rfl (hv x)
  | typedArray v =>
    cases w with
    | typedArray w => simp [same, TypedView.ext_iff, and_assoc, and_left_comm]
    | _ => simp [same]
  | dataView v =>
    cases w with
    | dataView w => simp [same, ByteView.ext_iff, and_assoc]
    | _ => simp [same]
  | _ => cases w <;> simp [same]

/-- The error for a value that is not of the wanted kind. -/
def mismatch (v : Value) (expected : Expected) : ConversionError :=
  match v with
  | null => .nullReference
  | v => .typeMismatch expected v.kind

/-- The text of a string. -/
def expectString : Value → Except ConversionError Text
  | string s => .ok s
  | v => .error (v.mismatch .string)

/-- The number of a number. -/
def expectNumber : Value → Except ConversionError Double
  | number x => .ok x
  | v => .error (v.mismatch .number)

/-- The truth value of a boolean. -/
def expectBool : Value → Except ConversionError Bool
  | bool b => .ok b
  | v => .error (v.mismatch .boolean)

/-- The identity of an array. -/
def expectArray : Value → Except ConversionError Nat
  | array id => .ok id
  | v => .error (v.mismatch .array)

/-- The window of a typed array. -/
def expectTypedArray : Value → Except ConversionError TypedView
  | typedArray view => .ok view
  | v => .error (v.mismatch .typedArray)

/-- The window of a data view. -/
def expectDataView : Value → Except ConversionError ByteView
  | dataView view => .ok view
  | v => .error (v.mismatch .dataView)

/-- The identity of a buffer. -/
def expectBuffer : Value → Except ConversionError Nat
  | buffer id => .ok id
  | v => .error (v.mismatch .arrayBuffer)

/-- A buffer and where a buffer or view starts in it. -/
def expectBufferOrView : Value → Except ConversionError (Nat × Nat)
  | buffer id => .ok (id, 0)
  | typedArray view => .ok (view.buffer, view.offset)
  | dataView view => .ok (view.buffer, view.offset)
  | v => .error (v.mismatch .bufferOrView)

/-- The function of a function value. -/
def expectFunction : Value → Except ConversionError FunctionRef
  | function f => .ok f
  | v => .error (v.mismatch .function)

/-- The identity of an object. -/
def expectObject : Value → Except ConversionError Nat
  | object id => .ok id
  | v => .error (v.mismatch .object)

/-- The identity of an error value. -/
def expectError : Value → Except ConversionError Nat
  | error id => .ok id
  | v => .error (v.mismatch .error)

/-- The identity of a finalization registry. -/
def expectRegistry : Value → Except ConversionError Nat
  | registry id => .ok id
  | v => .error (v.mismatch .registry)

/-- What a weak handle on a value watches: reference values other than modules and registries. -/
def watchable : Value → Except ConversionError Target
  | null => .error .nullReference
  | v =>
    match v.target? with
    | some (.linkedModule _) | some (.registry _) | none => .error (.typeMismatch .object v.kind)
    | some t => .ok t

end Value

/-- What a module holds for a host value: a null reference, a reference to a value, or a
reference that carries no host value. -/
inductive Reference where
  | null
  | foreign
  | host (v : Value)
  deriving DecidableEq, Repr, Inhabited

namespace Reference

/-- Hand a value to a module; `null` becomes the null reference. -/
def ofValue : Value → Reference
  | .null => null
  | v => host v

/-- The value behind a reference. -/
def value : Reference → Except ConversionError Value
  | null => .ok .null
  | host v => .ok v
  | foreign => .error .foreignReference

theorem value_ofValue (v : Value) : (ofValue v).value = .ok v := by cases v <;> rfl

end Reference

end ModuleHost
