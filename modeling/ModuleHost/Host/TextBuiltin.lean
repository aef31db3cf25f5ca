/-
The string builtins: functions on texts that a module may import.

Indices are 32-bit words read as unsigned numbers.

* `TextBuiltin.type` is the exact type of each builtin, as it is bound;
* `TextSignature.all` is a table of signatures of its own, against which an engine that knows the
  builtins checks imports;
* `codePointAt` joins a surrogate pair that begins at the index and gives any other
  unit as it is; `fromCodePoint` is its inverse on code points;
* `equals` also accepts null, which is equal to null alone.
-/
import ModuleHost.Value.Basic
import ModuleHost.Wasm.Type

namespace ModuleHost

/-! ### Signatures -/

/-- What a signature tells apart: 32-bit integers and references of whatever type. -/
inductive Slot where
  | i32 | ref
  deriving DecidableEq, Repr

/-- The slot of a type, if it has one. -/
def Slot.of? : ValType → Option Slot
  | .i32 => some i32
  | .i64 | .f32 | .f64 => none
  | .externref | .funcref => some ref

/-- Signature of a string builtin. -/
structure TextSignature where
  name : String
  params : List Slot
  results : List Slot
  deriving DecidableEq, Repr

namespace TextSignature

/-- Every signature. -/
def all : List TextSignature :=
  [⟨"cast", [.ref], [.ref]⟩,
    ⟨"test", [.ref], [.i32]⟩,
    ⟨"fromCharCode", [.i32], [.ref]⟩,
    ⟨"fromCodePoint", [.i32], [.ref]⟩,
    ⟨"charCodeAt", [.ref, .i32], [.i32]⟩,
    ⟨"codePointAt", [.ref, .i32], [.i32]⟩,
    ⟨"length", [.ref], [.i32]⟩,
    ⟨"concat", [.ref, .ref], [.ref]⟩,
    ⟨"substring", [.ref, .i32, .i32], [.ref]⟩,
    ⟨"equals", [.ref, .ref], [.i32]⟩,
    ⟨"compare", [.ref, .ref], [.i32]⟩]

/-- The signature of an import name. -/
def ofName? (name : String) : Option TextSignature := all.find? (·.name = name)

/-- Whether a list of types has these slots. -/
def fits (types : List ValType) (slots : List Slot) : Bool :=
  types.length = slots.length && (types.zip slots).all fun (t, slot) => Slot.of? t = some slot

/-- Whether a declared type is of the signature. -/
def accepts (s : TextSignature) (t : FuncType) : Bool :=
  fits t.params s.params && fits t.results s.results

end TextSignature

/-! ### The builtins -/

/-- A string builtin. -/
inductive TextBuiltin where
  | cast | test | fromCharCode | fromCodePoint | charCodeAt | codePointAt | length | concat
  | substring | equals | compare
  deriving DecidableEq, Repr

namespace TextBuiltin

/-- Namespace of the string builtins. -/
def space : String := "wasm:js-string"

/-- Every string builtin. -/
def all : List TextBuiltin :=
  [cast, test, fromCharCode, fromCodePoint, charCodeAt, codePointAt, length, concat, substring,
    equals, compare]

/-- Import name. -/
def name : TextBuiltin → String
  | cast => "cast"
  | test => "test"
  | fromCharCode => "fromCharCode"
  | fromCodePoint => "fromCodePoint"
  | charCodeAt => "charCodeAt"
  | codePointAt => "codePointAt"
  | length => "length"
  | concat => "concat"
  | substring => "substring"
  | equals => "equals"
  | compare => "compare"

/-- The builtin with an import name. -/
def ofName? (name : String) : Option TextBuiltin := all.find? (·.name = name)

/-- Parameter and result types. -/
def type : TextBuiltin → FuncType
  | cast => ⟨[.externref], [.externref]⟩
  | test => ⟨[.externref], [.i32]⟩
  | fromCharCode | fromCodePoint => ⟨[.i32], [.externref]⟩
  | charCodeAt | codePointAt => ⟨[.externref, .i32], [.i32]⟩
  | length => ⟨[.externref], [.i32]⟩
  | concat => ⟨[.externref, .externref], [.externref]⟩
  | substring => ⟨[.externref, .i32, .i32], [.externref]⟩
  | equals | compare => ⟨[.externref, .externref], [.i32]⟩

/-! ### Functions on texts -/

/-- A 32-bit word as an unsigned number. -/
def unsigned (i : Int32) : Nat := i.toUInt32.toNat

/-- A length as a 32-bit word. -/
def word (n : Nat) : Int32 := Int32.ofNat n

/-- The text behind a reference. -/
def text (r : Reference) : Except ConversionError Text := do (← r.value).expectString

/-- The text of one code unit. -/
def charText (code : Int32) : Text := .singleton (UInt16.ofNat (unsigned code))

/-- The text of one code point. -/
def codePointText (point : Int32) : Except ConversionError Text :=
  let point := unsigned point
  if 0x10ffff < point then .error (.outOfBounds point 1 0x110000)
  else .ok ⟨Text.unitsOf point⟩

/-- The unit at an index. -/
def unitAt (s : Text) (i : Int32) : Except ConversionError UInt16 :=
  match s.unit? (unsigned i) with
  | some u => .ok u
  | none => .error (.outOfBounds (unsigned i) 1 s.length)

/-- The code point that begins at an index. -/
def pointAt (s : Text) (i : Int32) : Except ConversionError Nat := do
  let first ← unitAt s i
  match s.unit? (unsigned i + 1) with
  | some second =>
    if Text.isHighSurrogate first && Text.isLowSurrogate second then
      return Text.joinSurrogates first second
    else return first.toNat
  | none => return first.toNat

/-- The units between two indices, none unless the first is the smaller one. -/
def between (s : Text) (start stop : Int32) : Text :=
  if unsigned stop < unsigned start ∨ s.length < unsigned start then .empty
  else s.slice (unsigned start) (unsigned stop)

/-- Equality of two strings or nulls. -/
def equalTexts (v w : Value) : Except ConversionError Bool :=
  match v, w with
  | .null, .null => .ok true
  | .null, .string _ | .string _, .null => .ok false
  | .string s, .string t => .ok (s = t)
  | .string _, other | other, _ => .error (.typeMismatch .string other.kind)

/-- The order of two texts as -1, 0 or 1. -/
def orderWord (s t : Text) : Int32 :=
  match s.compare t with
  | .lt => -1
  | .eq => 0
  | .gt => 1

end TextBuiltin

end ModuleHost
