/-
Types of WebAssembly entities, as imports and exports declare them.
-/
namespace ModuleHost

/-- Type of a WebAssembly value. -/
inductive ValType where
  | i32 | i64 | f32 | f64 | externref | funcref
  deriving DecidableEq, Repr

namespace ValType

/-- Name of the type. -/
def name : ValType → String
  | i32 => "i32"
  | i64 => "i64"
  | f32 => "f32"
  | f64 => "f64"
  | externref => "externref"
  | funcref => "funcref"

/-- Whether values of the type are references. -/
def isReference : ValType → Bool
  | externref | funcref => true
  | _ => false

end ValType

/-- Parameter and result types of a function. -/
structure FuncType where
  params : List ValType
  results : List ValType
  deriving DecidableEq, Repr, Inhabited

namespace FuncType

/-- A list of types between parentheses. -/
def listText (types : List ValType) : String :=
  "(" ++ ", ".intercalate (types.map ValType.name) ++ ")"

/-- Text of the type. -/
def text (t : FuncType) : String := listText t.params ++ " -> " ++ listText t.results

/-- Whether a parameter or result is a reference. -/
def usesReferences (t : FuncType) : Bool := (t.params ++ t.results).any ValType.isReference

end FuncType

/-- Least and greatest size. -/
structure Limits where
  minimum : Nat
  maximum : Option Nat
  deriving DecidableEq, Repr

namespace Limits

/-- Text of the limits. -/
def text (l : Limits) : String :=
  let maximum := match l.maximum with
    | some n => toString n
    | none => "none"
  s!"min: {l.minimum}, max: {maximum}"

/-- Whether something of the limits `given` serves where `wanted` is declared. -/
def serves (given wanted : Limits) : Bool :=
  wanted.minimum ≤ given.minimum &&
    match wanted.maximum, given.maximum with
    | none, _ => true
    | some w, some g => g ≤ w
    | some _, none => false

end Limits

/-- What an import is declared to be; tables hold function references. -/
inductive ImportType where
  | func (type : FuncType)
  | memory (limits : Limits)
  | table (limits : Limits)
  /-- A global, which is constant unless it is said to be mutable. -/
  | global (type : ValType) (isMutable : Bool := false)
  deriving DecidableEq, Repr

namespace ImportType

/-- The word for what is wanted. -/
def word : ImportType → String
  | func _ => "func"
  | memory _ => "memory"
  | table _ => "table"
  | global _ _ => "global"

/-- The word for what was found. -/
def foundWord : ImportType → String
  | func _ => "function"
  | t => t.word

/-- The complaint about limits. -/
def limitsMisfit (word : String) (wanted given : Limits) : String :=
  s!"{word} types incompatible: expected {word} limits ({wanted.text}) doesn't match provided " ++
    s!"{word} limits ({given.text})"

/-- The word for whether a global can change. -/
def mutability (isMutable : Bool) : String := if isMutable then "mutable" else "immutable"

/-- The complaint about globals, if there is one; the types come first. -/
def globalMisfit? (wanted given : ValType) (wantedMutable givenMutable : Bool) : Option String :=
  if wanted ≠ given then
    some <| s!"global types incompatible: expected global of type `{wanted.name}`, found " ++
      s!"global of type `{given.name}`"
  else if wantedMutable ≠ givenMutable then
    some <| s!"global types incompatible: expected global to be {mutability wantedMutable}, " ++
      s!"found global to be {mutability givenMutable}"
  else none

/-- Why an entity of the type `given` cannot stand where `wanted` is declared, if it cannot. -/
def misfit? (wanted given : ImportType) : Option String :=
  match wanted, given with
  | func wanted, func given =>
    if wanted = given then none
    else
      some <| s!"function types incompatible: expected func of type `{wanted.text}`, found " ++
        s!"func of type `{given.text}`"
  | memory wanted, memory given =>
    if given.serves wanted then none else some (limitsMisfit "memory" wanted given)
  | table wanted, table given =>
    if given.serves wanted then none else some (limitsMisfit "table" wanted given)
  | global wanted m, global given m' => globalMisfit? wanted given m m'
  | wanted, given => some s!"expected {wanted.word}, but found {given.foundWord}"

end ImportType

/-- An import: namespace, name and declared type. -/
structure Import where
  space : String
  name : String
  type : ImportType
  deriving DecidableEq, Repr

end ModuleHost
