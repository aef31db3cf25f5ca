/-
Which modules are valid.

A module is read in the order of its image, and the first flaw ends that: something is
larger than a module may declare, limits are out of order, two exports have one name, or
something refers to what is not there.  The bodies of functions are looked at after
all declarations.

* `Description.checkDeclarations` and `Description.checkBodies` report the first flaw and
  where in the image it is;
* `Description.checkReferences` is for engines without reference types.
-/
import ModuleHost.Deferred.State
import ModuleHost.Wasm.Image
import ModuleHost.Wasm.Memory

namespace ModuleHost

/-- What is wrong with a module, and where in its image. -/
structure Flaw where
  position : Nat
  message : String
  deriving DecidableEq, Repr

/-- The wording of a flaw. -/
def Flaw.text (f : Flaw) : String :=
  s!"Invalid input WebAssembly code at offset {f.position}: {f.message}"

/-! ### What a module may declare -/

/-- Most parameters of a function, and most results. -/
def largestArity : Nat := 1000

/-- Most slots that a table can be asked to have. -/
def largestTable : Nat := 10000000

/-- Most memories, and most tables. -/
def mostWindows : Nat := 100

/-- Most globals. -/
def mostGlobals : Nat := 1000000

/-- Most imports, and most exports. -/
def mostNames : Nat := 100000

/-- Most bytes of a name. -/
def longestName : Nat := 100000

namespace Limits

/-- Whether limits are in order. -/
def isOrdered (l : Limits) : Bool := l.maximum.all (l.minimum ≤ ·)

/-- What is wrong with limits out of order. -/
def disorder : String := "size minimum must not be greater than maximum"

/-- What is wrong with the limits of a memory, if anything is. -/
def memoryComplaint? (l : Limits) : Option String :=
  if !l.isOrdered then some disorder
  else if maxPages < l.minimum || l.maximum.any (maxPages < ·) then
    some "memory size must be at most 65536 pages (4GiB)"
  else none

/-- What is wrong with the limits of a table, if anything is. -/
def tableComplaint? (l : Limits) : Option String :=
  if !l.isOrdered then some disorder
  else if largestTable < l.minimum then some "minimum table size is out of bounds"
  else none

end Limits

/-- What is wrong with a count beyond the greatest one. -/
def excess (what : String) (most : Nat) : String := s!"{what} count exceeds limit of {most}"

namespace Description

/-! ### Declarations -/

/-- Whether an export refers to something the module has. -/
def hasItem (d : Description) : ExportItem → Bool
  | .const _ | .own _ => true
  | .memory => d.memory.isSome
  | .table => d.table.isSome
  | .again index => index < d.imports.length
  | .relay index => (d.importedFunc? index).isSome
  | .global index => index < d.globals.length

/-- Fails unless a function type is small enough. -/
def checkType (d : Description) (i : Nat) (t : FuncType) : Except Flaw Unit := do
  if largestArity < t.params.length then
    throw ⟨d.itemStart .types i + 1, "function params size is out of bounds"⟩
  if largestArity < t.results.length then
    let params := Image.vector (t.params.map ([Image.valType ·]))
    throw ⟨d.itemStart .types i + 1 + params.length, "function returns size is out of bounds"⟩

/-- Fails unless a name is short enough; `start` is where it begins. -/
def checkName (start : Unit → Nat) (s : String) : Except Flaw Unit :=
  if longestName < s.utf8ByteSize then
    throw ⟨start () + (Image.unsigned s.utf8ByteSize).length - 1, "string size out of bounds"⟩
  else pure ()

/-- What is wrong with the type of an import, if anything is. -/
def importComplaint? (d : Description) (i : Nat) : ImportType → Option String
  | .memory l =>
    l.memoryComplaint?.or <|
      if mostWindows < d.importedMemories (i + 1) then some (excess "memories" mostWindows)
      else none
  | .table l =>
    l.tableComplaint?.or <|
      if mostWindows < d.importedTables (i + 1) then some (excess "tables" mostWindows)
      else none
  | .func _ | .global _ _ => none

/-- Fails unless an import is valid. -/
def checkImport (d : Description) (i : Nat) (e : Import) : Except Flaw Unit := do
  let start (_ : Unit) := d.itemStart .imports i
  checkName start e.space
  checkName (fun _ => start () + (Image.name e.space).length) e.name
  match d.importComplaint? i e.type with
  | some message => throw ⟨start (), message⟩
  | none => pure ()

/-- Fails unless the memory of the module's own is valid. -/
def checkMemory (d : Description) (l : Limits) : Except Flaw Unit := do
  if mostWindows < d.memoryCount then
    throw ⟨d.contentsStart .memories, excess "memories" mostWindows⟩
  match l.memoryComplaint? with
  | some message => throw ⟨d.itemStart .memories 0, message⟩
  | none => pure ()

/-- Fails unless an export is valid. -/
def checkExport (d : Description) (i : Nat) (e : ExportDecl) : Except Flaw Unit := do
  let start (_ : Unit) := d.itemStart .exports i
  checkName start e.name
  if !d.hasItem e.item then
    throw ⟨start (), "unknown function: exported function index out of bounds"⟩
  if (d.exports.take i).any (·.name = e.name) then
    throw ⟨start (), s!"duplicate export name `{e.name}` already defined"⟩

/-- Fails at the first flaw among the declarations, in the order of the image. -/
def checkDeclarations (d : Description) : Except Flaw Unit := do
  d.types.zipIdx.forM fun (t, i) => d.checkType i t
  if mostNames < d.imports.length then
    throw ⟨d.contentsStart .imports, excess "imports" mostNames⟩
  d.imports.zipIdx.forM fun (e, i) => d.checkImport i e
  d.memory.forM d.checkMemory
  if mostGlobals < d.globalCount then
    throw ⟨d.contentsStart .globals, excess "globals" mostGlobals⟩
  if mostNames < d.exports.length then
    throw ⟨d.contentsStart .exports, excess "exports" mostNames⟩
  d.exports.zipIdx.forM fun (e, i) => d.checkExport i e
  if d.elem.isSome && d.tableCount = 0 then
    throw ⟨d.itemStart .elements 0, "unknown table 0: table index out of bounds"⟩
  if d.data.isSome && d.memoryCount = 0 then
    throw ⟨d.itemStart .data 0, "unknown memory 0: memory index out of bounds"⟩

/-- Fails at the first declaration of a reference other than a table's, and at a second imported
table. -/
def checkReferences (d : Description) : Except Flaw Unit := do
  d.types.zipIdx.forM fun (t, i) =>
    if t.usesReferences then
      throw ⟨d.itemStart .types i, "reference types support is not enabled"⟩
    else pure ()
  d.imports.zipIdx.forM fun (e, i) => match e.type with
    | .global t _ =>
      if t.isReference then
        throw ⟨d.itemStart .imports i, "reference types support is not enabled"⟩
      else pure ()
    | .table _ =>
      if 1 < d.importedTables (i + 1) then throw ⟨d.itemStart .imports i, "multiple tables"⟩
      else pure ()
    | .func _ | .memory _ => pure ()
  d.globals.zipIdx.forM fun (g, i) =>
    if g.init.type.isReference then
      throw ⟨d.itemStart .globals i, "reference types support is not enabled"⟩
    else pure ()

/-! ### Bodies -/

/-- Why parameters cannot be taken from a stack of values, if they cannot; both lists begin
with the last. -/
def stackComplaint? : (params stack : List ValType) → Option String
  | p :: params, t :: stack =>
    if p = t then stackComplaint? params stack
    else some s!"type mismatch: expected {p.name}, found {t.name}"
  | p :: _, [] => some s!"type mismatch: expected {p.name} but nothing on stack"
  | [], _ :: _ => some "type mismatch: values remaining on stack at end of block"
  | [], [] => none

/-- Why the call at the start is not valid, if it is not. -/
def callComplaint? (d : Description) (index : Nat) (args : List StartArg) : Option String :=
  match d.importedFunc? index with
  | some t => stackComplaint? t.params.reverse (args.map StartArg.type).reverse
  | none => some s!"unknown function {d.funcIndex index}: function index out of bounds"

/-- Where the code of the function that runs at the start begins. -/
def startCodeStart (d : Description) : Nat :=
  let last := d.bodies.length - 1
  let size := ((d.bodies[last]?).map fun b => b.code.length).getD 0 + 2
  d.itemStart .code last + (Image.unsigned size).length + 1

/-- Fails unless the bodies of functions are valid.  Only the call at the start can be
wrong. -/
def checkBodies (d : Description) : Except Flaw Unit :=
  match d.start with
  | some (.call index args) =>
    match d.callComplaint? index args with
    | some message => throw ⟨d.startCodeStart + (args.flatMap Image.startArg).length, message⟩
    | none => pure ()
  | _ => pure ()

end Description

end ModuleHost
