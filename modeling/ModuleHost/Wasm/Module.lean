/-
Modules, by what they declare.

A description lists imports, an optional memory and table and any number of globals of its own,
exports, at most one element and one data segment, and what runs at the start.  Its functions are of
three kinds: constants, relays that call an import with their own parameters, and
functions of which only the type is described; those are run by name.
-/
import ModuleHost.Number.Double
import ModuleHost.Wasm.Type

namespace ModuleHost

/-- What a slot of a table holds at first. -/
inductive SlotDecl where
  | empty
  /-- A function without parameters that returns a constant. -/
  | const (n : Int32)
  /-- A function of which only the type is described. -/
  | own (type : FuncType)
  deriving DecidableEq, Repr

/-- What a global holds at first. -/
inductive GlobalInit where
  | i32 (n : Int32)
  | i64 (n : Int64)
  | f32 (x : Single)
  | f64 (x : Double)
  /-- The null reference. -/
  | null
  deriving DecidableEq, Repr

/-- Type of what a global holds. -/
def GlobalInit.type : GlobalInit → ValType
  | i32 _ => .i32
  | i64 _ => .i64
  | f32 _ => .f32
  | f64 _ => .f64
  | null => .externref

/-- A global of the module's own. -/
structure GlobalDecl where
  init : GlobalInit
  isMutable : Bool
  deriving DecidableEq, Repr

/-- What an export is. -/
inductive ExportItem where
  /-- A function without parameters that returns a constant. -/
  | const (n : Int32)
  /-- The import with this index, exported again. -/
  | again (index : Nat)
  /-- A function that calls the import with this index. -/
  | relay (index : Nat)
  /-- A function of which only the type is described. -/
  | own (type : FuncType)
  /-- The memory of the module's own. -/
  | memory
  /-- The table of the module's own. -/
  | table
  /-- The global of the module's own with this index. -/
  | global (index : Nat)
  deriving DecidableEq, Repr

/-- A named export. -/
structure ExportDecl where
  name : String
  item : ExportItem
  deriving DecidableEq, Repr

/-- Puts a constant function into a slot of the table. -/
structure ElemDecl where
  slot : Nat
  const : Int32
  deriving DecidableEq, Repr

/-- Puts bytes into the memory. -/
structure DataDecl where
  address : Nat
  bytes : List UInt8
  deriving DecidableEq, Repr

/-- Argument of the call at the start: a constant or a null reference. -/
inductive StartArg where
  | i32 (n : Int32)
  | null
  deriving DecidableEq, Repr

/-- Type of an argument. -/
def StartArg.type : StartArg → ValType
  | i32 _ => .i32
  | null => .externref

/-- What runs when an instance is made. -/
inductive StartDecl where
  | unreachable
  | call (index : Nat) (args : List StartArg)
  deriving DecidableEq, Repr

/-- A module. -/
structure Description where
  imports : List Import
  memory : Option Limits
  table : Option (List SlotDecl)
  exports : List ExportDecl
  elem : Option ElemDecl
  data : Option DataDecl
  start : Option StartDecl
  globals : List GlobalDecl := []
  deriving DecidableEq, Repr

namespace Description

/-- The module that declares nothing. -/
def empty : Description := ⟨[], none, none, [], none, none, none, []⟩

/-- Type of the imported function with an index. -/
def importedFunc? (d : Description) (index : Nat) : Option FuncType :=
  match d.imports[index]? with
  | some ⟨_, _, .func t⟩ => some t
  | _ => none

/-- Number of memories among the first imports. -/
def importedMemories (d : Description) (among : Nat) : Nat :=
  ((d.imports.take among).filter fun i => match i.type with
    | .memory _ => true
    | _ => false).length

/-- Number of tables among the first imports. -/
def importedTables (d : Description) (among : Nat) : Nat :=
  ((d.imports.take among).filter fun i => match i.type with
    | .table _ => true
    | _ => false).length

/-- Number of globals among the first imports. -/
def importedGlobals (d : Description) (among : Nat) : Nat :=
  ((d.imports.take among).filter fun i => match i.type with
    | .global _ _ => true
    | _ => false).length

/-- Number of memories, imported ones included. -/
def memoryCount (d : Description) : Nat :=
  d.importedMemories d.imports.length + d.memory.toList.length

/-- Number of tables, imported ones included. -/
def tableCount (d : Description) : Nat :=
  d.importedTables d.imports.length + d.table.toList.length

/-- Number of globals, imported ones included. -/
def globalCount (d : Description) : Nat :=
  d.importedGlobals d.imports.length + d.globals.length

/-- Export names, in order. -/
def exportNames (d : Description) : List String := d.exports.map (·.name)

end Description

end ModuleHost
