/-
Stores, and making an instance in one.

A store holds the memories, tables and globals of all modules of a session, and counts instances.
An instance is made in a fixed order: own memory, table and globals, element segment, data segment.
A step that fails ends it, and what the steps before it changed stays changed.

* `Store.typeOf` — the type of an entity;
* `Parts` — what the parts of an instance refer to, and `Parts.toInstance` what it exports;
* `Store.stock` — make what is an instance's own.
-/
import ModuleHost.Deferred.State
import ModuleHost.Session.Fault
import ModuleHost.Wasm.Linker
import ModuleHost.Wasm.Memory

namespace ModuleHost

/-- A value of a module's parameter, result or global. -/
inductive Val where
  | i32 (n : Int32)
  | i64 (n : Int64)
  | f32 (x : Single)
  | f64 (x : Double)
  | ref (r : Reference)
  deriving DecidableEq, Repr

/-- Type of a value. -/
def Val.type : Val → ValType
  | i32 _ => .i32
  | i64 _ => .i64
  | f32 _ => .f32
  | f64 _ => .f64
  | ref _ => .externref

/-- A global: what it holds, and whether it can hold another value of the same type. -/
structure GlobalCell where
  value : Val
  isMutable : Bool
  deriving DecidableEq, Repr

instance : Inhabited GlobalCell := ⟨⟨.i32 0, false⟩⟩

/-- What a global holds at first, as a value. -/
def GlobalInit.toVal : GlobalInit → Val
  | .i32 n => .i32 n
  | .i64 n => .i64 n
  | .f32 x => .f32 x
  | .f64 x => .f64 x
  | .null => .ref .null

/-- A global when it is made. -/
def GlobalDecl.toCell (g : GlobalDecl) : GlobalCell := ⟨g.init.toVal, g.isMutable⟩

/-- What the modules of a session have. -/
structure Store where
  /-- Number of instances made so far. -/
  instances : Nat
  memories : List Memory
  tables : List (List (Option Func))
  cells : List GlobalCell

/-- Type of an entity.  The size of a memory or table counts as its least size. -/
def Store.typeOf (s : Store) : Extern → ImportType
  | .func f => .func f.type
  | .memory id =>
    let m := (s.memories[id]?).getD default
    .memory ⟨m.pages, m.maximum⟩
  | .table id => .table ⟨((s.tables[id]?).getD []).length, none⟩
  | .global id =>
    let cell := (s.cells[id]?).getD default
    .global cell.value.type cell.isMutable

/-! ### Instances -/

/-- What is an instance's own: its number, and those of its memory, table and globals. -/
structure Own where
  number : Nat
  memory : Option Nat
  table : Option Nat
  globals : List Nat

/-- What the parts of an instance refer to. -/
structure Parts where
  imports : List Extern
  own : Own

/-- The function among some entities with an index. -/
def funcAt? (es : List Extern) (index : Nat) : Option Func :=
  match es[index]? with
  | some (.func f) => some f
  | _ => none

namespace Parts

/-- The memory that segments write to: an imported one comes first. -/
def firstMemory? (p : Parts) : Option Nat :=
  (p.imports.findSome? fun e => match e with
    | .memory id => some id
    | _ => none).or p.own.memory

/-- The table that segments write to: an imported one comes first. -/
def firstTable? (p : Parts) : Option Nat :=
  (p.imports.findSome? fun e => match e with
    | .table id => some id
    | _ => none).or p.own.table

/-- The entity behind an export. -/
def entity? (p : Parts) (e : ExportDecl) : Option Extern :=
  match e.item with
  | .const n => some (.func (.const n))
  | .again index => p.imports[index]?
  | .relay index => (funcAt? p.imports index).map fun f => .func (.relay f)
  | .own t => some (.func (.own p.own.number (.named e.name) t))
  | .memory => p.own.memory.map .memory
  | .table => p.own.table.map .table
  | .global index => (p.own.globals[index]?).map .global

/-- The instance with these parts. -/
def toInstance (p : Parts) (exports : List ExportDecl) : Instance :=
  ⟨exports.filterMap fun e => (p.entity? e).map (e.name, ·)⟩

end Parts

/-! ### Making one -/

/-- A computation on a store; what it changed before it failed stays changed. -/
abbrev StoreAct (α : Type) := EStateM Report Store α

/-- Most instances of a store. -/
def instanceLimit : Nat := 10000

namespace Store

/-- Count one more instance, if there is room for it, and return its number. -/
def countInstance : StoreAct Nat := do
  let n := (← get).instances + 1
  if instanceLimit < n then
    throw (.of s!"resource limit exceeded: instance count too high at {n}")
  modify fun s => { s with instances := n }
  return n

/-- Make the memory of a module's own and return its number. -/
def makeMemory (limit : Nat) (l : Limits) : StoreAct Nat := do
  if limit < l.minimum then
    throw (.of s!"memory minimum size of {l.minimum} pages exceeds memory limits")
  let s ← get
  set { s with memories := s.memories ++ [Memory.zeroed l.minimum l.maximum] }
  return s.memories.length

/-- What a slot of an instance's table holds at first. -/
def slotFunc (number : Nat) (index : Nat) : SlotDecl → Option Func
  | .empty => none
  | .const n => some (.const n)
  | .own t => some (.own number (.slot index) t)

/-- Make the table of a module's own and return its number. -/
def makeTable (number : Nat) (slots : List SlotDecl) : StoreAct Nat := do
  let s ← get
  set { s with tables := s.tables ++ [slots.mapIdx (slotFunc number)] }
  return s.tables.length

/-- Make the globals of a module's own and return their numbers. -/
def makeGlobals (globals : List GlobalDecl) : StoreAct (List Nat) := do
  let s ← get
  set { s with cells := s.cells ++ globals.map GlobalDecl.toCell }
  return (List.range globals.length).map (s.cells.length + ·)

/-- Put the function of an element segment into its slot. -/
def fillSlot (p : Parts) (e : ElemDecl) : StoreAct Unit := do
  match p.firstTable? with
  | none => throw (.of Trap.tableOutOfBounds.message)
  | some id =>
    let s ← get
    let slots := (s.tables[id]?).getD []
    if slots.length ≤ e.slot then throw (.of Trap.tableOutOfBounds.message)
    set { s with tables := s.tables.set id (slots.set e.slot (some (.const e.const))) }

/-- Put the bytes of a data segment into the memory. -/
def fillMemory (p : Parts) (d : DataDecl) : StoreAct Unit := do
  match p.firstMemory? with
  | none => throw (.of Trap.memoryOutOfBounds.message)
  | some id =>
    let s ← get
    match ((s.memories[id]?).getD default).write d.address d.bytes with
    | .ok m => set { s with memories := s.memories.set id m }
    | .error _ => throw (.of Trap.memoryOutOfBounds.message)

/-- Make what is an instance's own, no memory being larger than a limit. -/
def makeOwn (limit : Nat) (d : Description) : StoreAct Own := do
  let number ← countInstance
  let memory ← d.memory.mapM (makeMemory limit)
  let table ← d.table.mapM (makeTable number)
  let globals ← makeGlobals d.globals
  return ⟨number, memory, table, globals⟩

/-- Make what is an instance's own, given what its imports stand for, and fill it. -/
def stock (limit : Nat) (d : Description) (imports : List Extern) : StoreAct Own := do
  let own ← makeOwn limit d
  d.elem.forM (fillSlot ⟨imports, own⟩)
  d.data.forM (fillMemory ⟨imports, own⟩)
  return own

end Store

end ModuleHost
