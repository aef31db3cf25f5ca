/-
Functions, instances and the table that imports are resolved in.

A `Linker` maps namespace and name to an entity; a later definition replaces an
earlier one.  An `Instance` is what a module exports once it is linked.
-/
import ModuleHost.Host.Table
import ModuleHost.Host.TextBuiltin
import ModuleHost.Wasm.Module

namespace ModuleHost

/-- Where a module has a function of its own: under the name of an export, or in a slot of its
table. -/
inductive Place where
  | named (name : String)
  | slot (index : Nat)
  deriving DecidableEq, Repr

/-- A function that can be called. -/
inductive Func where
  /-- A function of the host table. -/
  | host (f : HostFunc)
  /-- A string builtin. -/
  | builtin (b : TextBuiltin)
  /-- The import that loads a deferred module. -/
  | loadModule
  /-- A function that the embedder supplied. -/
  | supplied (tag : String) (type : FuncType)
  /-- A function of a module's own, of the instance with this number. -/
  | own (number : Nat) (place : Place) (type : FuncType)
  /-- A function that returns a constant. -/
  | const (n : Int32)
  /-- A function that passes its parameters on. -/
  | relay (f : Func)
  deriving DecidableEq, Repr

namespace Func

/-- Type of the function. -/
def type : Func → FuncType
  | host f => f.type
  | builtin b => b.type
  | loadModule => ⟨[.externref], [.externref]⟩
  | supplied _ t => t
  | own _ _ t => t
  | const _ => ⟨[], [.i32]⟩
  | relay f => f.type

end Func

/-- An entity that a module exports or imports; memories, tables and globals by number. -/
inductive Extern where
  | func (f : Func)
  | memory (id : Nat)
  | table (id : Nat)
  | global (id : Nat)
  deriving DecidableEq, Repr

/-- A linked module. -/
structure Instance where
  exports : List (String × Extern)
  deriving DecidableEq, Repr

namespace Instance

/-- The exported function of a name. -/
def func? (i : Instance) (name : String) : Option Func :=
  match i.exports.lookup name with
  | some (.func f) => some f
  | _ => none

/-- The exported memory of a name. -/
def memory? (i : Instance) (name : String) : Option Nat :=
  match i.exports.lookup name with
  | some (.memory id) => some id
  | _ => none

end Instance

/-- A function that the embedder supplies as an import. -/
structure Supplied where
  space : String
  name : String
  func : Func
  deriving DecidableEq, Repr

/-- The table that imports are resolved in, newest definition first. -/
structure Linker where
  definitions : List ((String × String) × Extern)
  deriving Repr

namespace Linker

/-- The table without definitions. -/
def empty : Linker := ⟨[]⟩

/-- Define a name, in place of an earlier definition. -/
def define (l : Linker) (space name : String) (e : Extern) : Linker :=
  ⟨((space, name), e) :: l.definitions⟩

/-- What a name stands for. -/
def resolve? (l : Linker) (space name : String) : Option Extern :=
  l.definitions.lookup (space, name)

/-- Define every function of the host table. -/
def addHost (l : Linker) : Linker :=
  HostFunc.all.foldl (fun l i => l.define HostFunc.space i.name (.func (.host i))) l

/-- Define what the embedder supplies, in order. -/
def addSupplied (l : Linker) (supplied : List Supplied) : Linker :=
  supplied.foldl (fun l s => l.define s.space s.name (.func s.func)) l

/-- Define every string builtin. -/
def addBuiltins (l : Linker) : Linker :=
  TextBuiltin.all.foldl (fun l b => l.define TextBuiltin.space b.name (.func (.builtin b))) l

/-- Define the exports of an instance under a namespace. -/
def addInstance (l : Linker) (space : String) (i : Instance) : Linker :=
  i.exports.foldl (fun l (name, e) => l.define space name e) l

end Linker

end ModuleHost
