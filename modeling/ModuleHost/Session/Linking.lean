/-
Linking: resolving the imports of a module and making an instance.

All imports are looked up before any is checked, so a missing one is reported before a
wrong one.  Then the engine makes what is the instance's own, and the start function runs.  What
has been changed before a failure stays changed.

* `checkDeclarations` checks the declarations of host functions by name and number of
  parameters, before linking;
* `makeInstance` links a module against a linker;
* `Engine.compileReader` compiles what is read from a stream;
* `linkPrimary` links the module of a session, after which deferred modules can be
  linked against its exports;
* `openModule` checks the declarations of the module of a session and links it.
-/
import ModuleHost.Session.State

namespace ModuleHost

open Act

variable {γ : Type}

/-! ### Declarations of host functions -/

/-- Check a declaration against the host table.  What the embedder supplies is not checked
here. -/
def checkDeclaration (supplied : List Supplied) (i : Import) : Except LinkError Unit :=
  if i.space ≠ HostFunc.space then .ok ()
  else if supplied.any fun s => s.space = i.space && s.name = i.name then .ok ()
  else
    match HostFunc.ofName? i.name, i.type with
    | none, _ => .error (.unknownHostImport i.name)
    | some f, .func t =>
      if t.params.length = f.arity then .ok ()
      else .error (.arityMismatch i.name f.arity t.params.length)
    | some _, _ => .error (.notAFunction i.name)

/-- Check all declarations, in order. -/
def checkDeclarations (supplied : List Supplied) (imports : List Import) : Except LinkError Unit :=
  imports.forM (checkDeclaration supplied)

/-! ### Resolution -/

/-- The error for an import that is not defined. -/
def undefinedImport (i : Import) : Report :=
  .of s!"unknown import: `{i.space}::{i.name}` has not been defined"

/-- The error for an import of another type. -/
def incompatibleImport (i : Import) (cause : String) : Report :=
  ⟨s!"incompatible import type for `{i.space}::{i.name}`", [cause]⟩

/-- What an import stands for. -/
def Linker.resolveImport (l : Linker) (i : Import) : Except Report Extern :=
  match l.resolve? i.space i.name with
  | some e => .ok e
  | none => .error (undefinedImport i)

/-- What some imports stand for, in order. -/
def Linker.resolveAll (l : Linker) (imports : List Import) : Except Report (List Extern) :=
  imports.mapM l.resolveImport

/-- Fails unless each entity is of the type its import declares. -/
def checkTypes (s : Session) (resolved : List (Import × Extern)) : Except Report Unit :=
  resolved.forM fun (i, e) =>
    match s.engine.misfit? i.type (s.store.typeOf e) with
    | some cause => .error (incompatibleImport i cause)
    | none => .ok ()

/-! ### Making an instance -/

/-- Go on unless something has been refused. -/
def accept {α : Type} (x : Except Report α) : Act γ α :=
  match x with
  | .ok a => pure a
  | .error r => throw (.failed r)

/-- A start argument as a value. -/
def StartArg.toVal : StartArg → Val
  | .i32 n => .i32 n
  | .null => .ref .null

/-- Run the start function. -/
def runStart (m : Machine γ) (p : Parts) : StartDecl → Act γ Unit
  | .unreachable => throw (.trap .unreachable)
  | .call index args =>
    match funcAt? p.imports index with
    | some f => do
      takeStack
      let _ ← m.call f (args.map StartArg.toVal)
    | none => throw (.trap .unreachable)

/-- A failure of a start function, whose own message is a backtrace. -/
def startFailure (e : Fault) : Fault := .failed ⟨backtraceMark, e.report.chain⟩

/-- Run the start function and report its failure as such. -/
def startInstance (m : Machine γ) (p : Parts) (s : StartDecl) : Act γ Unit := do
  match ← attempt (runStart m p s) with
  | .ok _ => pure ()
  | .error e => throw (startFailure e)

/-- Make an instance of a module whose imports are known. -/
def instantiate (m : Machine γ) (d : Description) (imports : List Extern) : Act γ Instance := do
  let own ← onStore ((← session).engine.stock d imports)
  let parts : Parts := ⟨imports, own⟩
  d.start.forM (startInstance m parts)
  return parts.toInstance d.exports

/-- Link a module and make an instance of it. -/
def makeInstance (m : Machine γ) (l : Linker) (d : Description) : Act γ Instance := do
  let imports ← accept (l.resolveAll d.imports)
  accept (checkTypes (← session) (d.imports.zip imports))
  instantiate m d imports

/-! ### Compiled modules -/

/-- Compile bytes with what the engine turns out to support. -/
def Engine.compileProbed (e : Engine) (bytes : List UInt8) : Except EmbedderError Compiled :=
  match e.compile bytes e.probe with
  | .ok d => .ok ⟨d, e.probe⟩
  | .error r => .error (.compile r)

/-- Compile what a reader gives, read to the end. -/
def Engine.compileReader (e : Engine) (r : Reader) : Except EmbedderError Compiled := do
  let bytes ← (r.drain e.config.chunkSize).mapError .source
  e.compileProbed bytes

/-! ### The module of a session -/

/-- Namespace of the import that loads deferred modules. -/
def deferredSpace : String := "deferred"

/-- Name of the import that loads deferred modules. -/
def loadModuleName : String := "loadModule"

/-- Namespace under which deferred modules import from the primary instance. -/
def primarySpace : String := "module0"

/-- How a session binds the string builtins. -/
def bindingOf (c : Capabilities) (config : Config) : TextBinding :=
  if c.stringBuiltins then .native else if config.stringPolyfill then .polyfill else .absent

/-- What every module of a session can import. -/
def sharedLinker (binding : TextBinding) (supplied : List Supplied) : Linker :=
  let l := Linker.empty.addHost.addSupplied supplied
  match binding with
  | .native | .polyfill => l.addBuiltins
  | .absent => l

/-- What the module of a session is linked against. -/
def primaryLinker (shared : Linker) : Linker :=
  shared.define deferredSpace loadModuleName (.func .loadModule)

/-- What deferred modules are linked against. -/
def deferredLinker (shared : Linker) (i : Instance) : Linker := shared.addInstance primarySpace i

/-- A session whose module is not linked yet. -/
def Session.new (e : Engine) (c : Capabilities) (loader : Option Loader) : Session :=
  let (globals, heap) := (Heap.empty e.littleEndian).newObject
  { heap, globals
    lent := []
    crossed := []
    engine := e
    capabilities := c
    binding := bindingOf c e.config
    primary := none
    memory := none
    instances := 0
    memories := []
    tables := []
    cells := []
    deferred := ⟨loader, none, [], if e.config.cacheDeferred then some [] else none, []⟩
    timers := .empty
    finalizers := []
    console := #[]
    clock := 0 }

/-- Link the module of a session. -/
def linkPrimary (m : Machine γ) (d : Description) (supplied : List Supplied) : Act γ Unit := do
  let shared := sharedLinker (← session).binding supplied
  let i ← makeInstance m (primaryLinker shared) d
  modifySession fun s =>
    { s with
      primary := some i
      memory := i.memory? "memory"
      deferred := { s.deferred with linker := some (deferredLinker shared i) } }

/-- Open a module in a new session: check its declarations of host functions, then link it.  Every
failure to link is a result; only a panic or a cut-off is none. -/
def openModule (m : Machine γ) (d : Description) (supplied : List Supplied) :
    Act γ (Except LinkError Unit) :=
  match checkDeclarations supplied d.imports with
  | .error error => return .error error
  | .ok _ => do
    match ← attempt (linkPrimary m d supplied) with
    | .ok _ => return .ok ()
    | .error f => return .error (.unresolved f.report)

end ModuleHost
