/-
The engine: its configuration, what it can do, and compiling.

Before compiling, `Engine.probe` finds out whether the engine knows the string
builtins.  A module compiled with them must import each of its string builtins with
exactly that builtin's type; without them, such imports are like any others.  How an engine
compares types and makes instances is up to the engine; `Engine.standard` is one.
-/
import ModuleHost.Engine.Reader
import ModuleHost.Host.TextBuiltin
import ModuleHost.Wasm.Catalog
import ModuleHost.Wasm.Store

namespace ModuleHost

/-- Configuration of an engine. -/
structure Config where
  referenceTypes : Bool := true
  bulkMemory : Bool := true
  simd : Bool := true
  /-- Whether the engine knows the string builtins. -/
  stringBuiltins : Bool := true
  /-- Whether string builtins that the engine does not know are bound as host functions. -/
  stringPolyfill : Bool := true
  maxMemoryPages : Nat := 16384
  stackSize : Nat := 1048576
  /-- Whether compiled deferred modules are kept by name. -/
  cacheDeferred : Bool := false
  /-- Bytes asked for in one read of a stream. -/
  chunkSize : Nat := 65536
  deriving DecidableEq, Repr

namespace Config

/-- The configuration an engine has when nothing is said. -/
def default : Config := {}

/-- Why the configuration is refused, if it is. -/
def complaint? (c : Config) : Option String :=
  if c.referenceTypes && !c.bulkMemory then
    some "feature 'reference_types' requires 'bulk_memory' to be enabled"
  else if !c.bulkMemory then some "feature 'threads' requires 'bulk_memory' to be enabled"
  else if c.stackSize = 0 then some "max_wasm_stack size cannot be zero"
  else none

/-- Bytes of stack that it takes to enter a module function. -/
def leastStack : Nat := 512

/-- Bytes of the address space, in which a stack has to fit. -/
def addressSpace : Nat := Nat.pow 2 47

/-- Whether the stack has room for a call of a module function. -/
def hasStack (c : Config) : Bool := leastStack ≤ c.stackSize && c.stackSize < addressSpace

end Config

/-- Optional extensions of an engine. -/
structure Capabilities where
  stringBuiltins : Bool
  deriving DecidableEq, Repr

namespace Capabilities

/-- No extensions. -/
def none : Capabilities := ⟨false⟩

/-- Names of the extensions. -/
def names (c : Capabilities) : List String := if c.stringBuiltins then ["STRING_BUILTINS"] else []

/-- Diagnostic form. -/
def describe (c : Capabilities) : String :=
  "Capabilities(" ++ (if c.stringBuiltins then "STRING_BUILTINS" else "0x0") ++ ")"

end Capabilities

/-- An engine: its configuration, the modules whose images it can read, whether the machine that it
runs on stores the least significant byte of a word first, and how it links. -/
structure Engine where
  config : Config
  catalog : Catalog
  littleEndian : Bool
  /-- Why an entity of the second type cannot stand where the first type is declared, if it
  cannot. -/
  misfit? : ImportType → ImportType → Option String
  /-- Make what is an instance's own, given what its imports stand for. -/
  stock : Description → List Extern → StoreAct Own

/-- A compiled module and the extensions it was compiled with. -/
structure Compiled where
  description : Description
  capabilities : Capabilities

namespace Engine

/-- The engine that links as modules are specified to be. -/
def standard (config : Config) (catalog : Catalog) (littleEndian : Bool) : Engine :=
  ⟨config, catalog, littleEndian, ImportType.misfit?, Store.stock config.maxMemoryPages⟩

/-- An engine of a configuration, unless that is refused. -/
def new (config : Config) (catalog : Catalog) (littleEndian : Bool) : Except Report Engine :=
  match config.complaint? with
  | some text => .error (.of text)
  | .none => .ok (standard config catalog littleEndian)

/-- Fails unless the import, if it is of a string builtin, has that builtin's signature. -/
def checkBuiltin (i : Import) : Except Report Unit :=
  if i.space ≠ TextBuiltin.space then .ok ()
  else
    match TextSignature.ofName? i.name, i.type with
    | .none, _ => .error (.of s!"unknown string builtin `{i.name}`")
    | some s, .func t =>
      if s.accepts t then .ok ()
      else .error (.of s!"string builtin `{i.name}` imported with the wrong signature")
    | some _, _ => .error (.of s!"string builtin `{i.name}` must be imported as a function")

/-- The error for a body that is not valid. -/
def invalidBody (f : Flaw) : Report := ⟨"WebAssembly translation error", [f.text]⟩

/-- Compile a module that has been read. -/
def compileModule (e : Engine) (d : Description) (c : Capabilities) : Except Report Unit := do
  if !e.config.referenceTypes then d.checkReferences.mapError Catalog.malformed
  d.checkBodies.mapError invalidBody
  if c.stringBuiltins then
    if !e.config.stringBuiltins then
      throw (.of "string builtins are not enabled on this engine")
    d.imports.forM checkBuiltin

/-- Compile bytes with extensions that have been agreed on. -/
def compile (e : Engine) (bytes : List UInt8) (c : Capabilities) : Except Report Description := do
  let d ← e.catalog.parse bytes
  e.compileModule d c
  return d

/-- The smallest module that imports a string builtin. -/
def probeModule : Description :=
  { Description.empty with
    imports := [⟨TextBuiltin.space, "cast", .func TextBuiltin.cast.type⟩] }

/-- The extensions that the engine supports. -/
def probe (e : Engine) : Capabilities :=
  match e.compileModule probeModule ⟨true⟩ with
  | .ok _ => ⟨true⟩
  | .error _ => .none

end Engine

end ModuleHost
