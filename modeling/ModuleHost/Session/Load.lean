/-
Deferred loading.

A request fetches, compiles and links a module by name and leaves a record behind,
whatever its outcome.  A request that fails gives the module an error value; it does not
end the call.  Compiled modules are kept by name if the configuration asks for it, and
then the loader is not asked again.

* `load` serves one request: its record and the linked instance or the error;
* `loadModule` is the import that modules call.
-/
import ModuleHost.Session.Linking

namespace ModuleHost

open Act

variable {γ : Type}

/-! ### Records -/

/-- Most records that are kept. -/
def recordLimit : Nat := 256

namespace LoadRecord

/-- The record of a request that has not begun. -/
def begin (name : String) (capabilities : Capabilities) : LoadRecord :=
  ⟨name, .idle, capabilities, none, none⟩

/-- Go to the next state. -/
def advance (r : LoadRecord) (next : LoadState) : Except LoadError LoadRecord :=
  if r.state.canAdvance next then .ok { r with state := next }
  else .error (.invalidTransition r.state next)

/-- The record of a request that has failed. -/
def fail (r : LoadRecord) (e : LoadError) : LoadRecord :=
  { r with
    state := if r.state.isTerminal then r.state else .failed
    error := some e.message }

end LoadRecord

namespace DeferredLoads

/-- Add a record; of too many the oldest are dropped. -/
def push (d : DeferredLoads) (r : LoadRecord) : DeferredLoads :=
  let records := d.records ++ [r]
  { d with records := records.drop (records.length - recordLimit) }

/-- The compiled module that is kept under a name. -/
def cached? (d : DeferredLoads) (name : String) : Option Description :=
  d.cache.bind (·.lookup name)

/-- Keep a compiled module, if modules are kept. -/
def keep (d : DeferredLoads) (name : String) (module : Description) : DeferredLoads :=
  { d with cache := d.cache.map ((name, module) :: ·) }

/-- Remember that the loader is asked for a name. -/
def ask (d : DeferredLoads) (name : String) : DeferredLoads :=
  { d with asked := d.asked ++ [name] }

/-- The newest linked instance of a module. -/
def newest? (d : DeferredLoads) (name : String) : Option Instance :=
  d.records.reverse.findSome? fun r =>
    if r.name = name && r.state = .linked then r.linked else none

end DeferredLoads

/-! ### A request -/

/-- A computation of a request: it may fail, and its record is kept. -/
abbrev Loading (γ α : Type) := ExceptT LoadError (StateT LoadRecord (Act γ)) α

namespace Loading

/-- Part of a request that may be refused. -/
def ofExcept {α : Type} (x : Except LoadError α) : Loading γ α := ExceptT.mk (pure x)

/-- Part of a request that works on the session. -/
def onSession {α : Type} (x : Act γ α) : Loading γ α := ExceptT.lift (StateT.lift x)

/-- The record as it stands. -/
def record : Loading γ LoadRecord := ExceptT.lift get

/-- Go to the next state. -/
def advance (next : LoadState) : Loading γ Unit := do
  let r ← ofExcept ((← record).advance next)
  ExceptT.lift (set r)

/-- Ask the loader for a module. -/
def fetch (m : Machine γ) (name : String) : Loading γ Source := do
  let deferred := (← onSession session).deferred
  match deferred.loader with
  | none => ofExcept (.error .noLoader)
  | some loader =>
    onSession <| modifySession fun s => { s with deferred := s.deferred.ask name }
    match loader.load deferred.asked name with
    | .ok source =>
      onSession <| m.note <| .load name <| match source with
        | .bytes _ => .bytes
        | .stream _ => .stream
      return source
    | .error report =>
      onSession (m.note (.load name .refused))
      ofExcept (.error (.fetch report))

/-- Fetch and compile a module that is not kept. -/
def compileNew (m : Machine γ) (name : String) : Loading γ Description := do
  let source ← fetch m name
  advance .compiling
  let engine := (← onSession session).engine
  let bytes ← ofExcept ((source.read engine.config.chunkSize).mapError .source)
  let module ← ofExcept ((engine.compile bytes (← record).capabilities).mapError .compile)
  onSession <| modifySession fun s => { s with deferred := s.deferred.keep name module }
  return module

/-- The compiled module of a name. -/
def compiled (m : Machine γ) (name : String) : Loading γ Description := do
  match (← onSession session).deferred.cached? name with
  | some module =>
    advance .compiling
    return module
  | none => compileNew m name

/-- Link a compiled module. -/
def link (m : Machine γ) (module : Description) : Loading γ Instance := do
  match (← onSession session).deferred.linker with
  | none => ofExcept (.error (.link (.of "primary instance is not linked")))
  | some linker =>
    let linked ← onSession (attempt (makeInstance m linker module))
    ofExcept (linked.mapError fun e => .link e.report)

/-- All steps of a request. -/
def serve (m : Machine γ) (name : String) : Loading γ Instance := do
  advance .fetching
  let module ← compiled m name
  advance .linking
  let i ← link m module
  advance .linked
  ExceptT.lift (modify fun r => { r with linked := some i })
  return i

end Loading

/-- Serve a request and keep its record. -/
def load (m : Machine γ) (name : String) : Act γ (Except LoadError Instance) := do
  let begun := LoadRecord.begin name (← session).capabilities
  let (outcome, r) ← (ExceptT.run (Loading.serve m name)).run begun
  let r := match outcome with
    | .ok _ => r
    | .error e => r.fail e
  modifySession fun s => { s with deferred := s.deferred.push r }
  return outcome

/-- Load the module named by a string: the linked module or an error value. -/
def loadModule (m : Machine γ) (name : Reference) : Act γ Reference := do
  let name := (← orFail (← arg name).expectString).toString
  match ← load m name with
  | .ok _ => give (.linkedModule (← onHeap (·.newModule name)))
  | .error e => give (.error (← onHeap (·.newError (.load e))))

end ModuleHost
