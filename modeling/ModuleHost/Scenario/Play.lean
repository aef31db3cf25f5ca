/-
Whole scenarios.

A scenario is played from a clean state.  `SessionPlan.play` links the guest and runs steps
on it, `playValues` runs steps without a guest, and `LinkPlan.play` reports on linking
one module.

* `machine` runs the scripts of a guest, up to a depth at which the stack is exhausted.
-/
import ModuleHost.Scenario.Step
import ModuleHost.Session.Machine

namespace ModuleHost

open Act Play

/-! ### The machine -/

/-- Deepest nesting of calls. -/
def maxDepth : Nat := 2000

/-- Result of a supplied function for one result type: an integer argument plus one, the
reference argument itself, or a constant. -/
def suppliedResult (args : List Val) : ValType → Play Val
  | .externref =>
    match args with
    | .ref (.host v) :: _ => return .ref (← giveStored v)
    | .ref r :: _ => return .ref r
    | _ => return .ref .null
  | _ =>
    match args with
    | .i32 n :: _ => return .i32 (n + 1)
    | .ref _ :: _ => return .i32 5
    | _ => return .i32 77

/-- Run a function that the embedder supplied; some run scripts. -/
def runSupplied (scripts : Scripts) (m : Machine Notebook) (tag : String) (t : FuncType)
    (args : List Val) : Play (List Val) := do
  match GuestPlan.scriptFunction? tag with
  | some f => f.run scripts m args
  | none =>
    let h ← heap
    write (.supplied tag (args.map (.ofVal h)))
    t.results.mapM (suppliedResult args)

/-- Run a function of the guest's own; no other module has any.  The function that only traps takes
no stack, and those that only the table holds do nothing. -/
def runOwn (p : GuestPlan) (scripts : Scripts) (m : Machine Notebook) (place : Place)
    (args : List Val) : Play (List Val) := do
  match place with
  | .slot _ => return []
  | .named name =>
    match p.function? name with
    | none => return []
    | some f =>
      let broken := p.broken.contains name
      if broken || f ≠ .trap then takeStack
      if broken then return [.i64 7]
      f.run scripts m args

/-- What the guest, the functions supplied to it and native functions do. -/
def guestCode (p : GuestPlan) (scripts : Scripts) : Code Notebook where
  own m _ := runOwn p scripts m
  supplied := runSupplied scripts
  native := runNative
  note e := write (.event e)

/-- The machine that runs the guest, for calls nested at most `depth` deep. -/
def machine (p : GuestPlan) (scripts : Scripts) (depth : Nat) : Machine Notebook :=
  (guestCode p scripts).machine depth

/-! ### Playing steps -/

/-- Run a computation to its outcome. -/
def outcomeOf (x : Play Output) (w : World Notebook) : Except Problem Output × World Notebook :=
  match x w with
  | .ok o w => (.ok o, w)
  | .error e w => (.error (.ofFault e), w)

/-- Run one step and take the journal. -/
def playStep (m : Machine Notebook) (s : Step) (w : World Notebook) : Answer × World Notebook :=
  let (outcome, w) := outcomeOf (s.run m) w
  (⟨outcome, w.guest.journal.toList⟩, { w with guest := { w.guest with journal := #[] } })

/-- Run steps, also after one that failed. -/
def playSteps (m : Machine Notebook) : List Step → World Notebook → List Answer
  | [], _ => []
  | s :: rest, w =>
    let (a, w) := playStep m s w
    a :: playSteps m rest w

/-- The world in which nothing is linked. -/
def blankWorld : World Notebook :=
  ⟨.new (.standard .default ⟨[]⟩ true) .none none, .empty⟩

/-- Run steps without a guest. -/
def playValues (steps : List Step) : List Answer :=
  playSteps (machine .standard .none maxDepth) steps blankWorld

/-! ### Modules and loaders -/

/-- A module as a scenario gives it: bytes or a description. -/
inductive Blueprint where
  | raw (bytes : List UInt8)
  | described (d : Description)

namespace Blueprint

/-- The bytes of the module. -/
def bytes : Blueprint → List UInt8
  | raw b => b
  | described d => d.image

/-- What the bytes stand for, if that is known. -/
def entry? : Blueprint → Option (List UInt8 × Description)
  | raw _ => none
  | described d => some (d.image, d)

end Blueprint

/-- A catalog of some modules. -/
def catalogOf (modules : List Blueprint) : Catalog := ⟨modules.filterMap Blueprint.entry?⟩

/-- A loader as a scenario gives it. -/
inductive LoaderPlan where
  | static (modules : List (String × Blueprint))
  | streams (modules : List (String × Blueprint)) (d : Reader.Delivery)
  | directory (modules : List (String × Blueprint))
  | refusing (r : Report)

namespace LoaderPlan

/-- The modules that the loader can find. -/
def modules : LoaderPlan → List (String × Blueprint)
  | static ms | streams ms _ | directory ms => ms
  | refusing _ => []

/-- Names with bytes. -/
def images (ms : List (String × Blueprint)) : List (String × List UInt8) :=
  ms.map fun (name, b) => (name, b.bytes)

/-- Path of the directory that holds some modules; without any it does not exist. -/
def directoryRoot (ms : List (String × Blueprint)) : String :=
  if ms.isEmpty then "no_such_dir" else "modules"

/-- The loader. -/
def loader : LoaderPlan → Loader
  | static ms => .static (images ms)
  | streams ms d => .streams (images ms) d
  | directory ms => .directory (directoryRoot ms) (images ms)
  | refusing r => .refusing r

end LoaderPlan

/-! ### Linking -/

/-- Link a compiled module into a new session. -/
def openSession (m : Machine Notebook) (e : Engine) (c : Compiled) (supplied : List Supplied)
    (loader : Option LoaderPlan) : Except Problem Unit × World Notebook :=
  let w : World Notebook := ⟨.new e c.capabilities (loader.map LoaderPlan.loader), .empty⟩
  match openModule m c.description supplied w with
  | .ok (.ok _) w => (.ok (), w)
  | .ok (.error error) w => (.error (.error (.link error)), w)
  | .error f w => (.error (.ofFault f), w)

/-! ### Sessions -/

/-- A scenario with a guest. -/
structure SessionPlan where
  config : Config
  guest : GuestPlan
  scripts : Scripts
  supplied : List Supplied
  loader : Option LoaderPlan
  steps : List Step

/-- Make an engine. -/
def newEngine (config : Config) (catalog : Catalog) : Except EmbedderError Engine :=
  (Engine.new config catalog true).mapError .config

/-- Play a scenario with a guest. -/
def SessionPlan.play (p : SessionPlan) : Except Problem (List Answer) := do
  let guest := Blueprint.described p.guest.description
  let catalog := catalogOf (guest :: ((p.loader.map LoaderPlan.modules).getD []).map (·.2))
  let engine ← (newEngine p.config catalog).mapError .error
  let compiled ← (engine.compileProbed guest.bytes).mapError .error
  let m := machine p.guest p.scripts maxDepth
  let (opened, w) := openSession m engine compiled (p.supplied ++ GuestPlan.supplied) p.loader
  opened
  return playSteps m p.steps w

/-! ### Reports on linking -/

/-- How the module of a report is compiled. -/
inductive CompileMode where
  /-- From bytes. -/
  | buffered
  /-- From a stream. -/
  | streamed (d : Reader.Delivery)
  /-- From bytes, with these extensions. -/
  | agreed (c : Capabilities)
  /-- From a stream, with the standard configuration. -/
  | streamedStandard (d : Reader.Delivery)

/-- A scenario that links one module. -/
structure LinkPlan where
  config : Config
  module : Blueprint
  mode : CompileMode
  supplied : List Supplied
  loader : Option LoaderPlan
  /-- Exports to call without arguments. -/
  calls : List String

/-- Compile the module of a report: the engine it belongs to and the module. -/
def LinkPlan.compile (p : LinkPlan) (engine : Engine) :
    Except EmbedderError (Engine × Compiled) := do
  match p.mode with
  | .buffered => return (engine, ← engine.compileProbed p.module.bytes)
  | .streamed d => return (engine, ← engine.compileReader (.delivering d p.module.bytes))
  | .agreed c =>
    match engine.compile p.module.bytes c with
    | .ok d => return (engine, ⟨d, c⟩)
    | .error r => throw (.compile r)
  | .streamedStandard d =>
    let standard ← newEngine .default engine.catalog
    return (standard, ← standard.compileReader (.delivering d p.module.bytes))

/-- What can be said of supplied functions after each one is added. -/
def suppliedReport (supplied : List Supplied) : List Output :=
  let has (present : List Supplied) (space name : String) : Bool :=
    present.any fun s => s.space = space && s.name = name
  supplied.mapIdx fun i s =>
    let present := supplied.take (i + 1)
    .list [.truth (has present s.space s.name), .truth (has present s.name s.space),
      .nat present.length, .truth present.isEmpty]

/-- What can be said of a linked session. -/
def instanceReport (s : Session) : Output :=
  let pages := s.memory.map fun id => ((s.memories[id]?).getD default).pages
  .record [("capabilities", .words s.capabilities.names), ("strings", .word s.binding.name),
    ("exports", .words ((s.primary.map fun i => i.exports.map (·.1)).getD [])),
    ("memory_pages", .optional (pages.map .nat)), ("console", .words s.console.toList)]

/-- Call an export without arguments. -/
def callReport (m : Machine Notebook) (name : String) : Play Output := framed do
  let results ← callExport m name []
  let h ← heap
  return .list (results.map (.ofVal h))

/-- Call exports one after the other. -/
def callReports (m : Machine Notebook) : List String → World Notebook →
    List (Except Problem Output) × World Notebook
  | [], w => ([], w)
  | name :: rest, w =>
    let (outcome, w) := outcomeOf (callReport m name) w
    let (outcomes, w) := callReports m rest w
    (outcome :: outcomes, w)

/-- What can be said of linking one module. -/
structure LinkReport where
  /-- What was found out before linking. -/
  compiled : List (String × Output)
  /-- What was found out of the instance. -/
  linked : Except Problem Output
  calls : List (Except Problem Output)
  journal : List Entry

/-- Link one module and report. -/
def LinkPlan.play (p : LinkPlan) : Except Problem LinkReport := do
  let loaded := ((p.loader.map LoaderPlan.modules).getD []).map (·.2)
  let first ← (newEngine p.config (catalogOf (p.module :: loaded))).mapError .error
  let (engine, compiled) ← (p.compile first).mapError .error
  let validated := match p.mode with
    | .agreed _ => [("validate", Output.word "ok")]
    | _ => []
  let facts := [("probe", .words first.probe.names)] ++ validated ++
    [("capabilities", .words compiled.capabilities.names),
      ("imports", .list (compiled.description.imports.map fun i => .words [i.space, i.name])),
      ("exports", .words compiled.description.exportNames),
      ("debug", .word
        s!"CompiledModule \x7b capabilities: {compiled.capabilities.describe} \x7d"),
      ("overrides", .list (suppliedReport p.supplied)),
      ("options", .word
        s!"InstantiateOptions \x7b load_deferred_wasm: {p.loader.isSome} \x7d")]
  let m := machine .standard .none maxDepth
  let (opened, w) := openSession m engine compiled p.supplied p.loader
  match opened with
  | .error e => return ⟨facts, .error e, [], w.guest.journal.toList⟩
  | .ok _ =>
    let report := instanceReport w.session
    let (calls, w) := callReports m p.calls w
    return ⟨facts, .ok report, calls, w.guest.journal.toList⟩

end ModuleHost
