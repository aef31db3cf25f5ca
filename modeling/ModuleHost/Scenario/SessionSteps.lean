/-
Steps on a session: calls into the guest, driving it, its memory, and what the embedder
can look at.
-/
import ModuleHost.Guest.Plan
import ModuleHost.Scenario.WindowSteps
import ModuleHost.Session.Run

namespace ModuleHost

open Act Play

/-- A step on a session. -/
inductive SessionStep where
  /-- Call what the guest exports again. -/
  | call (name : String) (args : List Operand)
  /-- Call any export of the guest. -/
  | invoke (name : String) (args : List Operand)
  /-- Start the guest. -/
  | main (args : List Literal)
  | callValue (on : Literal) (args : List Literal)
  /-- The wrapper of a closure. -/
  | wrap (closure : Int32) (arity : Nat)
  /-- Pump at so many milliseconds after the session started. -/
  | pump (millis : Nat)
  | microtasks | release | finalizers
  | dispatch (callback : Int32)
  | textTo (s : Literal)
  | textFrom (s : ModuleText)
  | textRound (s : Literal)
  | typedWrite (on : Literal) (address : Nat)
  | typedRead (e : Element) (address length : Nat)
  | memorySize
  | memoryRead (address length : Nat)
  | memoryWord (address width : Nat)
  | memoryWrite (address : Nat) (bytes : List UInt8)
  /-- The guest's exports that are not imports exported again. -/
  | exports
  | loads
  /-- Number of load records, first and last name. -/
  | loadsBrief
  | loadsDescribe
  /-- Call an export of a deferred module that is to have so many results. -/
  | deferredCall (name exportName : String) (args : List Operand) (results : Nat)
  | console
  | globals
  | capabilities
  /-- Set a list of the guest. -/
  | list (id : Int32) (items : List Literal) (length : Option Int32)
  /-- Set what the running script returns. -/
  | result (v : Literal)
  | fail (message : String)

/-- Most callbacks of one step. -/
def callbackBudget : Nat := 1000000

/-- The product of a call: one reference is a value. -/
def resultProduct (results : List Val) : Play Product := do
  match results with
  | [.ref r] => return .value (← arg r)
  | results => return .output (.ofResults (← heap) results)

/-- The arguments that operands stand for. -/
def evalOperands : List Operand → Play (List Val)
  | [] => return []
  | o :: rest => do
    let v ← o.eval
    return v :: (← evalOperands rest)

/-- A string in the guest. -/
def moduleTextOutput (s : ModuleText) : Output :=
  .record [("handle", .int32 s.handle), ("length", .nat s.length), ("width", .word s.width.name)]

/-- Run a step on the exported memory, if the guest exports one. -/
def onMemory (f : Play Output) : Play Product := do
  match (← session).memory with
  | none => return .output (.word "no memory")
  | some _ => return .output (← f)

/-- A load record. -/
def recordOutput (r : LoadRecord) : Output :=
  .record [("name", .word r.name), ("state", .word r.state.name),
    ("terminal", .truth r.state.isTerminal), ("caps", .words r.capabilities.names),
    ("linked", .truth r.linked.isSome), ("error", .optional (r.error.map .word))]

/-- Diagnostic form of a load record. -/
def LoadRecord.describe (r : LoadRecord) : String :=
  let error := match r.error with
    | none => "None"
    | some text => s!"Some({Quoted.string text})"
  s!"DeferredLoadRecord \x7b name: {Quoted.string r.name}, state: {r.state.name}, capabilities: " ++
    s!"{r.capabilities.describe}, linked: {r.linked.isSome}, error: {error} \x7d"

/-- Name of the way in which string builtins are bound. -/
def TextBinding.name : TextBinding → String
  | .native => "Native"
  | .polyfill => "Polyfill"
  | .absent => "Absent"

/-- Run a step on a session. -/
def SessionStep.run (m : Machine Notebook) : SessionStep → Play Product
  | .call name args => do
    let args ← evalOperands args
    resultProduct (← callExport m (reexportName name) args)
  | .invoke name args => do
    let args ← evalOperands args
    resultProduct (← callExport m name args)
  | .main args => do
    let args ← Literal.evalAll args
    runMain m callbackBudget args
    return noProduct
  | .callValue on args => do
    let f ← functionOf on
    let args ← Literal.evalAll args
    freshProduct (← ModuleHost.callValue m f args)
  | .wrap closure arity => do
    freshProduct (.function (← onHeap (·.wrap .session ⟨closure, arity⟩)))
  | .pump millis => do
    return .output (.nat (← ModuleHost.pump m callbackBudget (millis * millisecond)))
  | .microtasks => do return .output (.nat (← drainMicrotasks m callbackBudget))
  | .release => do return .output (.nat (← announceOrphans m))
  | .finalizers => do return .output (.nat (← runCleanups m))
  | .dispatch callback => do
    runCallback m callback
    return noProduct
  | .textTo s => do
    let s ← textOf s
    return .output (moduleTextOutput (← sendText m s))
  | .textFrom s => do return .value (.string (← receiveText m s))
  | .textRound s => do
    let s ← textOf s
    let t ← sendText m s
    let back ← receiveText m t
    return .output <| .list [.int32 t.handle, .nat t.length, .word t.width.name,
      .truth (back = s)]
  | .typedWrite on address => do
    let v ← typedOf on
    writeTypedArray v address
    return noProduct
  | .typedRead e address length => do return .value (← readTypedArray e address length)
  | .memorySize => onMemory do
    let memory ← memoryAt (← requireMemory)
    return .list [.nat memory.size, .nat memory.pages]
  | .memoryRead address length => onMemory do
    return .bytes (← readMemory address length)
  | .memoryWord address width => onMemory do
    return .nat (ofLeBytes (← readMemory address width))
  | .memoryWrite address bytes => onMemory do
    writeMemory address bytes
    return .nothing
  | .exports => do
    let names := (← primary).exports.map (·.1)
    return .output (.words (names.filter fun n => !n.toList.contains '.'))
  | .loads => do return .output (.list ((← session).deferred.records.map recordOutput))
  | .loadsBrief => do
    let records := (← session).deferred.records
    let name (r : Option LoadRecord) : Output := .optional (r.map fun r => .word r.name)
    return .output (.list [.nat records.length, name records.head?, name records.getLast?])
  | .loadsDescribe => do
    return .output (.words ((← session).deferred.records.map LoadRecord.describe))
  | .deferredCall name exportName args results => do
    match ← deferredInstance? name with
    | none => return .output (.word "not linked")
    | some i =>
      match i.func? exportName with
      | none => return .output (.word "no export")
      | some f =>
        let args ← evalOperands args
        let results ← callFunc m f args results
        let h ← heap
        return .output (.list (results.map (.ofVal h)))
  | .console => do return .output (.words (← session).console.toList)
  | .globals => do
    let id := (← session).globals
    lend (.object id)
    return .value (.object id)
  | .capabilities => do
    let s ← session
    return .output <| .record [("caps", .words s.capabilities.names),
      ("module", .words s.capabilities.names), ("strings", .word s.binding.name),
      ("memory", .truth s.memory.isSome)]
  | .list id items length => do
    let items ← Literal.evalAll items
    setList id ⟨items, length.getD (Int32.ofNat items.length)⟩
    return noProduct
  | .result v => do
    let v ← v.eval
    setReturned v
    return noProduct
  | .fail message => throw (.text message)

end ModuleHost
