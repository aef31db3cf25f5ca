/-
Steps and scripts.

A script is a list of steps that the guest runs when the host calls it.  The references it
is called with are the variables `$0`, `$1` and `$2` while it runs.  Its first failing step
ends it, and that failure leaves the guest as a trap.

* `Step.run` runs one step; what is lent to it and what has crossed is given up when it
  is over;
* `runScript` runs a script and returns its result.
-/
import ModuleHost.Guest.Memory
import ModuleHost.Scenario.QueueSteps
import ModuleHost.Scenario.SessionSteps

namespace ModuleHost

open Act Play

/-- What a step asks for. -/
inductive Request where
  | value (s : ValueStep)
  | text (s : TextStep)
  | container (s : ContainerStep)
  | function (s : FunctionStep)
  | buffer (s : BufferStep)
  | typed (s : TypedStep)
  | data (s : DataStep)
  | registry (s : RegistryStep)
  | timer (s : TimerStep)
  | table (s : TableStep)
  | session (s : SessionStep)

/-- Serve a request. -/
def Request.run (m : Machine Notebook) : Request → Play Product
  | value s => s.run
  | text s => s.run
  | container s => s.run
  | function s => s.run m
  | buffer s => s.run
  | typed s => s.run
  | data s => s.run
  | registry s => s.run
  | timer s => s.run
  | table s => return .output s.run
  | session s => s.run m

/-- A step of a scenario. -/
inductive Step where
  /-- Serve a request and store its value; a quiet step does not show it. -/
  | request (r : Request) (store : Option String) (quiet : Bool)
  /-- Remove a variable; says whether there was one. -/
  | drop (name : String)
  /-- Run steps so many times, the number of the round being the variable `$i`. -/
  | iterate (rounds : Nat) (steps : List Step)

/-- The value of a product, if it has one. -/
def Product.value? : Product → Option Value
  | value v | found v => some v
  | output _ => none

/-- What is shown of a product. -/
def Product.show (h : Heap) : Product → Output
  | value v => .view (h.view v)
  | found v => .list [.view (h.view v)]
  | output o => o

/-- Store the value of a product and show it. -/
def Product.settle (p : Product) (store : Option String) (quiet : Bool) : Play Output := do
  if let (some name, some v) := (store, p.value?) then assign name v
  if quiet then return .word "quiet"
  return p.show (← heap)

/-- Name of the variable that counts rounds. -/
def roundVariable : String := "$i"

/-- Run a computation for `left` more rounds; the result is that of the last one. -/
def runRounds (body : Play Output) : (round left : Nat) → Output → Play Output
  | _, 0, last => return last
  | round, left + 1, _ => do
    assign roundVariable (.number (.ofNat round))
    let last ← body
    runRounds body (round + 1) left last

mutual

/-- Run a step. -/
def Step.run (m : Machine Notebook) : Step → Play Output
  | .request r store quiet => framed do
    let p ← r.run m
    p.settle store quiet
  | .drop name => framed do
    let present ← hasVariable name
    unset name
    return .truth present
  | .iterate rounds steps => framed do
    let last ← tryCatch (runRounds (Step.runAll m steps) 0 rounds .nothing) fun e => do
      unset roundVariable
      throw e
    unset roundVariable
    return last

/-- Run steps; the result is that of the last one. -/
def Step.runAll (m : Machine Notebook) : List Step → Play Output
  | [] => return .nothing
  | [s] => s.run m
  | s :: rest => do
    let _ ← s.run m
    Step.runAll m rest

end

/-! ### Scripts -/

/-- Scripts by number, and one for every other number. -/
structure ScriptTable where
  numbered : List (Int32 × List Step)
  otherwise : List Step

/-- The script of a number. -/
def ScriptTable.script (t : ScriptTable) (n : Int32) : List Step :=
  (t.numbered.lookup n).getD t.otherwise

/-- What the guest does when it is called. -/
structure Scripts where
  main : List Step
  callback : ScriptTable
  release : ScriptTable
  closure : ScriptTable

/-- A guest that does nothing. -/
def Scripts.none : Scripts := ⟨[], ⟨[], []⟩, ⟨[], []⟩, ⟨[], []⟩⟩

/-- Names of the variables for the references that a script is called with. -/
def scriptVariables : List String := ["$0", "$1", "$2"]

/-- Take a variable away without giving up its handle. -/
def detach (name : String) : Play (Option Value) := do
  let old := (← notebook).bindings.lookup name
  modifyNotebook fun n => { n with bindings := n.bindings.filter (·.1 ≠ name) }
  return old

/-- Put back a variable that was taken away. -/
def attach (name : String) (old : Option Value) : Play Unit := do
  unset name
  if let some v := old then
    modifyNotebook fun n => { n with bindings := (name, v) :: n.bindings }

/-- Do something with a script variable of its own for each of some references; the other
script variables stay what they are. -/
def withScriptVariables {α : Type} (refs : List Value) (x : Play α) : Play α := do
  let names := scriptVariables.take refs.length
  let saved ← names.mapM detach
  let restore : Play Unit := (names.zip saved).forM fun (name, old) => attach name old
  (names.zip refs).forM fun (name, v) => assign name v
  let a ← tryCatch x fun e => do
    restore
    throw e
  restore
  return a

/-- Run the steps of a script, noting the outcome of each. -/
def runScriptSteps (m : Machine Notebook) : List Step → Play Unit
  | [] => pure ()
  | s :: rest => do
    match ← attempt (s.run m) with
    | .ok o => write (.step (.ok o))
    | .error e =>
      write (.step (.error (.ofFault e)))
      throw e
    runScriptSteps m rest

/-- Run a script and return its result, on which the caller gets a handle. -/
def runScript (m : Machine Notebook) (steps : List Step) (refs : List Value) : Play Value := do
  let outer := (← notebook).guest.returned
  modifyGuest fun g => { g with returned := .undefined }
  let back : Play Value := do
    let v := (← notebook).guest.returned
    modifyGuest fun g => { g with returned := outer }
    return v
  tryCatch (withScriptVariables refs (runScriptSteps m steps)) fun e => do
    let v ← back
    modifyHeap (·.release v)
    throw e
  back

/-- Run a script whose result nobody asks for. -/
def runScriptOnly (m : Machine Notebook) (steps : List Step) (refs : List Value) : Play Unit := do
  let v ← runScript m steps refs
  modifyHeap (·.release v)

/-- Values of the references among arguments. -/
def referenced (args : List Val) : Play (List Value) :=
  args.filterMapM fun
    | .ref r => do return some (← arg r)
    | _ => return none

/-- Note that the guest was called. -/
def noteGuest (part : String) (args : List Val) : Play Unit := do
  let h ← heap
  write (.guest part (args.map (.ofVal h)))

/-- Run an own function of the guest. -/
def GuestFunc.run (scripts : Scripts) (m : Machine Notebook) (f : GuestFunc) (args : List Val) :
    Play (List Val) := do
  match f, args with
  | .main, args =>
    noteGuest "main" args
    runScriptOnly m scripts.main (← referenced args)
    return []
  | .callback, [.i32 id] =>
    noteGuest "callback" args
    runScriptOnly m (scripts.callback.script id) []
    return []
  | .release, [.i32 id] =>
    noteGuest "release" args
    runScriptOnly m (scripts.release.script id) []
    return []
  | .closure arity, .i32 id :: _ =>
    noteGuest s!"closure{arity.val}" args
    let v ← runScript m (scripts.closure.script id) (← referenced args)
    return [.ref (← give v)]
  | f, args => f.runPlain m args

end ModuleHost
