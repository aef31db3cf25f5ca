/-
The state of a session, and computations on it.

A computation may fail; what it changed before it failed stays changed.  `World` is
the session together with whatever module and embedder keep for themselves, and `Machine`
is what a session needs from outside: running a function of a module, running a native
function of the embedder, and a place to note events.
Everything that re-enters module code takes a machine as a parameter, so what is
proved of it holds for every module.

A value stays alive while somebody has a handle on it.  What a running step works with is
lent to it until the step is over.  What crosses between host and module is kept until
the next sweep: there is one after every step and one before releases and before
cleanup calls, so a value that only crossed may outlive the call it came from but
not the step.
-/
import ModuleHost.Deferred.Loader
import ModuleHost.Engine.Compile
import ModuleHost.Session.Fault
import ModuleHost.Timer.Queue
import ModuleHost.Value.View
import ModuleHost.Wasm.Store

namespace ModuleHost

/-- How the string builtins are bound. -/
inductive TextBinding where
  /-- The engine knows them; types were checked when compiling. -/
  | native
  /-- As ordinary host functions. -/
  | polyfill
  /-- Not at all. -/
  | absent
  deriving DecidableEq, Repr

/-- Record of one load request. -/
structure LoadRecord where
  name : String
  state : LoadState
  capabilities : Capabilities
  linked : Option Instance
  error : Option String
  deriving DecidableEq, Repr

/-- Deferred loading in a session. -/
structure DeferredLoads where
  loader : Option Loader
  /-- What deferred modules are linked against, once the primary instance is linked. -/
  linker : Option Linker
  /-- Requests that are over, oldest first. -/
  records : List LoadRecord
  /-- Compiled modules by name, if they are kept. -/
  cache : Option (List (String × Description))
  /-- Names that the loader has been asked for, oldest first. -/
  asked : List String

/-- The state of a session. -/
structure Session where
  heap : Heap
  /-- Handles of the running step, given up when it is over. -/
  lent : List Value
  /-- Handles on what has crossed between host and module since the last sweep. -/
  crossed : List Value
  engine : Engine
  capabilities : Capabilities
  binding : TextBinding
  primary : Option Instance
  /-- The memory that the primary instance exports. -/
  memory : Option Nat
  /-- Number of instances made so far. -/
  instances : Nat
  memories : List Memory
  tables : List (List (Option Func))
  /-- The globals of modules. -/
  cells : List GlobalCell
  deferred : DeferredLoads
  timers : TimerQueue
  /-- Finalization registries, in order of creation. -/
  finalizers : List Nat
  console : Array String
  /-- The object of globals. -/
  globals : Nat
  /-- The clock: nanoseconds since the session started, later at each reading. -/
  clock : Nat

namespace Session

/-- The store of a session. -/
def store (s : Session) : Store := ⟨s.instances, s.memories, s.tables, s.cells⟩

/-- The same session with another store. -/
def withStore (s : Session) (st : Store) : Session :=
  { s with
    instances := st.instances
    memories := st.memories
    tables := st.tables
    cells := st.cells }

end Session

/-- How a loader answered. -/
inductive LoaderAnswer where
  | bytes | stream | refused
  deriving DecidableEq, Repr

/-- Something that a session has noted. -/
inductive Event where
  /-- A native function has noted its arguments. -/
  | native (args : List View)
  /-- A loader was asked. -/
  | load (name : String) (answer : LoaderAnswer)

/-- A session and what its module and its embedder keep for themselves. -/
structure World (γ : Type) where
  session : Session
  guest : γ

/-- A computation on a world; what it changed before a fault stays changed. -/
abbrev Act (γ α : Type) := EStateM Fault (World γ) α

/-- A computation that works with values and has no session to reach a module through. -/
abbrev ValueAct (γ α : Type) := EStateM Fault (Heap × γ) α

/-- What a session needs from outside. -/
structure Machine (γ : Type) where
  /-- Run a function whose arguments have been checked; its results have crossed. -/
  call : Func → List Val → Act γ (List Val)
  /-- Run the native function with a number; the caller gets a handle on its result. -/
  native : Nat → List Value → Act γ Value
  note : Event → Act γ Unit

namespace Act

variable {γ α : Type}

/-- The session. -/
def session : Act γ Session := return (← get).session

/-- The heap. -/
def heap : Act γ Heap := return (← get).session.heap

/-- Change the session. -/
def modifySession (f : Session → Session) : Act γ Unit :=
  modify fun w => { w with session := f w.session }

/-- Change the heap. -/
def modifyHeap (f : Heap → Heap) : Act γ Unit :=
  modifySession fun s => { s with heap := f s.heap }

/-- A computation on values, in a session. -/
def onValues (x : ValueAct γ α) : Act γ α := fun w =>
  match x (w.session.heap, w.guest) with
  | .ok a (h, g) => .ok a ⟨{ w.session with heap := h }, g⟩
  | .error e (h, g) => .error e ⟨{ w.session with heap := h }, g⟩

/-- A computation on the store, in a session. -/
def onStore (x : StoreAct α) : Act γ α := fun w =>
  match x w.session.store with
  | .ok a st => .ok a ⟨w.session.withStore st, w.guest⟩
  | .error r st => .error (.failed r) ⟨w.session.withStore st, w.guest⟩

/-- A conversion that may fail. -/
def orFail (x : Except ConversionError α) : Act γ α :=
  match x with
  | .ok a => pure a
  | .error e => throw (.marshal e)

/-- Run an operation of the heap. -/
def onHeap (f : Heap → α × Heap) : Act γ α := do
  let (a, h) := f (← heap)
  modifyHeap fun _ => h
  return a

/-- Run an operation of the heap that may fail, and then changes nothing. -/
def tryHeap (f : Heap → Except ConversionError (α × Heap)) : Act γ α := do
  let (a, h) ← orFail (f (← heap))
  modifyHeap fun _ => h
  return a

/-- Run an operation of the heap without a result that may fail, and then changes nothing. -/
def tryChange (f : Heap → Except ConversionError Heap) : Act γ Unit := do
  let h ← orFail (f (← heap))
  modifyHeap fun _ => h

/-- Some handles and one more; a value without a payload needs none. -/
def withHandle (handles : List Value) (v : Value) : List Value :=
  if v.target?.isSome then handles ++ [v] else handles

/-- Give a handle to the running step. -/
def hand (v : Value) : Act γ Unit :=
  modifySession fun s => { s with lent := withHandle s.lent v }

/-- Lend a value to the running step. -/
def lend (v : Value) : Act γ Unit := do
  modifyHeap (·.retain v)
  hand v

/-- Change the world after a computation, whatever its outcome. -/
def after (x : Act γ α) (f : World γ → World γ) : Act γ α := fun w =>
  match x w with
  | .ok a w => .ok a (f w)
  | .error e w => .error e (f w)

/-- Give up handles after a computation, whatever its outcome. -/
def holding (vs : List Value) (x : Act γ α) : Act γ α :=
  x.after fun w => { w with session := { w.session with heap := w.session.heap.releaseAll vs } }

/-- Keep values alive during a computation. -/
def keeping (vs : List Value) (x : Act γ α) : Act γ α := do
  modifyHeap (·.retainAll vs)
  holding vs x

/-- Run a part of a step: what is lent to the part is given up when it is over. -/
def lending (x : Act γ α) : Act γ α := do
  let outer := (← session).lent
  modifySession fun s => { s with lent := [] }
  x.after fun w =>
    let s := w.session
    { w with session := { s with lent := outer, heap := s.heap.releaseAll s.lent } }

/-- A world in which nothing has crossed. -/
def swept (w : World γ) : World γ :=
  let s := w.session
  { w with session := { s with crossed := [], heap := s.heap.releaseAll s.crossed } }

/-- Give up the handles on what has crossed. -/
def sweep : Act γ Unit := modify swept

/-- Run a step: what is lent to it and what has crossed is given up when it is over. -/
def framed (x : Act γ α) : Act γ α := (lending x).after swept

/-- The outcome of a computation; a panic or a cut-off is not caught. -/
def attempt (x : Act γ α) : Act γ (Except Fault α) := fun w =>
  match x w with
  | .ok a w => .ok (.ok a) w
  | .error e w => if e.isError then .ok (.error e) w else .error e w

/-- Keep a handle on a value until the next sweep. -/
def cross (v : Value) : Act γ Unit :=
  modifySession fun s => { s with crossed := withHandle s.crossed v }

/-- A fresh value that crosses, as a reference. -/
def give (v : Value) : Act γ Reference := do
  cross v
  return .ofValue v

/-- A stored value that crosses, as a reference. -/
def giveStored (v : Value) : Act γ Reference := do
  modifyHeap (·.retain v)
  give v

/-- The value behind an argument. -/
def arg (r : Reference) : Act γ Value := orFail r.value

/-- A non-negative index or length from a module. -/
def index (i : Int32) : Act γ Nat :=
  if i < 0 then throw (.marshal (.outOfBounds 0 0 0)) else pure i.toInt.toNat

/-- A length reported back to a module. -/
def count (n : Nat) : Act γ Int32 :=
  if n < Nat.pow 2 31 then pure (Int32.ofNat n)
  else throw (.marshal (.outOfBounds n 0 (Nat.pow 2 31 - 1)))

/-- A reading of the clock. -/
def now : Act γ Nat := do
  modifySession fun s => { s with clock := s.clock + 1 }
  return (← session).clock

/-- Enter a module function, which takes stack. -/
def takeStack : Act γ Unit := do
  if !(← session).engine.config.hasStack then throw (.trap .stackExhausted)

/-- A memory of the session. -/
def memoryAt (id : Nat) : Act γ Memory := return ((← session).memories[id]?).getD default

/-- Replace a memory of the session. -/
def setMemory (id : Nat) (m : Memory) : Act γ Unit :=
  modifySession fun s => { s with memories := s.memories.set id m }

end Act

end ModuleHost
