/-
What a scenario keeps while it runs.

The notebook holds the named variables, a timer queue of its own, the private state of
the guest, and the journal.  Variables and guest lists hold handles on their values.
-/
import ModuleHost.Scenario.Output

namespace ModuleHost

open Act

/-- A list that the guest can be asked for; its announced length may differ. -/
structure GuestList where
  items : List Value
  length : Int32

/-- What the guest keeps for itself. -/
structure GuestState where
  /-- Address of the next allocation. -/
  heapTop : Int32
  /-- Calls of allocators for an exact length. -/
  fastCalls : Int32
  lists : List (Int32 × GuestList)
  /-- What the running script returns. -/
  returned : Value

/-- The notebook of a scenario. -/
structure Notebook where
  bindings : List (String × Value)
  queue : TimerQueue
  guest : GuestState
  journal : Array Entry

/-- The empty notebook. -/
def Notebook.empty : Notebook := ⟨[], .empty, ⟨1024, 0, [], .undefined⟩, #[]⟩

/-- A computation of a scenario. -/
abbrev Play (α : Type) := Act Notebook α

namespace Play

/-- The notebook. -/
def notebook : Play Notebook := return (← get).guest

/-- Change the notebook. -/
def modifyNotebook (f : Notebook → Notebook) : Play Unit :=
  modify fun w => { w with guest := f w.guest }

/-- Change the state of the guest. -/
def modifyGuest (f : GuestState → GuestState) : Play Unit :=
  modifyNotebook fun n => { n with guest := f n.guest }

/-- Add a line to the journal. -/
def write (e : Entry) : Play Unit :=
  modifyNotebook fun n => { n with journal := n.journal.push e }

/-- The value of a variable; undefined if there is none. -/
def valueOf (name : String) : Play Value :=
  return ((← notebook).bindings.lookup name).getD .undefined

/-- Whether there is a variable of a name. -/
def hasVariable (name : String) : Play Bool :=
  return ((← notebook).bindings.lookup name).isSome

/-- Remove a variable and give up its handle. -/
def unset (name : String) : Play Unit := do
  match (← notebook).bindings.lookup name with
  | none => pure ()
  | some old =>
    modifyNotebook fun n => { n with bindings := n.bindings.filter (·.1 ≠ name) }
    modifyHeap (·.release old)

/-- Give a variable a value. -/
def assign (name : String) (v : Value) : Play Unit := do
  modifyHeap (·.retain v)
  unset name
  modifyNotebook fun n => { n with bindings := (name, v) :: n.bindings }

/-- Give a variable the value it had before, if it had one. -/
def restore (name : String) (old : Option Value) : Play Unit :=
  match old with
  | some v => assign name v
  | none => unset name

/-- Set the list that the guest has under a number. -/
def setList (id : Int32) (l : GuestList) : Play Unit := do
  modifyHeap (·.retainAll l.items)
  let old := ((← notebook).guest.lists.lookup id).map (·.items)
  modifyGuest fun g => { g with lists := (id, l) :: g.lists.filter (·.1 ≠ id) }
  modifyHeap (·.releaseAll (old.getD []))

/-- Set what the running script returns. -/
def setReturned (v : Value) : Play Unit := do
  let old := (← notebook).guest.returned
  modifyHeap (·.retain v)
  modifyGuest fun g => { g with returned := v }
  modifyHeap (·.release old)

end Play

end ModuleHost
