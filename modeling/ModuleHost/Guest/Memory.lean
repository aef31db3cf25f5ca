/-
What the guest does by itself: strings in its memory, lists, and the probes.

Addresses and sizes wrap at 32 bits; an access adds its constant offset without wrapping
and traps when it leaves the memory.  An allocator moves the top of the heap before it
writes, so a trap leaves it moved.
-/
import ModuleHost.Guest.Plan
import ModuleHost.Scenario.Notebook

namespace ModuleHost

open Act Play

/-- Number of the guest's memory in its session. -/
def guestMemory : Nat := 0

/-- Number of the guest's table in its session. -/
def guestTable : Nat := 0

/-- Bytes before the units of a string. -/
def textHeader : Nat := 4

/-- Bytes of a unit. -/
def TextWidth.bytes : TextWidth → Nat
  | .oneByte => 1
  | .twoByte => 2

/-- A word as an unsigned number. -/
def unsignedWord (n : Int32) : Nat := n.toUInt32.toNat

/-- Store bytes in the guest's memory. -/
def storeBytes (address : Nat) (bytes : List UInt8) : Play Unit := do
  match (← memoryAt guestMemory).write address bytes with
  | .ok m => setMemory guestMemory m
  | .error _ => throw (.trap .memoryOutOfBounds)

/-- Load a number from the guest's memory. -/
def loadWord (address width : Nat) : Play Nat := do
  match (← memoryAt guestMemory).read address width with
  | .ok bytes => return ofLeBytes bytes
  | .error _ => throw (.trap .memoryOutOfBounds)

/-- Move the top of the heap and return where it was. -/
def allocateBytes (size : Int32) : Play Int32 := do
  let address := (← notebook).guest.heapTop
  modifyGuest fun g => { g with heapTop := g.heapTop + size }
  return address

/-- Allocate a string and store its length. -/
def allocateText (length : Int32) (w : TextWidth) : Play Int32 := do
  let size := length * Int32.ofNat w.bytes + Int32.ofNat textHeader
  let address ← allocateBytes size
  storeBytes (unsignedWord address) (leBytes 4 (unsignedWord length))
  return address

/-- Address of a unit. -/
def unitAddress (handle i : Int32) (w : TextWidth) : Nat :=
  unsignedWord (handle + i * Int32.ofNat w.bytes) + textHeader

/-- Store units one after the other. -/
def storeUnits : (address : Nat) → List Val → Play Unit
  | _, [] => pure ()
  | address, .i32 u :: rest => do
    storeBytes address (leBytes 1 (unsignedWord u))
    storeUnits (address + 1) rest
  | address, _ :: rest => storeUnits (address + 1) rest

/-- Item of a guest list; a null reference where there is none. -/
def guestItem (list i : Int32) : Play Reference := do
  let items := (((← notebook).guest.lists.lookup list).map (·.items)).getD []
  match if i < 0 then none else items[i.toInt.toNat]? with
  | some v => giveStored v
  | none => return .null

/-- Announced length of a guest list. -/
def guestLength (list : Int32) : Play Int32 :=
  return (((← notebook).guest.lists.lookup list).map (·.length)).getD 0

/-- More pages for the guest's memory: the old number of pages, or -1. -/
def growMemory (extra : Int32) : Play Int32 := do
  let m ← memoryAt guestMemory
  match m.grow? (unsignedWord extra) (← session).engine.config.maxMemoryPages with
  | some grown =>
    setMemory guestMemory grown
    return Int32.ofNat m.pages
  | none => return -1

/-- Call the function in a slot of the guest's table, which is to return one word. -/
def callSlot (m : Machine Notebook) (i : Int32) : Play (List Val) := do
  let slots := ((← session).tables[guestTable]?).getD []
  match slots[unsignedWord i]? with
  | none => throw (.trap .tableOutOfBounds)
  | some none => throw (.trap .uninitializedElement)
  | some (some f) =>
    if f.type = ⟨[], [.i32]⟩ then m.call f [] else throw (.trap .signatureMismatch)

/-- Run an own function of the guest that needs no script. -/
def GuestFunc.runPlain (m : Machine Notebook) (f : GuestFunc) (args : List Val) :
    Play (List Val) := do
  match f, args with
  | .listLength, [.i32 list] => return [.i32 (← guestLength list)]
  | .listRead, [.i32 list, .i32 i] => return [.ref (← guestItem list i)]
  | .allocate w, [.i32 length] => return [.i32 (← allocateText length w)]
  | .write w, [.i32 handle, .i32 i, .i32 u] =>
    storeBytes (unitAddress handle i w) (leBytes w.bytes (unsignedWord u))
    return []
  | .read w, [.i32 handle, .i32 i] =>
    return [.i32 (Int32.ofNat (← loadWord (unitAddress handle i w) w.bytes))]
  | .allocateExact length, units =>
    modifyGuest fun g => { g with fastCalls := g.fastCalls + 1 }
    let address ← allocateText (Int32.ofNat length) .oneByte
    storeUnits (unsignedWord address + textHeader) units
    return [.i32 address]
  | .bump, [] => return [.i32 35]
  | .grow, [.i32 extra] => return [.i32 (← growMemory extra)]
  | .fastCalls, [] => return [.i32 (← notebook).guest.fastCalls]
  | .heapTop, [] => return [.i32 (← notebook).guest.heapTop]
  | .callTable, [.i32 i] => callSlot m i
  | .trap, [] => throw (.trap .unreachable)
  | .pair, [] => return [.i32 1, .f64 (.ofNat 2)]
  | _, _ => throw (.trap .signatureMismatch)

end ModuleHost
