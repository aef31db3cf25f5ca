/-
Conversions that go through the primary module.

Strings, lists, closures and callbacks live in the module; the host reaches them only
through reserved exports of the primary instance and through its memory.  Whatever
those exports do is up to the machine.

* `sendText` and `receiveText` copy texts, unit by unit;
* `receiveList` reads a list, `sendElements` and `receiveElements` copy
  elements between a typed array and the memory;
* `applyFunction` calls a function value, `runCallback` a queued callback;
* `announceOrphans` tells the module which closures have no wrapper left, and
  `runCleanups` calls the cleanup functions that are due.

Design notes: a batch of releases or cleanup calls is taken as a whole before the first
call is made, and the first failing call ends it.
-/
import ModuleHost.Session.State

namespace ModuleHost

open Act

variable {γ : Type}

/-! ### Calling exports -/

/-- The first argument that is not of its parameter's type: what was found, what was
expected. -/
def firstMismatch? (args : List Val) (params : List ValType) : Option (ValType × ValType) :=
  ((args.map Val.type).zip params).find? fun (found, expected) => found ≠ expected

/-- Fails unless a function fits a call: both counts come before the types of the
arguments. -/
def checkCall (t : FuncType) (args : List Val) (results : Nat) : Act γ Unit := do
  if args.length ≠ t.params.length then
    throw (.text s!"expected {t.params.length} arguments, got {args.length}")
  if t.results.length ≠ results then
    throw (.text s!"expected {t.results.length} results, got {results}")
  match firstMismatch? args t.params with
  | some (found, expected) =>
    throw (.text s!"argument type mismatch: found {found.name} but expected {expected.name}")
  | none => pure ()

/-- Let an argument cross. -/
def crossArg : Val → Act γ Unit
  | .ref (.host v) => do
    modifyHeap (·.retain v)
    cross v
  | _ => pure ()

/-- Call a function that is to have so many results. -/
def callFunc (m : Machine γ) (f : Func) (args : List Val) (results : Nat) : Act γ (List Val) := do
  checkCall f.type args results
  args.forM crossArg
  m.call f args

/-- Call a function, however many results it has. -/
def callAny (m : Machine γ) (f : Func) (args : List Val) : Act γ (List Val) :=
  callFunc m f args f.type.results.length

/-- The primary instance. -/
def primary : Act γ Instance := do
  match (← session).primary with
  | some i => return i
  | none => throw (.marshal .notLinked)

/-- An exported function of the primary instance, if there is one. -/
def lookupExport (name : String) : Act γ (Option Func) := return (← primary).func? name

/-- An exported function of the primary instance. -/
def requireExport (name : String) : Act γ Func := do
  match ← lookupExport name with
  | some f => return f
  | none => throw (.marshal (.missingExport name))

/-- Number of the memory that the primary instance exports. -/
def requireMemory : Act γ Nat := do
  match (← session).memory with
  | some id => return id
  | none => throw (.marshal (.missingExport "memory"))

/-- Call an export for one integer. -/
def callForInt (m : Machine γ) (f : Func) (name : String) (args : List Val) : Act γ Int32 := do
  match ← callFunc m f args 1 with
  | [.i32 n] => return n
  | _ => throw (.marshal (.unexpectedResult name))

/-! ### Strings -/

/-- Bytes of a unit in a module string. -/
inductive TextWidth where
  | oneByte | twoByte
  deriving DecidableEq, Repr

namespace TextWidth

/-- The narrowest width for some units. -/
def of (units : List UInt16) : TextWidth :=
  if units.foldl (· ||| ·) 0 < 256 then oneByte else twoByte

/-- Number of bytes, as export names end in it. -/
def digit : TextWidth → String
  | oneByte => "1"
  | twoByte => "2"

/-- Name of the width. -/
def name : TextWidth → String
  | oneByte => "OneByte"
  | twoByte => "TwoByte"

end TextWidth

/-- A string that lives in the module. -/
structure ModuleText where
  handle : Int32
  length : Nat
  width : TextWidth
  deriving DecidableEq, Repr

/-- Longest string that has an export of its own to allocate it. -/
def longestFastText : Nat := 10

/-- Most units that are read at a time. -/
def textChunk : Nat := 500

/-- A unit as an argument. -/
def unitVal (u : UInt16) : Val := .i32 (Int32.ofNat u.toNat)

/-- Write the units of a string from an index on. -/
def writeUnits (m : Machine γ) (write : Func) (handle : Int32) : Nat → List UInt16 → Act γ Unit
  | _, [] => pure ()
  | i, u :: rest => do
    let _ ← callFunc m write [.i32 handle, .i32 (← count i), unitVal u] 0
    writeUnits m write handle (i + 1) rest

/-- Copy a text into the module: through the export for its exact length if there is one, else
by allocating and writing each unit. -/
def sendText (m : Machine γ) (s : Text) : Act γ ModuleText := do
  let width := TextWidth.of s.units
  let length := s.length
  let fast ←
    if width = .oneByte ∧ 1 ≤ length ∧ length ≤ longestFastText then
      lookupExport s!"$stringAllocate1_{length}"
    else pure none
  match fast with
  | some f =>
    let handle ← callForInt m f s!"$stringAllocate1_{length}" (s.units.map unitVal)
    return ⟨handle, length, width⟩
  | none =>
    let allocateName := "$stringAllocate" ++ width.digit
    let allocate ← requireExport allocateName
    let write ← requireExport ("$stringWrite" ++ width.digit)
    let handle ← callForInt m allocate allocateName [.i32 (← count length)]
    writeUnits m write handle 0 s.units
    return ⟨handle, length, width⟩

/-- Read `n` units of a module string from an index on. -/
def readUnits (m : Machine γ) (read : Func) (name : String) (handle : Int32) :
    (i n : Nat) → Act γ (List UInt16)
  | _, 0 => return []
  | i, n + 1 => do
    let u ← callForInt m read name [.i32 handle, .i32 (← count i)]
    let rest ← readUnits m read name handle (i + 1) n
    return UInt16.ofNat u.toUInt32.toNat :: rest

/-- Read `n` units from an index on, chunk by chunk; `fuel` bounds the number of chunks. -/
def readChunks (m : Machine γ) (read : Func) (name : String) (handle : Int32) :
    (fuel i n : Nat) → Act γ (List UInt16)
  | 0, _, _ => return []
  | fuel + 1, i, n => do
    if n = 0 then return []
    let chunk ← readUnits m read name handle i (min n textChunk)
    let rest ← readChunks m read name handle fuel (i + textChunk) (n - textChunk)
    return chunk ++ rest

/-- Copy a module string into the host. -/
def receiveText (m : Machine γ) (s : ModuleText) : Act γ Text := do
  if s.length = 0 then return .empty
  let name := "$stringRead" ++ s.width.digit
  let read ← requireExport name
  return ⟨← readChunks m read name s.handle s.length 0 s.length⟩

/-! ### Lists -/

/-- Read `n` items of a module list from an index on. -/
def readItems (m : Machine γ) (read : Func) (list : Int32) : (i n : Nat) → Act γ (List Value)
  | _, 0 => return []
  | i, n + 1 => do
    match ← callFunc m read [.i32 list, .i32 (Int32.ofNat i)] 1 with
    | [.ref r] =>
      let v ← arg r
      let rest ← readItems m read list (i + 1) n
      return v :: rest
    | _ => throw (.marshal (.unexpectedResult "$listRead"))

/-- The items of a module list; a negative length is none. -/
def receiveList (m : Machine γ) (list : Int32) : Act γ (List Value) := do
  let length ← requireExport "$listLength"
  let read ← requireExport "$listRead"
  let n ← callForInt m length "$listLength" [.i32 list]
  readItems m read list 0 n.toInt.toNat

/-- The items of a module list of numbers. -/
def receiveNumbers (m : Machine γ) (list : Int32) : Act γ (List Double) := do
  (← receiveList m list).mapM fun v => orFail v.expectNumber

/-! ### Memory -/

/-- A copy of bytes of the memory. -/
def readMemory (address length : Nat) : Act γ (List UInt8) := do
  let memory ← memoryAt (← requireMemory)
  orFail (memory.read address length)

/-- Overwrite bytes of the memory. -/
def writeMemory (address : Nat) (bytes : List UInt8) : Act γ Unit := do
  let id ← requireMemory
  setMemory id (← orFail ((← memoryAt id).write address bytes))

/-- Copy elements of a typed array to the memory. -/
def sendElements (v : TypedView) (start count address : Nat) : Act γ Unit := do
  let bytes ← orFail (v.elementBytes (← heap) start count)
  writeMemory address bytes

/-- Overwrite elements of a typed array from the memory. -/
def receiveElements (v : TypedView) (start count address : Nat) : Act γ Unit := do
  let length := count * v.element.width
  if wordLimit ≤ length then throw (.marshal (.outOfBounds start count v.length))
  let bytes ← readMemory address length
  tryChange fun h => v.setElementBytes h start bytes

/-! ### Functions -/

/-- Most parameters of a closure that can be called. -/
def highestArity : Nat := 3

/-- Call a module closure through the export for its arity; missing arguments are undefined
and extra ones are dropped. -/
def callWrapper (m : Machine γ) (w : Wrapper) (args : List Value) : Act γ Value := do
  if highestArity < w.arity then throw (.marshal (.unsupportedArity w.arity))
  let f ← requireExport w.trampoline
  let passed := (List.range w.arity).map fun i => Val.ref (.ofValue (args.getD i .undefined))
  let argc := Int32.ofNat (min args.length w.arity)
  match ← callFunc m f (.i32 w.closure :: .i32 argc :: passed) 1 with
  | [.ref r] => arg r
  | _ => throw (.marshal (.unexpectedResult w.trampoline))

/-- Call a function value.  Function and arguments stay alive meanwhile, and the caller gets a
handle on the result. -/
def applyFunction (m : Machine γ) (f : FunctionRef) (args : List Value) : Act γ Value :=
  keeping (.function f :: args) do
    match f with
    | .native id => m.native id args
    | .wrapper k id =>
      let result ← callWrapper m (((← heap).wrapper? k id).getD ⟨0, 0⟩) args
      modifyHeap (·.retain result)
      return result

/-- Run a queued callback. -/
def runCallback (m : Machine γ) (callback : Int32) : Act γ Unit := do
  let f ← requireExport "$invokeCallback"
  let _ ← callFunc m f [.i32 callback] 0

/-! ### Releases and cleanup calls -/

/-- Call the release export for each closure. -/
def announceEach (m : Machine γ) (f : Func) : List Int32 → Act γ Unit
  | [] => pure ()
  | closure :: rest => do
    let _ ← callFunc m f [.i32 closure] 0
    announceEach m f rest

/-- Sweep, tell the module about closures without wrappers and return their number.  A
module without the export is not told. -/
def announceOrphans (m : Machine γ) : Act γ Nat := do
  sweep
  let released ← onHeap (·.takeOrphans .session)
  if released.isEmpty then return 0
  match ← lookupExport "$releaseClosure" with
  | none => return 0
  | some f =>
    announceEach m f released
    return released.length

/-- Make each due cleanup call. -/
def cleanupEach (m : Machine γ) : List Heap.DueCleanup → Act γ Unit
  | [] => pure ()
  | d :: rest => do
    let result ← applyFunction m d.cleanup [d.held]
    modifyHeap (·.release result)
    cleanupEach m rest

/-- Sweep, call the cleanup functions of registries whose targets are gone and return the
number of calls. -/
def runCleanups (m : Machine γ) : Act γ Nat := do
  sweep
  let live := (← session).finalizers.filter (← heap).registries.isLive
  modifySession fun s => { s with finalizers := live }
  let due ← onHeap fun h => h.collectAll live
  holding (due.flatMap Heap.DueCleanup.values) do
    cleanupEach m due
    return due.length

end ModuleHost
