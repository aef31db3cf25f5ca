/-
The functions of the host table.

Each function takes what a module passes, references and words, and checks it in a fixed
order before it changes anything; `HostCall.run` decodes the arguments of a call and
encodes its result.  Indices and lengths from a module must not be negative.
-/
import ModuleHost.Session.Exchange
import ModuleHost.Text.Utf8

namespace ModuleHost

open Act

variable {γ : Type}

namespace HostCall

/-- A truth value as a word. -/
def flag (b : Bool) : Int32 := if b then 1 else 0

/-! ### Console, clock and timers -/

/-- Write a line to the console. -/
def print (value : Reference) : Act γ Unit := do
  let v ← arg value
  let line := ((← heap).display v).toString
  modifySession fun s => { s with console := s.console.push line }

/-- The delay that a number of milliseconds asks for; what is not positive is none. -/
def delayOf (ms : Double) : Nat :=
  match ms.datum, (ms.divNat 1000).datum with
  | .nan, _ | .infinite true, _ | .finite true _ _, _ => 0
  | _, .finite _ m q =>
    let delay :=
      if 0 ≤ q then m * Nat.pow 2 q.toNat * 1000000000
      else roundHalfEven (m * 1000000000) (Nat.pow 2 (-q).toNat)
    if delay ≤ maxDuration then delay else maxDuration
  | _, _ => maxDuration

/-- Put a timer into the queue, or give up when its instant cannot be formed. -/
def scheduleTimer (put : TimerQueue → Nat → Option (Int32 × TimerQueue)) : Act γ Int32 := do
  let instant ← now
  match put (← session).timers instant with
  | some (handle, timers) =>
    modifySession fun s => { s with timers }
    return handle
  | none => throw .panic

/-- Run a callback once after a delay. -/
def setTimeout (callback : Int32) (delay : Double) : Act γ Int32 :=
  scheduleTimer fun q instant => q.addTimeout? instant (delayOf delay) callback

/-- Run a callback after each period. -/
def setInterval (callback : Int32) (period : Double) : Act γ Int32 :=
  scheduleTimer fun q instant => q.addInterval? instant (delayOf period) callback

/-- Take a timer out of the queue. -/
def clearTimer (handle : Int32) : Act γ Unit :=
  modifySession fun s => { s with timers := s.timers.cancel handle }

/-- Queue a microtask. -/
def queueMicrotask (callback : Int32) : Act γ Unit :=
  modifySession fun s => { s with timers := s.timers.addMicrotask callback }

/-- The clock in milliseconds since the session started. -/
def clockMillis : Act γ Double := do
  return (Double.ofNat (← now)).divNat millisecond

/-- The object of globals. -/
def globalThis : Act γ Reference := do
  giveStored (.object (← session).globals)

/-! ### Values -/

/-- Type tag of a value. -/
def typeTag (value : Reference) : Act γ Int32 := do
  return Int32.ofNat (← arg value).kind.tag

/-- Whether a value is undefined. -/
def isUndefined (value : Reference) : Act γ Int32 := do
  return flag ((← arg value) = .undefined)

/-- Strict equality of two values. -/
def identical (a b : Reference) : Act γ Int32 := do
  let a ← arg a
  let b ← arg b
  return flag (a.same b)

/-- The truth value of a boolean. -/
def unboxBool (value : Reference) : Act γ Int32 := do
  return flag (← orFail (← arg value).expectBool)

/-- The number of a number. -/
def unboxNumber (value : Reference) : Act γ Double := do
  orFail (← arg value).expectNumber

/-- The text of a value, as a string. -/
def toDisplayString (value : Reference) : Act γ Reference := do
  let v ← arg value
  give (.string ((← heap).display v))

/-- Whether a value is an error. -/
def isError (value : Reference) : Act γ Int32 := do
  match ← arg value with
  | .error _ => return 1
  | _ => return 0

/-- The message of an error; null is told apart by its kind here. -/
def errorMessage (value : Reference) : Act γ Reference := do
  match ← arg value with
  | .error id => give (.string (.ofString ((← heap).failure id).message))
  | v => throw (.marshal (.typeMismatch .error v.kind))

/-! ### Strings -/

/-- Copy a string into the module. -/
def stringToModule (m : Machine γ) (value : Reference) : Act γ Int32 := do
  let s ← orFail (← arg value).expectString
  return (← sendText m s).handle

/-- Copy a module string into the host. -/
def stringFromModule (m : Machine γ) (handle length : Int32) (width : TextWidth) :
    Act γ Reference := do
  let length ← index length
  give (.string (← receiveText m ⟨handle, length, width⟩))

/-- Decode bytes of the memory. -/
def decodeUtf8 (address length : Int32) : Act γ Reference := do
  let address ← index address
  let length ← index length
  let bytes ← readMemory address length
  give (.string (.ofString (Utf8.decode bytes)))

/-! ### Arrays -/

/-- A fresh array of values. -/
def giveArray (values : List Value) : Act γ Reference := do
  let id ← onHeap (·.newArray values)
  give (.array id)

/-- Number of elements. -/
def arrayLength (array : Reference) : Act γ Int32 := do
  let id ← orFail (← arg array).expectArray
  count ((← heap).elements id).length

/-- The element at an index. -/
def arrayGet (array : Reference) (i : Int32) : Act γ Reference := do
  let id ← orFail (← arg array).expectArray
  let i ← index i
  giveStored ((← heap).arrayGet id i)

/-- Store an element. -/
def arraySet (array : Reference) (i : Int32) (value : Reference) : Act γ Unit := do
  let id ← orFail (← arg array).expectArray
  let i ← index i
  let v ← arg value
  modifyHeap (·.arraySet id i v)

/-- Append an element. -/
def arrayPush (array value : Reference) : Act γ Unit := do
  let id ← orFail (← arg array).expectArray
  let v ← arg value
  modifyHeap (·.arrayPush id v)

/-- An array of the items of a module list. -/
def arrayFromModuleList (m : Machine γ) (list : Int32) : Act γ Reference := do
  giveArray (← receiveList m list)

/-! ### Objects -/

/-- A fresh object. -/
def objectNew : Act γ Reference := do
  give (.object (← onHeap Heap.newObject))

/-- Value of a property, undefined when it is absent. -/
def objectGet (object key : Reference) : Act γ Reference := do
  let object ← arg object
  let key ← arg key
  let id ← orFail object.expectObject
  let key ← orFail key.expectString
  giveStored (((← heap).objectGet? id key).getD .undefined)

/-- Set a property. -/
def objectSet (object key value : Reference) : Act γ Unit := do
  let key ← orFail (← arg key).expectString
  let id ← orFail (← arg object).expectObject
  let v ← arg value
  modifyHeap (·.objectSet id key v)

/-- Whether a property is present. -/
def objectHas (object key : Reference) : Act γ Int32 := do
  let key ← arg key
  let id ← orFail (← arg object).expectObject
  let key ← orFail key.expectString
  return flag ((← heap).objectHas id key)

/-- Remove a property; says whether it was present. -/
def objectDelete (object key : Reference) : Act γ Int32 := do
  let key ← arg key
  let id ← orFail (← arg object).expectObject
  let key ← orFail key.expectString
  let present := (← heap).objectHas id key
  modifyHeap (·.objectDelete id key)
  return flag present

/-- Property names, as an array of strings. -/
def objectKeys (object : Reference) : Act γ Reference := do
  let id ← orFail (← arg object).expectObject
  giveArray (((← heap).objectKeys id).map .string)

/-! ### Functions -/

/-- The wrapper of a closure. -/
def wrapFunction (closure : Int32) (arity : Nat) : Act γ Reference := do
  give (.function (← onHeap (·.wrap .session ⟨closure, arity⟩)))

/-- Whether a value is a wrapper of a closure. -/
def isModuleFunction (value : Reference) : Act γ Int32 := do
  match ← arg value with
  | .function (.wrapper _ _) => return 1
  | _ => return 0

/-- The closure behind a wrapper. -/
def unwrapFunction (value : Reference) : Act γ Int32 := do
  match ← arg value with
  | .function (.wrapper k id) => return (((← heap).wrapper? k id).map (·.closure)).getD 0
  | _ => throw (.marshal .notModuleFunction)

/-- The arguments in an array; undefined and null are none. -/
def argumentList (args : Value) : Act γ (List Value) := do
  match args with
  | .undefined | .null => return []
  | v =>
    let id ← orFail v.expectArray
    return (← heap).elements id

/-- Call a function value with the arguments in an array. -/
def callFunction (m : Machine γ) (function args : Reference) : Act γ Reference := do
  let function ← arg function
  let args ← argumentList (← arg args)
  let f ← orFail function.expectFunction
  give (← applyFunction m f args)

/-! ### Finalization -/

/-- A fresh finalization registry of the session. -/
def finalizationRegistryNew (cleanup : Reference) : Act γ Reference := do
  let f ← orFail (← arg cleanup).expectFunction
  let id ← onHeap (·.newRegistry f)
  modifySession fun s => { s with finalizers := s.finalizers ++ [id] }
  give (.registry id)

/-- Watch a target; with a null token it cannot be unregistered. -/
def finalizationRegister (registry target held token : Reference) : Act γ Unit := do
  let registry ← arg registry
  let token ← match ← arg token with
    | .null => pure none
    | v => pure (some v)
  let id ← orFail registry.expectRegistry
  let target ← arg target
  let held ← arg held
  tryChange fun h => h.register id target held token

/-- Drop the cells of a token; says whether there was one. -/
def finalizationUnregister (registry token : Reference) : Act γ Int32 := do
  let registry ← arg registry
  let id ← orFail registry.expectRegistry
  let token ← arg token
  return flag (← tryHeap fun h => h.unregister id token)

/-! ### Buffers and typed arrays -/

/-- A fresh buffer of zeros. -/
def arrayBufferNew (length : Int32) : Act γ Reference := do
  let length ← index length
  give (.buffer (← onHeap (·.newBuffer (.zeros length))))

/-- Size of a buffer. -/
def arrayBufferByteLength (buffer : Reference) : Act γ Int32 := do
  let id ← orFail (← arg buffer).expectBuffer
  count ((← heap).byteLength id)

/-- The element type of a tag. -/
def elementOfTag (tag : Int32) : Act γ Element :=
  match Element.ofTag? tag.toInt with
  | some e => pure e
  | none => throw (.marshal (.invalidTypeTag tag.toInt))

/-- A fresh typed array of zeros. -/
def typedArrayNew (tag length : Int32) : Act γ Reference := do
  let e ← elementOfTag tag
  let length ← index length
  give (.typedArray (← onHeap (·.newTypedArray e length)))

/-- Number of elements. -/
def typedArrayLength (array : Reference) : Act γ Int32 := do
  count (← orFail (← arg array).expectTypedArray).length

/-- The element at an index. -/
def typedArrayGet (array : Reference) (i : Int32) : Act γ Double := do
  let v ← orFail (← arg array).expectTypedArray
  let i ← index i
  match v.get? (← heap) i with
  | some x => return x
  | none => throw (.marshal (.outOfBounds i 1 v.length))

/-- Store an element. -/
def typedArraySet (array : Reference) (i : Int32) (x : Double) : Act γ Unit := do
  let v ← orFail (← arg array).expectTypedArray
  let i ← index i
  tryChange fun h => v.set h i x

/-- Overwrite elements from the memory. -/
def typedArrayCopyFromModule (array : Reference) (start length address : Int32) : Act γ Unit := do
  let v ← orFail (← arg array).expectTypedArray
  let start ← index start
  let length ← index length
  let address ← index address
  receiveElements v start length address

/-- Copy elements to the memory. -/
def typedArrayCopyToModule (array : Reference) (start length address : Int32) : Act γ Unit := do
  let v ← orFail (← arg array).expectTypedArray
  let start ← index start
  let length ← index length
  let address ← index address
  sendElements v start length address

/-- A typed array of the items of a module list of numbers. -/
def typedArrayFromModuleList (m : Machine γ) (tag list : Int32) : Act γ Reference := do
  let e ← elementOfTag tag
  let numbers ← receiveNumbers m list
  give (.typedArray (← onHeap (·.typedArrayOf e numbers)))

/-! ### Data views -/

/-- A fresh view of zeros. -/
def dataViewNew (length : Int32) : Act γ Reference := do
  let length ← index length
  give (.dataView (← onHeap (·.newDataView (.zeros length))))

/-- A view of a buffer, or of the buffer of a view from where that view starts. -/
def dataViewOf (buffer : Reference) (offset length : Int32) : Act γ Reference := do
  let (id, base) ← orFail (← arg buffer).expectBufferOrView
  let offset ← index offset
  let length ← index length
  give (.dataView (← tryHeap (·.byteWindow id (base + offset) length)))

/-- Size of a view. -/
def dataViewByteLength (view : Reference) : Act γ Int32 := do
  count (← orFail (← arg view).expectDataView).length

/-- A view of a copy of some bytes. -/
def dataViewCopy (view : Reference) (offset length : Int32) : Act γ Reference := do
  let v ← orFail (← arg view).expectDataView
  let offset ← index offset
  let length ← index length
  give (.dataView (← tryHeap fun h => v.copy h offset length))

/-- A view of a copy of bytes of the memory. -/
def dataViewFromModule (address length : Int32) : Act γ Reference := do
  let address ← index address
  let length ← index length
  let bytes ← readMemory address length
  give (.dataView (← onHeap (·.newDataView (.ofList bytes))))

/-- The value of a module that stands for a word of a scalar type: integers narrower than
32 bits are extended by their sign if they have one. -/
def wordVal (t : Scalar) (w : Nat) : Val :=
  match t with
  | .bigInt64 | .bigUint64 => .i64 (Int64.ofInt w)
  | .float32 => .f32 ⟨UInt32.ofNat w⟩
  | .float64 => .f64 (Double.ofWord w)
  | t => .i32 (Int32.ofInt (t.integer w))

/-- The word of a value of a module. -/
def valWord : Val → Nat
  | .i32 n => n.toUInt32.toNat
  | .i64 n => n.toUInt64.toNat
  | .f32 x => x.bits.toNat
  | .f64 x => x.bits.toNat
  | .ref _ => 0

/-- Read a scalar. -/
def dataViewGet (t : Scalar) (view : Reference) (offset : Int32) (littleEndian : Bool) :
    Act γ Val := do
  let v ← orFail (← arg view).expectDataView
  let offset ← index offset
  return wordVal t (← orFail (v.read (← heap) t offset littleEndian))

/-- Store a scalar, cut to its width. -/
def dataViewSet (t : Scalar) (view : Reference) (offset : Int32) (value : Val)
    (littleEndian : Bool) : Act γ Unit := do
  let v ← orFail (← arg view).expectDataView
  let offset ← index offset
  tryChange fun h => v.write h t offset (valWord value) littleEndian

/-! ### The table -/

/-- A result that is a word. -/
def wordResult (x : Act γ Int32) : Act γ (List Val) := return [.i32 (← x)]

/-- A result that is a number. -/
def numberResult (x : Act γ Double) : Act γ (List Val) := return [.f64 (← x)]

/-- A result that is a reference. -/
def refResult (x : Act γ Reference) : Act γ (List Val) := return [.ref (← x)]

/-- No result. -/
def noResult (x : Act γ Unit) : Act γ (List Val) := do
  x
  return []

/-- A type that an argument can be read as. -/
class Argument (α : Type) where
  ofVal? : Val → Option α

instance : Argument Reference where
  ofVal?
    | .ref r => some r
    | _ => none

instance : Argument Int32 where
  ofVal?
    | .i32 n => some n
    | _ => none

instance : Argument Double where
  ofVal?
    | .f64 x => some x
    | _ => none

instance : Argument Val where
  ofVal? := some

/-- What comes of arguments that are not of the function's type. -/
def mismatched : Act γ (List Val) := throw (.trap .signatureMismatch)

/-- Read the next argument and go on with the rest. -/
def param {α : Type} [Argument α] (k : α → List Val → Act γ (List Val)) :
    List Val → Act γ (List Val)
  | [] => mismatched
  | v :: rest =>
    match Argument.ofVal? v with
    | some a => k a rest
    | none => mismatched

/-- All arguments have been read. -/
def done (x : Act γ (List Val)) : List Val → Act γ (List Val)
  | [] => x
  | _ :: _ => mismatched

/-- What is left says the byte order: little-endian without it or if it is not zero. -/
def byteOrder (k : Bool → Act γ (List Val)) : List Val → Act γ (List Val)
  | [] => k true
  | [.i32 order] => k (order != 0)
  | _ => mismatched

/-- Call a function of the host table. -/
def run (m : Machine γ) : HostFunc → List Val → Act γ (List Val)
  | .print => param fun v => done (noResult (print v))
  | .dateNow => done (numberResult clockMillis)
  | .performanceNow => done (numberResult clockMillis)
  | .globalThis => done (refResult globalThis)
  | .isWindows => done (wordResult (pure 0))
  | .setTimeout =>
    param fun callback => param fun delay => done (wordResult (setTimeout callback delay))
  | .setInterval =>
    param fun callback => param fun period => done (wordResult (setInterval callback period))
  | .clearTimeout => param fun handle => done (noResult (clearTimer handle))
  | .clearInterval => param fun handle => done (noResult (clearTimer handle))
  | .queueMicrotask => param fun callback => done (noResult (queueMicrotask callback))
  | .typeTag => param fun v => done (wordResult (typeTag v))
  | .undefined => done (refResult (give .undefined))
  | .isUndefined => param fun v => done (wordResult (isUndefined v))
  | .identical => param fun a => param fun b => done (wordResult (identical a b))
  | .boxBool => param fun (n : Int32) => done (refResult (give (.bool (n != 0))))
  | .unboxBool => param fun v => done (wordResult (unboxBool v))
  | .boxNumber => param fun x => done (refResult (give (.number x)))
  | .unboxNumber => param fun v => done (numberResult (unboxNumber v))
  | .toDisplayString => param fun v => done (refResult (toDisplayString v))
  | .isError => param fun v => done (wordResult (isError v))
  | .errorMessage => param fun v => done (refResult (errorMessage v))
  | .stringToModule => param fun v => done (wordResult (stringToModule m v))
  | .stringFromModule wide =>
    param fun handle => param fun length =>
      done (refResult (stringFromModule m handle length (if wide then .twoByte else .oneByte)))
  | .decodeUtf8 =>
    param fun address => param fun length => done (refResult (decodeUtf8 address length))
  | .arrayNew => done (refResult (giveArray []))
  | .arrayLength => param fun a => done (wordResult (arrayLength a))
  | .arrayGet => param fun a => param fun i => done (refResult (arrayGet a i))
  | .arraySet => param fun a => param fun i => param fun v => done (noResult (arraySet a i v))
  | .arrayPush => param fun a => param fun v => done (noResult (arrayPush a v))
  | .arrayFromModuleList => param fun list => done (refResult (arrayFromModuleList m list))
  | .objectNew => done (refResult objectNew)
  | .objectGet => param fun o => param fun k => done (refResult (objectGet o k))
  | .objectSet => param fun o => param fun k => param fun v => done (noResult (objectSet o k v))
  | .objectHas => param fun o => param fun k => done (wordResult (objectHas o k))
  | .objectDelete => param fun o => param fun k => done (wordResult (objectDelete o k))
  | .objectKeys => param fun o => done (refResult (objectKeys o))
  | .wrapFunction arity => param fun closure => done (refResult (wrapFunction closure arity))
  | .isModuleFunction => param fun v => done (wordResult (isModuleFunction v))
  | .unwrapFunction => param fun v => done (wordResult (unwrapFunction v))
  | .callFunction => param fun f => param fun args => done (refResult (callFunction m f args))
  | .finalizationRegistryNew => param fun f => done (refResult (finalizationRegistryNew f))
  | .finalizationRegister =>
    param fun r => param fun target => param fun held => param fun token =>
      done (noResult (finalizationRegister r target held token))
  | .finalizationUnregister =>
    param fun r => param fun token => done (wordResult (finalizationUnregister r token))
  | .arrayBufferNew => param fun length => done (refResult (arrayBufferNew length))
  | .arrayBufferByteLength => param fun b => done (wordResult (arrayBufferByteLength b))
  | .typedArrayNew =>
    param fun tag => param fun length => done (refResult (typedArrayNew tag length))
  | .typedArrayLength => param fun a => done (wordResult (typedArrayLength a))
  | .typedArrayGet => param fun a => param fun i => done (numberResult (typedArrayGet a i))
  | .typedArraySet =>
    param fun a => param fun i => param fun x => done (noResult (typedArraySet a i x))
  | .typedArrayCopyFromModule =>
    param fun a => param fun start => param fun length => param fun address =>
      done (noResult (typedArrayCopyFromModule a start length address))
  | .typedArrayCopyToModule =>
    param fun a => param fun start => param fun length => param fun address =>
      done (noResult (typedArrayCopyToModule a start length address))
  | .typedArrayFromModuleList =>
    param fun tag => param fun list => done (refResult (typedArrayFromModuleList m tag list))
  | .dataViewNew => param fun length => done (refResult (dataViewNew length))
  | .dataViewOf =>
    param fun b => param fun offset => param fun length =>
      done (refResult (dataViewOf b offset length))
  | .dataViewByteLength => param fun v => done (wordResult (dataViewByteLength v))
  | .dataViewCopy =>
    param fun v => param fun offset => param fun length =>
      done (refResult (dataViewCopy v offset length))
  | .dataViewFromModule =>
    param fun address => param fun length => done (refResult (dataViewFromModule address length))
  | .dataViewGet t => param fun v => param fun offset => byteOrder fun littleEndian => do
    return [← dataViewGet t v offset littleEndian]
  | .dataViewSet t => param fun v => param fun offset => param fun x =>
    byteOrder fun littleEndian => noResult (dataViewSet t v offset x littleEndian)

end HostCall

open HostCall

namespace TextBuiltin

/-- Call a string builtin with arguments of its type. -/
def run (b : TextBuiltin) (args : List Val) : Act γ (List Val) :=
  match b, args with
  | .cast, [.ref r] => refResult do give (.string (← orFail (text r)))
  | .test, [.ref r] => wordResult do
    match ← arg r with
    | .string _ => return 1
    | _ => return 0
  | .fromCharCode, [.i32 code] => refResult (give (.string (charText code)))
  | .fromCodePoint, [.i32 point] => refResult do
    give (.string (← orFail (codePointText point)))
  | .charCodeAt, [.ref r, .i32 i] => wordResult do
    let s ← orFail (text r)
    return word (← orFail (unitAt s i)).toNat
  | .codePointAt, [.ref r, .i32 i] => wordResult do
    let s ← orFail (text r)
    return word (← orFail (pointAt s i))
  | .length, [.ref r] => wordResult do return word (← orFail (text r)).length
  | .concat, [.ref r, .ref s] => refResult do
    let a ← orFail (text r)
    let b ← orFail (text s)
    give (.string (a ++ b))
  | .substring, [.ref r, .i32 start, .i32 stop] => refResult do
    give (.string (between (← orFail (text r)) start stop))
  | .equals, [.ref r, .ref s] => wordResult do
    let v ← arg r
    let w ← arg s
    return flag (← orFail (equalTexts v w))
  | .compare, [.ref r, .ref s] => wordResult do
    let a ← orFail (text r)
    let b ← orFail (text s)
    return orderWord a b
  | _, _ => throw (.trap .signatureMismatch)

end TextBuiltin

end ModuleHost
