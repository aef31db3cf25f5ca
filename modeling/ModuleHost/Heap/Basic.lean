/-
The heap: the shared payloads of all reference values.

Each sort of payload has a pool of counted cells.  A handle on a value is taken with
`retain` and given up with `release`; when the last handle on a payload goes, the
payload is freed and the handles it held are given up in order, depth first.  Cells
that hold each other in a cycle are never freed.

* `Heap.isLive` says whether a weak handle still refers to something.

Design notes: every freed cell gives its content to the work list once, so the number
of values held in live cells bounds the work; that bound is the fuel of `release`.
-/
import ModuleHost.Value.Basic
import ModuleHost.Value.ByteStore
import ModuleHost.Value.Failure
import ModuleHost.Heap.Closures

namespace ModuleHost

/-- A native function: the name of its code, and the values that it has captured. -/
structure NativeFunction where
  code : String
  captured : List Value
  deriving DecidableEq, Repr

/-- One watched target of a finalization registry. -/
structure WatchCell where
  target : Target
  held : Value
  token : Option Target
  deriving DecidableEq, Repr

/-- A finalization registry. -/
structure Registry where
  cleanup : FunctionRef
  cells : List WatchCell
  deriving Repr

/-- The values a registry holds. -/
def Registry.values (r : Registry) : List Value := .function r.cleanup :: r.cells.map (·.held)

/-- All shared payloads. -/
structure Heap where
  arrays : Pool (List Value)
  objects : Pool (List (Text × Value))
  buffers : Pool ByteStore
  natives : Pool NativeFunction
  /-- Wrappers that the session keeps. -/
  closures : Closures
  /-- Wrappers that the embedder keeps beside the session. -/
  embedderClosures : Closures
  errors : Pool Failure
  /-- Linked modules, by name. -/
  modules : Pool String
  registries : Pool Registry
  /-- Whether typed arrays store the least significant byte of an element first. -/
  littleEndian : Bool
  deriving Repr

namespace Heap

/-- The heap without payloads, of a machine of either byte order. -/
def empty (littleEndian : Bool) : Heap :=
  ⟨.empty, .empty, .empty, .empty, .empty, .empty, .empty, .empty, .empty, littleEndian⟩

instance : Inhabited Heap := ⟨empty true⟩

/-- The wrappers of a keeper. -/
def closuresOf (h : Heap) : Keeper → Closures
  | .session => h.closures
  | .embedder => h.embedderClosures

/-- Replace the wrappers of a keeper. -/
def setClosures (h : Heap) (k : Keeper) (closures : Closures) : Heap :=
  match k with
  | .session => { h with closures }
  | .embedder => { h with embedderClosures := closures }

/-- A wrapper that has not been freed. -/
def wrapper? (h : Heap) (k : Keeper) (id : Nat) : Option Wrapper :=
  (h.closuresOf k).wrappers.get? id

/-- Whether a payload has not been freed. -/
def isLive (h : Heap) : Target → Bool
  | .array id => h.arrays.isLive id
  | .object id => h.objects.isLive id
  | .buffer id => h.buffers.isLive id
  | .function (.native id) => h.natives.isLive id
  | .function (.wrapper k id) => (h.closuresOf k).wrappers.isLive id
  | .error id => h.errors.isLive id
  | .linkedModule id => h.modules.isLive id
  | .registry id => h.registries.isLive id

/-- Strong handles on a payload. -/
def count (h : Heap) : Target → Nat
  | .array id => h.arrays.count id
  | .object id => h.objects.count id
  | .buffer id => h.buffers.count id
  | .function (.native id) => h.natives.count id
  | .function (.wrapper k id) => (h.closuresOf k).wrappers.count id
  | .error id => h.errors.count id
  | .linkedModule id => h.modules.count id
  | .registry id => h.registries.count id

/-- One more handle on a payload. -/
def retainTarget (h : Heap) : Target → Heap
  | .array id => { h with arrays := h.arrays.retain id }
  | .object id => { h with objects := h.objects.retain id }
  | .buffer id => { h with buffers := h.buffers.retain id }
  | .function (.native id) => { h with natives := h.natives.retain id }
  | .function (.wrapper k id) => h.setClosures k ((h.closuresOf k).retain id)
  | .error id => { h with errors := h.errors.retain id }
  | .linkedModule id => { h with modules := h.modules.retain id }
  | .registry id => { h with registries := h.registries.retain id }

/-- One more handle on a value. -/
def retain (h : Heap) (v : Value) : Heap :=
  match v.target? with
  | some t => h.retainTarget t
  | none => h

/-- One more handle on each of several values. -/
def retainAll (h : Heap) (vs : List Value) : Heap := vs.foldl retain h

/-- One handle less on a payload; what a freed payload held comes back, in order. -/
def releaseTarget (h : Heap) : Target → List Value × Heap
  | .array id =>
    let (freed, arrays) := h.arrays.release id
    (freed.getD [], { h with arrays })
  | .object id =>
    let (freed, objects) := h.objects.release id
    ((freed.getD []).map (·.2), { h with objects })
  | .buffer id => ([], { h with buffers := (h.buffers.release id).2 })
  | .function (.native id) =>
    let (freed, natives) := h.natives.release id
    ((freed.map NativeFunction.captured).getD [], { h with natives })
  | .function (.wrapper k id) => ([], h.setClosures k ((h.closuresOf k).release id))
  | .error id => ([], { h with errors := (h.errors.release id).2 })
  | .linkedModule id => ([], { h with modules := (h.modules.release id).2 })
  | .registry id =>
    let (freed, registries) := h.registries.release id
    ((freed.map Registry.values).getD [], { h with registries })

/-- One handle less on a value, without what follows from it. -/
def releaseOne (h : Heap) (v : Value) : List Value × Heap :=
  match v.target? with
  | some t => h.releaseTarget t
  | none => ([], h)

/-- Number of values held in live payloads. -/
def held (h : Heap) : Nat :=
  h.arrays.total List.length + h.objects.total List.length +
    (h.registries.total fun r => r.cells.length + 1) + h.natives.total (·.captured.length)

/-- Give up handles one after the other, those of a freed payload before the rest. -/
def releaseWith : (fuel : Nat) → Heap → List Value → Heap
  | 0, h, _ => h
  | _ + 1, h, [] => h
  | fuel + 1, h, v :: rest =>
    let (freed, h) := h.releaseOne v
    releaseWith fuel h (freed ++ rest)

/-- Give up a handle on a value. -/
def release (h : Heap) (v : Value) : Heap :=
  match h.releaseOne v with
  | ([], h) => h
  | (freed, h) => releaseWith (h.held + freed.length) h freed

/-- Give up a handle on each of several values, in order. -/
def releaseAll (h : Heap) (vs : List Value) : Heap := vs.foldl release h

/-! ### Making reference values

A maker gives the caller one handle on the new value. -/

/-- A fresh buffer with these contents. -/
def newBuffer (h : Heap) (contents : ByteStore) : Nat × Heap :=
  let (id, buffers) := h.buffers.alloc contents
  (id, { h with buffers })

/-- A fresh array of these values. -/
def newArray (h : Heap) (values : List Value) : Nat × Heap :=
  let h := h.retainAll values
  let (id, arrays) := h.arrays.alloc values
  (id, { h with arrays })

/-- A fresh object without properties. -/
def newObject (h : Heap) : Nat × Heap :=
  let (id, objects) := h.objects.alloc []
  (id, { h with objects })

/-- A fresh native function. -/
def newNative (h : Heap) (f : NativeFunction) : Nat × Heap :=
  let h := h.retainAll f.captured
  let (id, natives) := h.natives.alloc f
  (id, { h with natives })

/-- The wrapper of a closure at an arity. -/
def wrap (h : Heap) (k : Keeper) (w : Wrapper) : FunctionRef × Heap :=
  let (id, closures) := (h.closuresOf k).wrap w
  (.wrapper k id, h.setClosures k closures)

/-- Take the closures without wrappers that have not been taken yet. -/
def takeOrphans (h : Heap) (k : Keeper) : List Int32 × Heap :=
  let (ids, closures) := (h.closuresOf k).takeOrphans
  (ids, h.setClosures k closures)

/-- A fresh error value. -/
def newError (h : Heap) (f : Failure) : Nat × Heap :=
  let (id, errors) := h.errors.alloc f
  (id, { h with errors })

/-- A fresh value for a linked module. -/
def newModule (h : Heap) (name : String) : Nat × Heap :=
  let (id, modules) := h.modules.alloc name
  (id, { h with modules })

/-- A fresh finalization registry. -/
def newRegistry (h : Heap) (cleanup : FunctionRef) : Nat × Heap :=
  let h := h.retain (.function cleanup)
  let (id, registries) := h.registries.alloc ⟨cleanup, []⟩
  (id, { h with registries })

end Heap

end ModuleHost
