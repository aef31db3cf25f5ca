/-
Wrappers of module closures.

A closure has at most one live wrapper for each arity, so wrapping it again gives
the same function.  When a wrapper loses its last handle the id of its closure is
queued; `takeOrphans` hands out the queued ids whose closure has no live wrapper
left, each once.  An id that is passed over is queued again when its wrapper goes.
-/
import ModuleHost.Heap.Pool

namespace ModuleHost

/-- A function that forwards to a module closure with `arity` parameters. -/
structure Wrapper where
  closure : Int32
  arity : Nat
  deriving DecidableEq, Repr

/-- Export that forwards calls of this arity. -/
def Wrapper.trampoline (w : Wrapper) : String := s!"$closureCall{w.arity}"

/-- A table of wrappers. -/
structure Closures where
  /-- Every wrapper made, with its handles. -/
  wrappers : Pool Wrapper
  /-- The newest wrapper of each closure and arity. -/
  index : List (Wrapper × Nat)
  /-- Closures of wrappers that are gone, in the order in which they went. -/
  queue : List Int32
  deriving Repr

namespace Closures

/-- No wrappers. -/
def empty : Closures := ⟨.empty, [], []⟩

instance : Inhabited Closures := ⟨empty⟩

/-- The live wrapper of a closure at an arity. -/
def find? (t : Closures) (w : Wrapper) : Option Nat :=
  (t.index.lookup w).filter t.wrappers.isLive

/-- One more handle on a wrapper. -/
def retain (t : Closures) (id : Nat) : Closures := { t with wrappers := t.wrappers.retain id }

/-- One handle less on a wrapper; its closure is queued with the last one. -/
def release (t : Closures) (id : Nat) : Closures :=
  match t.wrappers.release id with
  | (some w, wrappers) => { t with wrappers, queue := t.queue ++ [w.closure] }
  | (none, wrappers) => { t with wrappers }

/-- A handle on the wrapper of a closure at an arity: the live one, else a new one. -/
def wrap (t : Closures) (w : Wrapper) : Nat × Closures :=
  match t.find? w with
  | some id => (id, t.retain id)
  | none =>
    let (id, wrappers) := t.wrappers.alloc w
    (id, { t with wrappers, index := (w, id) :: t.index.filter (·.1 ≠ w) })

/-- Whether a closure has a live wrapper at some arity. -/
def isWrapped (t : Closures) (closure : Int32) : Bool :=
  t.index.any fun (w, id) => w.closure = closure && t.wrappers.isLive id

/-- The closures with a live wrapper, each once. -/
def wrapped (t : Closures) : List Int32 :=
  ((t.index.filter fun (_, id) => t.wrappers.isLive id).map (·.1.closure)).eraseDups

/-- Number of closures with a live wrapper. -/
def wrappedCount (t : Closures) : Nat := t.wrapped.length

/-- Forget the wrappers of a closure. -/
def forget (t : Closures) (closure : Int32) : Closures :=
  { t with index := t.index.filter (·.1.closure ≠ closure) }

/-- Look at one queued closure: it is taken unless it is wrapped or taken already. -/
def take (taken : List Int32 × Closures) (closure : Int32) : List Int32 × Closures :=
  let (ids, t) := taken
  if t.isWrapped closure || ids.contains closure then (ids, t)
  else (ids ++ [closure], t.forget closure)

/-- The queued closures without a live wrapper, each once; the queue is empty afterwards. -/
def takeOrphans (t : Closures) : List Int32 × Closures :=
  t.queue.foldl take ([], { t with queue := [] })

end Closures

end ModuleHost
