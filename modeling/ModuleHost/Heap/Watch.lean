/-
Finalization registries.

A registry watches targets through weak handles: a cell keeps its held value alive
but neither its target nor its token.  `collect` takes the cells whose target is
gone out of the registry and hands out their held values, in registration order;
`unregister` drops the cells of a token.
-/
import ModuleHost.Heap.Basic

namespace ModuleHost

namespace Heap

/-- Cells of a registry, in registration order. -/
def watchCells (h : Heap) (registry : Nat) : List WatchCell :=
  ((h.registries.get? registry).map (·.cells)).getD []

/-- Cleanup function of a registry. -/
def cleanup? (h : Heap) (registry : Nat) : Option FunctionRef :=
  (h.registries.get? registry).map (·.cleanup)

/-- Replace the cells of a registry. -/
def setWatchCells (h : Heap) (registry : Nat) (cells : List WatchCell) : Heap :=
  match h.registries.get? registry with
  | some r => { h with registries := h.registries.set registry { r with cells } }
  | none => h

/-- Watch a target.  Target and token must be watchable; the target is checked first. -/
def register (h : Heap) (registry : Nat) (target held : Value) (token : Option Value) :
    Except ConversionError Heap := do
  let target ← target.watchable
  let token ← match token with
    | some v => some <$> v.watchable
    | none => pure none
  let h := h.retain held
  return h.setWatchCells registry (h.watchCells registry ++ [⟨target, held, token⟩])

/-- Drop the cells registered with a token; says whether there was one. -/
def unregister (h : Heap) (registry : Nat) (token : Value) :
    Except ConversionError (Bool × Heap) := do
  let token ← token.watchable
  let cells := h.watchCells registry
  let gone := cells.filter (·.token = some token)
  let h := h.setWatchCells registry (cells.filter (·.token ≠ some token))
  return (!gone.isEmpty, h.releaseAll (gone.map (·.held)))

/-- Take out the cells whose target is gone.  The caller gets their handles on the held
values, in registration order. -/
def collect (h : Heap) (registry : Nat) : List Value × Heap :=
  let cells := h.watchCells registry
  ((cells.filter fun c => !h.isLive c.target).map (·.held),
    h.setWatchCells registry (cells.filter fun c => h.isLive c.target))

/-- A cleanup call that is due. -/
structure DueCleanup where
  cleanup : FunctionRef
  held : Value
  deriving DecidableEq, Repr

/-- The values a due cleanup call keeps alive. -/
def DueCleanup.values (d : DueCleanup) : List Value := [.function d.cleanup, d.held]

/-- Collect one of several registries. -/
def collectNext (due : List DueCleanup × Heap) (registry : Nat) : List DueCleanup × Heap :=
  let (calls, h) := due
  match h.cleanup? registry with
  | none => due
  | some cleanup =>
    let (held, h) := h.collect registry
    (calls ++ held.map (⟨cleanup, ·⟩), h.retainAll (held.map fun _ => .function cleanup))

/-- Collect several registries in order; those that are gone never notify.  The caller
gets a handle on both values of each call. -/
def collectAll (h : Heap) (registries : List Nat) : List DueCleanup × Heap :=
  registries.foldl collectNext ([], h)

end Heap

end ModuleHost
