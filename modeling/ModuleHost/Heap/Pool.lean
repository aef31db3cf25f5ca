/-
Counted cells.

A pool hands out numbered cells, each with the count of its strong handles.  The
last release frees the cell and gives its content back; a freed number is never
handed out again, so a number that outlives its cell refers to nothing.
-/
import Std.Data.TreeMap

namespace ModuleHost

/-- A live cell: its strong handles and its content. -/
structure Cell (α : Type) where
  count : Nat
  content : α
  deriving Repr

/-- The live cells by number; numbers are handed out in order. -/
structure Pool (α : Type) where
  /-- The number that is handed out next. -/
  next : Nat
  cells : Std.TreeMap Nat (Cell α)
  deriving Repr

namespace Pool

variable {α : Type}

/-- The pool without cells. -/
def empty : Pool α := ⟨0, ∅⟩

instance : Inhabited (Pool α) := ⟨empty⟩

/-- A live cell. -/
def cell? (p : Pool α) (id : Nat) : Option (Cell α) := p.cells[id]?

/-- Content of a live cell. -/
def get? (p : Pool α) (id : Nat) : Option α := (p.cell? id).map (·.content)

/-- Strong handles on a cell, none on a freed one. -/
def count (p : Pool α) (id : Nat) : Nat := ((p.cell? id).map (·.count)).getD 0

/-- Whether a cell has not been freed. -/
def isLive (p : Pool α) (id : Nat) : Bool := (p.cell? id).isSome

/-- Replace a cell. -/
def put (p : Pool α) (id : Nat) (c : Cell α) : Pool α :=
  { p with cells := p.cells.insert id c }

/-- A new cell with one handle. -/
def alloc (p : Pool α) (content : α) : Nat × Pool α :=
  (p.next, { p.put p.next ⟨1, content⟩ with next := p.next + 1 })

/-- Replace the content of a live cell. -/
def set (p : Pool α) (id : Nat) (content : α) : Pool α :=
  match p.cell? id with
  | some c => p.put id { c with content }
  | none => p

/-- One more handle on a live cell. -/
def retain (p : Pool α) (id : Nat) : Pool α :=
  match p.cell? id with
  | some c => p.put id { c with count := c.count + 1 }
  | none => p

/-- One handle less; the content comes back when it was the last one. -/
def release (p : Pool α) (id : Nat) : Option α × Pool α :=
  match p.cell? id with
  | some c =>
    if c.count ≤ 1 then (some c.content, { p with cells := p.cells.erase id })
    else (none, p.put id { c with count := c.count - 1 })
  | none => (none, p)

/-- Sum of a measure over the contents of the live cells. -/
def total (p : Pool α) (measure : α → Nat) : Nat :=
  p.cells.foldl (fun sum _ c => sum + measure c.content) 0

end Pool

end ModuleHost
