/-
Linear memory.

A memory is a whole number of pages, all zero at first.  Every access is a bounded
copy: a range that leaves the memory is refused and nothing is written.
-/
import ModuleHost.Value.ByteStore

namespace ModuleHost

/-- Bytes in a page. -/
def pageSize : Nat := 65536

/-- Most pages that 32-bit addresses reach. -/
def maxPages : Nat := 65536

/-- A linear memory. -/
structure Memory where
  pages : Nat
  maximum : Option Nat
  contents : ByteStore
  /-- The bytes fill the pages. -/
  size_contents : contents.size = pages * pageSize

namespace Memory

/-- A memory of zeros. -/
def zeroed (pages : Nat) (maximum : Option Nat) : Memory :=
  ⟨pages, maximum, .zeros (pages * pageSize), rfl⟩

instance : Inhabited Memory := ⟨zeroed 0 none⟩

/-- Size in bytes. -/
def size (m : Memory) : Nat := m.contents.size

/-- The byte at an address. -/
def byte (m : Memory) (address : Nat) : UInt8 := m.contents.byte address

/-- A copy of `length` bytes from an address on. -/
def read (m : Memory) (address length : Nat) : Except ConversionError (List UInt8) :=
  m.contents.read address length

/-- Overwrite the bytes from an address on. -/
def write (m : Memory) (address : Nat) (bytes : List UInt8) : Except ConversionError Memory := do
  requireRange address bytes.length m.size
  return { m with
    contents := m.contents.patch address bytes
    size_contents := by simpa using m.size_contents }

/-- More pages, unless that goes past the memory's maximum or the given limit. -/
def grow? (m : Memory) (extra limit : Nat) : Option Memory :=
  let pages := m.pages + extra
  if pages ≤ (m.maximum.getD maxPages) ∧ pages ≤ maxPages ∧ pages ≤ limit then
    some { m with
      pages
      contents := m.contents.extend (extra * pageSize)
      size_contents := by
        simp only [ByteStore.extend, m.size_contents, pages]
        exact (Nat.add_mul ..).symm }
  else none

end Memory

end ModuleHost
