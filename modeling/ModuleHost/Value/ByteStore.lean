/-
Stores of bytes.

A store has a fixed size and is zero wherever nothing has been written, so a large one
costs no more than what is written to it.  `ByteStore.byte` is the view through which a
store is known:

* `byte_zeros` and `byte_patch` say what a fresh store and a patched one hold;
* `ByteStore.read` and `ByteStore.write` are bounded copies: a range that leaves the store
  is refused and nothing is written.
-/
import Std.Data.TreeMap
import ModuleHost.Value.Error

namespace ModuleHost

/-- A run of bytes, zero where nothing has been written. -/
structure ByteStore where
  size : Nat
  written : Std.TreeMap Nat UInt8
  deriving Repr

namespace ByteStore

/-- A store of zeros. -/
def zeros (size : Nat) : ByteStore := ⟨size, ∅⟩

instance : Inhabited ByteStore := ⟨zeros 0⟩

/-- The byte at an offset. -/
def byte (s : ByteStore) (offset : Nat) : UInt8 := s.written.getD offset 0

/-- `length` bytes from an offset on, whether or not they are within the store. -/
def slice (s : ByteStore) (offset length : Nat) : List UInt8 :=
  (List.range length).map fun i => s.byte (offset + i)

/-- Store bytes from an offset on, whether or not they are within the store. -/
def patch (s : ByteStore) : (offset : Nat) → List UInt8 → ByteStore
  | _, [] => s
  | offset, b :: rest => { s with written := s.written.insert offset b }.patch (offset + 1) rest

/-- All bytes. -/
def toList (s : ByteStore) : List UInt8 := s.slice 0 s.size

/-- The store of these bytes. -/
def ofList (bytes : List UInt8) : ByteStore := (zeros bytes.length).patch 0 bytes

/-- A store with so many more bytes, all zero. -/
def extend (s : ByteStore) (extra : Nat) : ByteStore := { s with size := s.size + extra }

/-- A copy of `length` bytes from an offset on. -/
def read (s : ByteStore) (offset length : Nat) : Except ConversionError (List UInt8) := do
  requireRange offset length s.size
  return s.slice offset length

/-- Overwrite the bytes from an offset on. -/
def write (s : ByteStore) (offset : Nat) (bytes : List UInt8) :
    Except ConversionError ByteStore := do
  requireRange offset bytes.length s.size
  return s.patch offset bytes

/-! ### What a store holds -/

@[simp]
theorem byte_zeros (size offset : Nat) : (zeros size).byte offset = 0 := by
  simp [zeros, byte]

@[simp]
theorem size_patch (s : ByteStore) (offset : Nat) (bytes : List UInt8) :
    (s.patch offset bytes).size = s.size := by
  induction bytes generalizing s offset with
  | nil => rfl
  | cons b rest ih => exact ih ..

/-- A patched store holds the new bytes where they were written and the old ones elsewhere. -/
theorem byte_patch (s : ByteStore) (offset : Nat) (bytes : List UInt8) (i : Nat) :
    (s.patch offset bytes).byte i =
      if offset ≤ i then (bytes[i - offset]?).getD (s.byte i) else s.byte i := by
  induction bytes generalizing s offset with
  | nil => simp [patch]
  | cons b rest ih =>
    rw [patch, ih]
    simp only [byte, Std.TreeMap.getD_insert]
    by_cases h : offset = i
    · have after : ¬ offset + 1 ≤ i := by omega
      rw [if_neg after, if_pos (Nat.le_of_eq h)]
      simp [h]
    · by_cases hle : offset ≤ i
      · obtain ⟨k, rfl⟩ := Nat.exists_eq_add_of_lt (Nat.lt_of_le_of_ne hle h)
        have : offset + k + 1 - offset = k + 1 := by omega
        have : offset + k + 1 - (offset + 1) = k := by omega
        simp [*]
      · have : ¬ offset + 1 ≤ i := by omega
        simp [*]

@[simp]
theorem length_slice (s : ByteStore) (offset length : Nat) :
    (s.slice offset length).length = length := by
  simp [slice]

end ByteStore

end ModuleHost
