/-
What a text keeps when it goes through a string.

A string has no unpaired surrogates, so on the way through a string each of them is replaced by one
replacement character, which is one unit as well.  All other units stay, and no position moves.

* `Text.Unpaired` — a surrogate that is no half of a pair;
* `Text.Mends` — units in which the unpaired surrogates of others are replaced;
* `Text.mends_toString` — the way through a string;
* `Memory.Holds`, `HostCall.run_decodeUtf8` — the way through the bytes of a memory;
* `lossy_text_keeps_positions` — the main theorem.

Design notes: the code reads code points from the front, and `Unpaired` looks at the two neighbours
of a unit.  In a run of surrogates the two agree because a pair is followed by what could not be its
second half, and what is read alone is not followed by such.
-/
import Mathlib
import ModuleHost.Session.HostCalls
import ModuleHost.Proofs.Heap.Copies
import ModuleHost.Proofs.Heap.Scalars
import ModuleHost.Proofs.Text.Utf8

namespace ModuleHost

open Act

namespace Text

/-! ### Unpaired surrogates -/

/-- There is a high surrogate at a position. -/
def HighAt (us : List UInt16) (i : ℕ) : Prop := ∃ u, us[i]? = some u ∧ isHighSurrogate u = true

/-- There is a low surrogate at a position. -/
def LowAt (us : List UInt16) (i : ℕ) : Prop := ∃ u, us[i]? = some u ∧ isLowSurrogate u = true

/-- There is a surrogate at a position whose other half is missing: a high one with no low one
behind it, or a low one with no high one in front of it. -/
def Unpaired (us : List UInt16) (i : ℕ) : Prop :=
  HighAt us i ∧ ¬ LowAt us (i + 1) ∨ LowAt us i ∧ ∀ j, j + 1 = i → ¬ HighAt us j

variable {u v : UInt16} {us out : List UInt16} {i : ℕ}

theorem highAt_zero : HighAt (u :: us) 0 ↔ isHighSurrogate u = true := by simp [HighAt]

theorem lowAt_zero : LowAt (u :: us) 0 ↔ isLowSurrogate u = true := by simp [LowAt]

theorem highAt_succ : HighAt (u :: us) (i + 1) ↔ HighAt us i := Iff.rfl

theorem lowAt_succ : LowAt (u :: us) (i + 1) ↔ LowAt us i := Iff.rfl

theorem pairs_iff : Pairs u us ↔ isHighSurrogate u = true ∧ LowAt us 0 := by
  rw [Pairs, LowAt, List.head?_eq_getElem?]

/-- A high surrogate is not a low one. -/
theorem not_isLowSurrogate (hu : isHighSurrogate u = true) : ¬ isLowSurrogate u = true := by
  rw [isHighSurrogate_iff] at hu
  rw [isLowSurrogate_iff]
  omega

/-- A surrogate in front that makes no pair is unpaired. -/
theorem unpaired_zero (h : ¬ Pairs u us) : Unpaired (u :: us) 0 ↔ IsSurrogate u.toNat := by
  rw [pairs_iff] at h
  rw [Unpaired, highAt_zero, lowAt_zero, lowAt_succ, isSurrogate_toNat]
  refine or_congr (and_iff_left_of_imp fun hu hlow => h ⟨hu, hlow⟩) (and_iff_left ?_)
  exact fun j hj => absurd hj (Nat.succ_ne_zero j)

/-- What comes behind the next unit does not depend on the unit in front. -/
theorem unpaired_succ_succ : Unpaired (u :: us) (i + 2) ↔ Unpaired us (i + 1) := by
  have hprevious : (∀ j, j + 1 = i + 2 → ¬ HighAt (u :: us) j)
      ↔ ∀ j, j + 1 = i + 1 → ¬ HighAt us j := by
    simp [highAt_succ]
  rw [Unpaired, Unpaired, hprevious]
  rfl

/-- A unit that makes no pair does not matter to the units behind it. -/
theorem unpaired_succ (h : ¬ Pairs u us) : Unpaired (u :: us) (i + 1) ↔ Unpaired us i := by
  cases i with
  | succ i => exact unpaired_succ_succ
  | zero =>
    rw [pairs_iff] at h
    rw [Unpaired, Unpaired, highAt_succ, lowAt_succ, lowAt_succ]
    refine or_congr_right (and_congr_right fun hlow => iff_of_true ?_ ?_)
    · rintro j hj hhigh
      obtain rfl : j = 0 := Nat.succ.inj hj
      exact h ⟨highAt_zero.mp hhigh, hlow⟩
    · exact fun j hj => absurd hj (Nat.succ_ne_zero j)

section Pair

variable (hu : isHighSurrogate u = true) (hv : isLowSurrogate v = true)

include hu hv

theorem not_unpaired_high : ¬ Unpaired (u :: v :: us) 0 := by
  rintro (⟨-, hlow⟩ | ⟨hlow, -⟩)
  · exact hlow (lowAt_succ.mpr (lowAt_zero.mpr hv))
  · exact not_isLowSurrogate hu (lowAt_zero.mp hlow)

theorem not_unpaired_low : ¬ Unpaired (u :: v :: us) 1 := by
  rintro (⟨hhigh, -⟩ | ⟨-, hprevious⟩)
  · exact not_isLowSurrogate (highAt_zero.mp (highAt_succ.mp hhigh)) hv
  · exact hprevious 0 rfl (highAt_zero.mpr hu)

omit hu in
theorem unpaired_behind_pair : Unpaired (u :: v :: us) (i + 2) ↔ Unpaired us i := by
  have hsingle : ¬ Pairs v us := fun h => not_isLowSurrogate h.1 hv
  rw [unpaired_succ_succ, unpaired_succ hsingle]

end Pair

/-! ### The way through a string -/

/-- The unpaired surrogates of a run of units are replaced, and the other units are as before. -/
def Mends (us out : List UInt16) : Prop :=
  ∀ i, (Unpaired us i → out[i]? = some 0xfffd) ∧ (¬ Unpaired us i → out[i]? = us[i]?)

theorem mends_nil : Mends [] [] := by
  refine fun i => ⟨fun h => ?_, fun _ => rfl⟩
  simp [Unpaired, HighAt, LowAt] at h

theorem Mends.pair (hu : isHighSurrogate u = true) (hv : isLowSurrogate v = true)
    (h : Mends us out) : Mends (u :: v :: us) (u :: v :: out) := by
  intro i
  match i with
  | 0 => exact ⟨fun hun => absurd hun (not_unpaired_high hu hv), fun _ => rfl⟩
  | 1 => exact ⟨fun hun => absurd hun (not_unpaired_low hu hv), fun _ => rfl⟩
  | i + 2 =>
    rw [unpaired_behind_pair hv]
    exact h i

theorem Mends.single (hsingle : ¬ Pairs u us) (h : Mends us out) :
    Mends (u :: us) (unitsOf (replaced u.toNat) ++ out) := by
  have hunit : unitsOf (replaced u.toNat) = [if IsSurrogate u.toNat then 0xfffd else u] := by
    rw [replaced]
    split
    · rfl
    · exact unitsOf_toNat u
  rw [hunit]
  intro i
  cases i with
  | zero =>
    rw [unpaired_zero hsingle]
    exact ⟨fun hs => congrArg some (if_pos hs), fun hs => congrArg some (if_neg hs)⟩
  | succ i =>
    rw [unpaired_succ hsingle]
    exact h i

/-- Reading from the front replaces what is unpaired. -/
theorem mends_written (us : List UInt16) : Mends us (written ((points us).map replaced)) := by
  induction us using points_induction with
  | nil => exact mends_nil
  | pair u v rest hu hv ih =>
    have hkept := replaced_eq_self_iff.mpr (not_isSurrogate_joinSurrogates hu hv)
    rw [points_pair hu hv, List.map_cons, written_cons, hkept, unitsOf_joinSurrogates hu hv]
    exact ih.pair hu hv
  | single u rest hsingle ih =>
    rw [points_single hsingle, List.map_cons, written_cons]
    exact ih.single hsingle

theorem mends_toString (s : Text) : Mends s.units (ofString s.toString).units := by
  rw [units_ofString_toString]
  exact mends_written s.units

theorem isSurrogate_of_unpaired (h : Unpaired us i) :
    ∃ u, us[i]? = some u ∧ IsSurrogate u.toNat := by
  obtain ⟨⟨u, hu, hhigh⟩, -⟩ | ⟨⟨u, hu, hlow⟩, -⟩ := h
  · exact ⟨u, hu, isSurrogate_toNat.mpr (.inl hhigh)⟩
  · exact ⟨u, hu, isSurrogate_toNat.mpr (.inr hlow)⟩

/-- Nothing was replaced exactly if there was nothing to replace. -/
theorem Mends.eq_iff (h : Mends us out) : out = us ↔ ∀ i, ¬ Unpaired us i := by
  constructor
  · rintro rfl i hun
    obtain ⟨u, hu, hs⟩ := isSurrogate_of_unpaired hun
    rw [(h i).1 hun] at hu
    cases hu
    exact absurd hs (by decide)
  · exact fun hall => List.ext_getElem? fun i => (h i).2 (hall i)

end Text

/-! ### The way through a memory -/

/-- The bytes from an address on. -/
structure Memory.Holds (memory : Memory) (address : ℕ) (bytes : List UInt8) : Prop where
  fits : address + bytes.length ≤ memory.size
  bytes (i : ℕ) (b : UInt8) (hb : bytes[i]? = some b) : memory.byte (address + i) = b

theorem Memory.Holds.slice_eq {memory : Memory} {address : ℕ} {bytes : List UInt8}
    (h : memory.Holds address bytes) : memory.contents.slice address bytes.length = bytes := by
  refine List.ext_getElem? fun i => ?_
  by_cases hi : i < bytes.length
  · have hb : bytes[i]? = some bytes[i] := List.getElem?_eq_getElem hi
    rw [ByteStore.getElem?_slice hi, hb]
    exact congrArg some (h.bytes i _ hb)
  · have hbeyond : bytes.length ≤ i := not_lt.mp hi
    rw [List.getElem?_eq_none (by rwa [ByteStore.length_slice]), List.getElem?_eq_none hbeyond]

namespace HostCall

variable {γ : Type} {m : Machine γ} {w : World γ} {id address : ℕ} {memory : Memory} {a n : Int32}
  {bytes : List UInt8}

theorem index_of_toInt_eq {i : ℕ} (ha : a.toInt = i) : (index a : Act γ ℕ) w = .ok i w := by
  have hnonneg : 0 ≤ a := by
    rw [Int32.le_iff_toInt_le, ha]
    exact Int.natCast_nonneg i
  rw [index_of_nonneg hnonneg, ha, Int.toNat_natCast]

/-- Bytes of the memory are decoded as a string. -/
theorem run_decodeUtf8 (hid : w.session.memory = some id)
    (hmem : w.session.memories[id]? = some memory) (ha : a.toInt = address)
    (hn : n.toInt = bytes.length) (hholds : memory.Holds address bytes) :
    run m .decodeUtf8 [.i32 a, .i32 n] w
      = .ok [.ref (.host (.string (.ofString (Utf8.decode bytes))))] w := by
  have hread : (readMemory address bytes.length : Act γ (List UInt8)) w = .ok bytes w := by
    rw [readMemory_of_le hid hmem hholds.fits, hholds.slice_eq]
  have hdecode : (decodeUtf8 a n : Act γ Reference) w
      = .ok (.host (.string (.ofString (Utf8.decode bytes)))) w := by
    refine (bind_of_ok (index_of_toInt_eq ha) _).trans ?_
    refine (bind_of_ok (index_of_toInt_eq hn) _).trans ?_
    exact bind_of_ok hread _
  exact bind_of_ok hdecode _

end HostCall

/-! ### The main theorem -/

/-- A text that goes through a string keeps its length and all its units, except that every unpaired
surrogate becomes a replacement character.  So a second time changes nothing, and the first time
changes nothing exactly if no surrogate is unpaired.  The same text comes out of the bytes of
that string, wherever in its memory a module has them. -/
theorem lossy_text_keeps_positions (s : Text) :
    let t := Text.ofString s.toString
    t.length = s.length ∧
    (∀ i < s.length, (Text.Unpaired s.units i → t.unit? i = some 0xfffd) ∧
      (¬ Text.Unpaired s.units i → t.unit? i = s.unit? i)) ∧
    Text.ofString t.toString = t ∧
    (t = s ↔ ∀ i, ¬ Text.Unpaired s.units i) ∧
    ∀ {γ : Type} (m : Machine γ) (w : World γ) (id address : ℕ) (memory : Memory) (a n : Int32),
      w.session.memory = some id → w.session.memories[id]? = some memory →
      memory.Holds address (Utf8.encode s.toString) →
      a.toInt = address → n.toInt = (Utf8.encode s.toString).length →
      HostCall.run m .decodeUtf8 [.i32 a, .i32 n] w = .ok [.ref (.host (.string t))] w := by
  intro t
  have hmends : Text.Mends s.units t.units := Text.mends_toString s
  refine ⟨Text.length_ofString_toString s, fun i _ => hmends i, ?_, ?_, ?_⟩
  · exact congrArg Text.ofString (Text.toString_ofString _)
  · rw [← hmends.eq_iff]
    exact ⟨congrArg Text.units, Text.ext⟩
  · intro γ m w id address memory a n hid hmem hholds ha hn
    have hrun := HostCall.run_decodeUtf8 (m := m) hid hmem ha hn hholds
    rwa [Utf8.decode_encode] at hrun

/-- A pair between a high and a low surrogate that belong to no pair, and a letter. -/
def aroundPair : Text := ⟨[0xd800, 0xd83d, 0xde00, 0xdc00, 0x41]⟩

/-- The bytes of its string. -/
def aroundPairBytes : List UInt8 :=
  [0xef, 0xbf, 0xbd, 0xf0, 0x9f, 0x98, 0x80, 0xef, 0xbf, 0xbd, 0x41]

theorem encode_aroundPair : Utf8.encode aroundPair.toString = aroundPairBytes := by
  rw [Utf8.encode_eq, Text.toString, String.toList_ofList]
  decide

/-- A page with these bytes in it. -/
def pageWithBytes : Memory where
  pages := 1
  maximum := none
  contents := (ByteStore.zeros pageSize).patch 16 aroundPairBytes
  size_contents := ByteStore.size_patch _ _ _

theorem pageWithBytes_holds : pageWithBytes.Holds 16 aroundPairBytes where
  fits := by decide
  bytes i b hb := by
    show ((ByteStore.zeros pageSize).patch 16 aroundPairBytes).byte (16 + i) = b
    rw [ByteStore.byte_patch, if_pos (Nat.le_add_right _ _), Nat.add_sub_cancel_left, hb]
    rfl

/-- A module that has a page with them. -/
def withPairBytes : World Unit := withPage.withMemory 0 pageWithBytes

/-- The two that belong to no pair are replaced, the others are not, and the module is given the
same when it has the bytes decoded. -/
theorem lossy_text_keeps_positions_aroundPair :
    let t : Text := ⟨[0xfffd, 0xd83d, 0xde00, 0xfffd, 0x41]⟩
    Text.ofString aroundPair.toString = t ∧ Text.ofString t.toString = t ∧
    (pageWithBytes.Holds 16 (Utf8.encode aroundPair.toString) ∧
      HostCall.run absentModule .decodeUtf8 [.i32 16, .i32 11] withPairBytes
        = .ok [.ref (.host (.string t))] withPairBytes) := by
  obtain ⟨-, -, hagain, -, hdecode⟩ := lossy_text_keeps_positions aroundPair
  have ht : Text.ofString aroundPair.toString = ⟨[0xfffd, 0xd83d, 0xde00, 0xfffd, 0x41]⟩ := by
    refine Text.ext ((Text.units_ofString_toString aroundPair).trans ?_)
    decide
  have hholds : pageWithBytes.Holds 16 (Utf8.encode aroundPair.toString) :=
    encode_aroundPair ▸ pageWithBytes_holds
  have hlength : (11 : Int32).toInt = (Utf8.encode aroundPair.toString).length := by
    rw [encode_aroundPair]
    rfl
  rw [ht] at hagain hdecode
  exact ⟨ht, hagain, hholds, hdecode absentModule withPairBytes 0 16 pageWithBytes 16 11 rfl rfl
    hholds rfl hlength⟩

end ModuleHost
