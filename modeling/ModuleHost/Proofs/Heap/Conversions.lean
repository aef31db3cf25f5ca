/-
Numbers that are stored in typed arrays.

A number that is stored as an element comes back as what the element type can hold of it, and what
comes back is stored as the same bytes.  An array can be filled at once, element by element, or
from a list of the module: its bytes are the same in all three ways.

* `Heap.bytes_setContents` — which buffer changes when one is replaced;
* `TypedView.exists_set` — what is stored, and what is then read;
* `TypedView.bytes_set_of_get?` — writing back what was read;
* `TypedView.exists_setAll` — filling an array element by element;
* `elements_are_converted` — the main theorem.

Design notes: only the word of an element matters, so that an element is read, stored or copied is
said of words; which number a word stands for is `Element.quantity_number`.
-/
import Mathlib
import ModuleHost.Proofs.Heap.Copies
import ModuleHost.Proofs.Heap.Lists
import ModuleHost.Proofs.Session.Machine
import ModuleHost.Proofs.Value.Elements

namespace ModuleHost

open Act

variable {γ : Type} {m : Machine γ} {w : World γ} {v : TypedView} {h h' : Heap}

/-! ### Contents of buffers -/

namespace ByteStore

theorem patch_append (s : ByteStore) (offset : ℕ) (first second : List UInt8) :
    s.patch offset (first ++ second)
      = (s.patch offset first).patch (offset + first.length) second := by
  induction first generalizing s offset with
  | nil => rfl
  | cons b rest ih =>
    rw [List.cons_append, patch, patch, ih, List.length_cons, Nat.add_assoc, Nat.add_comm 1]

/-- A store that is patched with what it holds there holds what it did. -/
theorem byte_patch_slice (s : ByteStore) (offset n i : ℕ) :
    (s.patch offset (s.slice offset n)).byte i = s.byte i := by
  rw [byte_patch]
  split
  · rename_i hle
    by_cases hin : i - offset < n
    · rw [getElem?_slice hin, Nat.add_sub_cancel' hle]
      rfl
    · rw [List.getElem?_eq_none (by rw [length_slice]; omega)]
      rfl
  · rfl

theorem toList_ofList (bytes : List UInt8) : (ofList bytes).toList = bytes := by
  rw [toList, size_ofList]
  exact (overwritten_patch (zeros bytes.length) 0 bytes).inside

theorem toList_congr {s s' : ByteStore} (hsize : s'.size = s.size)
    (hbyte : ∀ i, s'.byte i = s.byte i) : s'.toList = s.toList := by
  rw [toList, toList, slice, slice, hsize]
  exact List.map_congr_left fun i _ => hbyte _

end ByteStore

namespace Heap

variable {buffer b : ℕ} {contents : ByteStore}

theorem contents_setContents_ne (hne : buffer ≠ b) :
    (h.setContents buffer contents).contents b = h.contents b := by
  rw [setContents, Heap.contents, Heap.contents, Pool.get?_set, if_neg hne]

/-- A buffer that is replaced by one with the same bytes. -/
theorem bytes_setContents (hl : h.buffers.isLive buffer = true)
    (hsize : contents.size = h.byteLength buffer)
    (hbyte : ∀ i, contents.byte i = (h.contents buffer).byte i) :
    (h.setContents buffer contents).bytes b = h.bytes b := by
  by_cases hb : buffer = b
  · subst hb
    rw [bytes, bytes, contents_setContents hl]
    exact ByteStore.toList_congr hsize hbyte
  · rw [bytes, bytes, contents_setContents_ne hb]

theorem contents_newBuffer (h : Heap) (contents : ByteStore) :
    (h.newBuffer contents).2.contents h.buffers.next = contents := by
  have hget : (h.newBuffer contents).2.buffers.get? h.buffers.next = some contents := by
    rw [newBuffer, Pool.get?_alloc, if_pos rfl]
  rw [Heap.contents, hget]
  rfl

theorem isLive_newBuffer (h : Heap) (contents : ByteStore) :
    (h.newBuffer contents).2.buffers.isLive h.buffers.next = true := by
  rw [newBuffer, Pool.isLive_alloc, decide_eq_true rfl, Bool.true_or]

end Heap

/-! ### One element -/

namespace TypedView

variable {i : ℕ} {x y : Double}

/-- A number is stored as the bytes of its word. -/
theorem exists_set (hl : h.buffers.isLive v.buffer = true) (hi : i < v.length) (x : Double) :
    ∃ h', v.set h i x = .ok h' ∧ h'.buffers.isLive v.buffer = true ∧
      h' = h.setContents v.buffer (h'.contents v.buffer) ∧
      h'.contents v.buffer = (h.contents v.buffer).patch (v.offset + i * v.element.width)
        (v.element.encode h.littleEndian x) := by
  have hset : v.set h i x = .ok (h.setContents v.buffer ((h.contents v.buffer).patch
      (v.offset + i * v.element.width) (v.element.encode h.littleEndian x))) := by
    rw [set, requireRange, if_pos (show i + 1 ≤ v.length from hi)]
    rfl
  refine ⟨_, hset, Pool.isLive_set.trans hl, ?_, Heap.contents_setContents hl⟩
  rw [Heap.contents_setContents hl]

theorem word_lt (v : TypedView) (h : Heap) (i : ℕ) :
    v.word h i < 2 ^ (8 * v.element.width) := by
  have hword := ofLeBytes_lt (inOrder h.littleEndian
    ((h.contents v.buffer).slice (v.offset + i * v.element.width) v.element.width))
  rwa [length_inOrder, ByteStore.length_slice] at hword

/-- The word of an element is the one whose bytes were stored there. -/
theorem word_of_patch {n : ℕ} (hn : n < 2 ^ (8 * v.element.width)) (hc : h'.contents v.buffer
      = (h.contents v.buffer).patch (v.offset + i * v.element.width)
        (inOrder h'.littleEndian (leBytes v.element.width n))) :
    v.word h' i = n := by
  have hinside := (ByteStore.overwritten_patch (h.contents v.buffer)
    (v.offset + i * v.element.width) (inOrder h'.littleEndian (leBytes v.element.width n))).inside
  rw [length_inOrder, length_leBytes] at hinside
  rw [word, hc, hinside, inOrder_inOrder, ofLeBytes_leBytes, Nat.mod_eq_of_lt hn]

/-- A number that was stored is read as that of its word. -/
theorem get?_of_set (hl : h.buffers.isLive v.buffer = true) (hi : i < v.length)
    (hset : v.set h i x = .ok h') : v.get? h' i = some (v.element.number (v.element.word x)) := by
  obtain ⟨h₁, hset₁, -, hh₁, hcontents⟩ := exists_set hl hi x
  obtain rfl := Except.ok.inj (hset₁.symm.trans hset)
  have horder : h₁.littleEndian = h.littleEndian := by rw [hh₁, Heap.setContents]
  rw [Element.encode, ← horder] at hcontents
  rw [get?_eq_number hi, word_of_patch (v.element.word_lt x) hcontents]

/-- What was read is stored as the same bytes. -/
theorem bytes_set_of_get? (hv : v.Lies h) (he : v.element ≠ .float32) (hy : v.get? h i = some y) :
    ∃ h', v.set h i y = .ok h' ∧ ∀ b, h'.bytes b = h.bytes b := by
  have hi : i < v.length := by
    by_contra hn
    rw [get?, if_neg hn] at hy
    cases hy
  rw [get?_eq_number hi] at hy
  obtain rfl := Option.some.inj hy
  obtain ⟨h', hset, -, hh', hcontents⟩ := exists_set hv.window.live hi
    (v.element.number (v.word h i))
  rw [Element.encode, Element.word_number he (v.word_lt h i), leBytes_word,
    inOrder_inOrder] at hcontents
  refine ⟨h', hset, fun b => ?_⟩
  rw [hh', hcontents]
  exact Heap.bytes_setContents hv.window.live (ByteStore.size_patch _ _ _)
    fun k => ByteStore.byte_patch_slice _ _ _ k

/-! ### All elements -/

/-- Store numbers one after the other, from the first element on. -/
def setAll (v : TypedView) (h : Heap) (numbers : List Double) : Except ConversionError Heap :=
  numbers.zipIdx.foldlM (fun h (x, i) => v.set h i x) h

/-- Numbers that are stored from an element on leave their bytes one after the other. -/
theorem exists_foldlM_set (numbers : List Double) : ∀ {h : Heap} {i : ℕ},
    h.buffers.isLive v.buffer = true → i + numbers.length ≤ v.length →
    ∃ h', (numbers.zipIdx i).foldlM (fun h (x, i) => v.set h i x) h = .ok h' ∧
      h'.buffers.isLive v.buffer = true ∧ h'.littleEndian = h.littleEndian ∧
      h'.contents v.buffer = (h.contents v.buffer).patch (v.offset + i * v.element.width)
        (numbers.flatMap (v.element.encode h.littleEndian)) := by
  induction numbers with
  | nil => exact fun {h i} hl _ => ⟨h, rfl, hl, rfl, rfl⟩
  | cons x rest ih =>
    intro h i hl hle
    rw [List.length_cons] at hle
    obtain ⟨h₁, hset, hl₁, hh₁, hcontents₁⟩ := exists_set hl (by omega : i < v.length) x
    have horder₁ : h₁.littleEndian = h.littleEndian := by rw [hh₁, Heap.setContents]
    obtain ⟨h', hrest, hl', horder, hcontents⟩ :=
      ih hl₁ (by omega : i + 1 + rest.length ≤ v.length)
    refine ⟨h', ?_, hl', horder.trans horder₁, ?_⟩
    · rw [List.zipIdx_cons, List.foldlM_cons]
      show (v.set h i x >>= _) = _
      rw [hset]
      exact hrest
    · rw [hcontents, hcontents₁, horder₁, List.flatMap_cons, ByteStore.patch_append,
        v.element.length_encode, Nat.succ_mul, Nat.add_assoc]

/-- An array that is made of numbers at once holds their bytes. -/
theorem bytes_typedArrayOf (h : Heap) (e : Element) (numbers : List Double) :
    (h.typedArrayOf e numbers).2.bytes (h.typedArrayOf e numbers).1.buffer
      = numbers.flatMap (e.encode h.littleEndian) := by
  show (((h.newBuffer _).2).contents h.buffers.next).toList = _
  rw [Heap.contents_newBuffer, ByteStore.toList_ofList]

/-- And so does a fresh array in which they are stored one by one. -/
theorem exists_setAll (h : Heap) (e : Element) (numbers : List Double) :
    ∃ h', (h.newTypedArray e numbers.length).1.setAll (h.newTypedArray e numbers.length).2 numbers
        = .ok h' ∧
      h'.bytes (h.newTypedArray e numbers.length).1.buffer
        = numbers.flatMap (e.encode h.littleEndian) := by
  let v : TypedView := ⟨e, h.buffers.next, 0, numbers.length⟩
  let fresh : Heap := (h.newBuffer (.zeros (numbers.length * e.width))).2
  have hlive : fresh.buffers.isLive v.buffer = true := h.isLive_newBuffer _
  obtain ⟨h', hall, -, -, hcontents⟩ :=
    exists_foldlM_set numbers hlive (by rw [Nat.zero_add] : 0 + numbers.length ≤ v.length)
  have hzeros : fresh.contents v.buffer
      = .zeros (numbers.flatMap (e.encode h.littleEndian)).length := by
    rw [length_flatMap_encode]
    exact h.contents_newBuffer _
  refine ⟨h', hall, ?_⟩
  show (h'.contents v.buffer).toList = _
  rw [hcontents, hzeros, Nat.zero_mul]
  exact ByteStore.toList_ofList _

end TypedView

/-! ### The main theorem -/

/-- What comes back of a number that was stored: the one integer that the element type stores of it,
or the number itself. -/
structure Element.Converts (e : Element) (x y : Double) : Prop where
  integer : e.isFloat = false → ∃ n : ℤ, y.quantity = .rational n ∧ ∀ k, e.Stores x k ↔ k = n
  double : e = .float64 → y = x

theorem Element.converts_number (e : Element) (x : Double) :
    e.Converts x (e.number (e.word x)) where
  integer he := ⟨e.integer (e.word x), quantity_number he (e.word_lt x), fun _ => stores_iff he⟩
  double he := by
    subst he
    exact congrArg Double.mk (UInt64.ofNat_toNat)

/-- A number that is stored in a typed array, at any index in range, comes back as the one integer
that the element type stores of it, or as it is.  What was read is stored as the same bytes; of
binary32 elements this is not said.  And whether an array is made of numbers at once, filled one by
one, or made of a list of the module, its bytes are the same, in the byte order of the machine,
which no code of the module changes. -/
theorem elements_are_converted (hv : Obtained m w (.typedArray v)) :
    (∀ i < v.length, ∀ x, ∃ h' y, v.set w.session.heap i x = .ok h' ∧ v.get? h' i = some y ∧
      v.element.Converts x y) ∧
    (v.element ≠ .float32 → ∀ i y, v.get? w.session.heap i = some y →
      ∃ h', v.set w.session.heap i y = .ok h' ∧ ∀ b, h'.bytes b = w.session.heap.bytes b) ∧
    ∀ (h : Heap) (e : Element) (numbers : List Double),
      (h.typedArrayOf e numbers).2.bytes (h.typedArrayOf e numbers).1.buffer
        = numbers.flatMap (e.encode h.littleEndian) ∧
      (∃ h', (h.newTypedArray e numbers.length).1.setAll
            (h.newTypedArray e numbers.length).2 numbers = .ok h' ∧
        h'.bytes (h.newTypedArray e numbers.length).1.buffer
          = numbers.flatMap (e.encode h.littleEndian)) ∧
      ∀ (S : NumberLists m) (list : Int32), S.Valid w → S.Has w list numbers →
        numbers.length < 2 ^ 31 →
        ∃ u w', HostCall.typedArrayFromModuleList m (Int32.ofNat e.tag) list w
            = .ok (.host (.typedArray u)) w' ∧
          u.element = e ∧ u.length = numbers.length ∧
          w'.session.heap.bytes u.buffer
            = numbers.flatMap (e.encode w'.session.heap.littleEndian) ∧
          (m.Evolving → w'.session.heap.littleEndian = w.session.heap.littleEndian) := by
  have hlies : v.Lies w.session.heap := hv.lies
  refine ⟨fun i hi x => ?_, fun he i y hy => TypedView.bytes_set_of_get? hlies he hy,
    fun h e numbers => ⟨TypedView.bytes_typedArrayOf h e numbers,
      TypedView.exists_setAll h e numbers, fun S list hw hh hlength => ?_⟩⟩
  · obtain ⟨h', hset, -⟩ := TypedView.exists_set hlies.window.live hi x
    exact ⟨h', _, hset, TypedView.get?_of_set hlies.window.live hi hset,
      v.element.converts_number x⟩
  · obtain ⟨h₁, w', hmade, hheap⟩ := S.exists_typedArrayFromModuleList hw hh hlength e
    have hpatient := HostCall.patient_typedArrayFromModuleList (m := m) (Int32.ofNat e.tag) list
    refine ⟨_, w', hmade, rfl, rfl, ?_, fun hm => ?_⟩
    · rw [hheap]
      exact TypedView.bytes_typedArrayOf h₁ e numbers
    · exact ((hpatient.orderly.evolving hm).of_ok hmade).littleEndian_eq

/-- A kept number. -/
def loadNumber (i : Int32) : Act (List Double) (List Val) := fun w =>
  match w.guest[i.toUInt32.toNat]? with
  | some x => .ok [.ref (.host (.number x))] w
  | none => .error (.trap .unreachable) w

/-- A module that keeps one list of numbers, whatever the handle. -/
def listing : Code (List Double) where
  own _ _ place args :=
    if place = .named "$listLength" then fun w => .ok [.i32 (Int32.ofNat w.guest.length)] w
    else match args with
      | [_, .i32 i] => loadNumber i
      | _ => throw (.trap .unreachable)
  supplied _ _ _ _ := return []
  native _ _ := return .undefined
  note _ := return ()

theorem listing_sandboxed : listing.Sandboxed where
  own _ _ _ place args := by
    unfold listing
    refine .ite (fun _ => .refl) ?_
    split
    next i =>
      intro w
      have hsame : final (loadNumber i) w = w := by
        rw [final, loadNumber]
        cases w.guest[i.toUInt32.toNat]? <;> rfl
      rw [hsame]
      exact .refl
    · exact .throw _
  supplied _ _ _ _ _ := .pure _
  native _ _ := .pure _
  note _ := .pure _

def listingLength : Func := .own 1 (.named "$listLength") ⟨[.i32], [.i32]⟩

def listingRead : Func := .own 1 (.named "$listRead") ⟨[.i32, .i32], [.externref]⟩

def listingExports : Instance :=
  ⟨[("$listLength", .func listingLength), ("$listRead", .func listingRead)]⟩

/-- The list of that module. -/
def listingNumbers : NumberLists (listing.machine 1) where
  exports := listingExports
  length := listingLength
  read := listingRead
  Valid w := w.session.primary = some listingExports
  Has w _ numbers := w.guest = numbers
  linked hw := hw
  length_exported := by decide
  read_exported := by decide
  length_type := rfl
  read_type := rfl
  counts {w list numbers} hw hh _ := by
    subst hh
    exact ⟨w, rfl, hw, rfl⟩
  reads {w list numbers i x} hw hh hlength hx := by
    subst hh
    refine ⟨w, ?_, hw, rfl⟩
    have hi := (List.getElem?_eq_some_iff.mp hx).1
    have hload : loadNumber (Int32.ofNat i) w = .ok [.ref (.host (.number x))] w := by
      rw [loadNumber, toNat_index hlength hi, hx]
    exact hload

/-- Two and a half, and one and a half below zero. -/
def halves : List Double := [⟨0x4004000000000000⟩, ⟨0xbff8000000000000⟩]

/-- Two bytes that are clamped. -/
def twoClamped : TypedView := ⟨.uint8Clamped, 0, 0, 2⟩

/-- A session of that module with the bytes. -/
def withClamped : World (List Double) :=
  final (onHeap (·.newTypedArray .uint8Clamped 2))
    ⟨{ Session.new (.standard .default ⟨[]⟩ true) .none none with
      primary := some listingExports }, halves⟩

theorem elements_are_converted_halves :
    (Obtained (listing.machine 1) withClamped (.typedArray twoClamped) ∧
      listingNumbers.Valid withClamped ∧ listingNumbers.Has withClamped 0 halves) ∧
    (∃ h' y, twoClamped.set withClamped.session.heap 1 ⟨0x4004000000000000⟩ = .ok h' ∧
      twoClamped.get? h' 1 = some y ∧ Element.uint8Clamped.Converts ⟨0x4004000000000000⟩ y) ∧
    ∃ u w', HostCall.typedArrayFromModuleList (listing.machine 1) (Int32.ofNat Element.int16.tag) 0
        withClamped = .ok (.host (.typedArray u)) w' ∧
      w'.session.heap.bytes u.buffer = [2, 0, 255, 255] := by
  have hmade : onHeap (·.newTypedArray .uint8Clamped 2)
      ⟨{ Session.new (.standard .default ⟨[]⟩ true) .none none with
        primary := some listingExports }, halves⟩
        = .ok twoClamped withClamped := rfl
  have hv : Obtained (listing.machine 1) withClamped (.typedArray twoClamped) :=
    .typedArray _ _ (by decide) hmade
  obtain ⟨hset, -, hfill⟩ := elements_are_converted hv
  obtain ⟨u, w', hlist, -, -, hbytes, horder⟩ := (hfill withClamped.session.heap .int16 halves).2.2
    listingNumbers 0 rfl rfl (by decide)
  have hencoded : halves.flatMap (Element.int16.encode true) = [2, 0, 255, 255] := by
    decide +kernel
  rw [horder (listing_sandboxed.machine 1)] at hbytes
  exact ⟨⟨hv, rfl, rfl⟩, hset 1 (by decide) _, u, w', hlist, hbytes.trans hencoded⟩

end ModuleHost
