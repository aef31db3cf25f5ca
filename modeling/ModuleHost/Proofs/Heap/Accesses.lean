/-
Windows that lie in their buffers are accessed without panics.

A sum or a product of sizes may leave the machine words, and a range of bytes may leave what it
is taken of; code that goes on regardless panics.  Here every access through a window is written
out with nothing taken for granted: each sum and product has to be a word, and each range of bytes
has to lie in the buffer and in the window itself.  On a window that lies in its buffer all of
this holds, so an access does what its plain form does, and the check that it begins with decides
whether it succeeds.

* `Strict` — outcomes of code that may panic;
* `ByteView.Inside` — a window that lies in its buffer;
* `ByteView.Inside.load`, `.store`, `.readAt`, `.writeAt` — ranges of a window;
* `TypedView.safe_of_inside` and `ByteView.safe_of_inside` — all accesses.

Design notes: the window of a typed array is the `ByteView` of its bytes, so there is one notion
of being inside.  Whether a range leaves the window is asked on every access of bytes, so what
does not panic touches nothing else.
-/
import Mathlib
import ModuleHost.Heap.Windows
import ModuleHost.Proofs.Session.Change

namespace ModuleHost

variable {α β : Type} {h h' : Heap}

/-! ### Code that may panic -/

/-- An outcome of code that may panic: none is a panic. -/
abbrev Strict (α : Type) : Type := ExceptT ConversionError Option α

namespace Strict

def panic : Strict α := ExceptT.mk none

/-- An outcome without a panic. -/
def of (x : Except ConversionError α) : Strict α := ExceptT.mk (some x)

/-- A number that has to be a word. -/
def word (n : ℕ) : Strict ℕ := if n < wordLimit then pure n else panic

def add (a b : ℕ) : Strict ℕ := word (a + b)

def mul (a b : ℕ) : Strict ℕ := word (a * b)

def sub (a b : ℕ) : Strict ℕ := if b ≤ a then pure (a - b) else panic

/-- The first `n` bytes, which have to be there. -/
def first (n : ℕ) (bytes : List UInt8) : Strict (List UInt8) :=
  if n ≤ bytes.length then pure (bytes.take n) else panic

/-- Fails unless the range lies within the size.  Where the range ends need not be a word: then
it does not. -/
def checkRange (offset length size : ℕ) : Strict Unit :=
  if offset + length < wordLimit ∧ offset + length ≤ size then pure ()
  else throw (.outOfBounds offset length size)

variable {a b n offset length size : ℕ}

theorem word_of_lt (hn : n < wordLimit) : word n = pure n := if_pos hn

theorem add_of_lt (hn : a + b < wordLimit) : add a b = pure (a + b) := word_of_lt hn

theorem mul_of_lt (hn : a * b < wordLimit) : mul a b = pure (a * b) := word_of_lt hn

theorem sub_of_le (hn : b ≤ a) : sub a b = pure (a - b) := if_pos hn

theorem first_of_le {bytes : List UInt8} (hn : n ≤ bytes.length) :
    first n bytes = pure (bytes.take n) := if_pos hn

theorem first_of_eq {bytes : List UInt8} (hn : bytes.length = n) : first n bytes = pure bytes := by
  rw [first_of_le hn.ge, List.take_of_length_le hn.le]

theorem checkRange_eq (hs : size < wordLimit) :
    checkRange offset length size = of (requireRange offset length size) := by
  unfold checkRange requireRange
  by_cases hfits : offset + length ≤ size
  -- a sum within the size is a word; one that is no word is beyond the size
  · rw [if_pos ⟨lt_of_le_of_lt hfits hs, hfits⟩, if_pos hfits]
    rfl
  · rw [if_neg fun hc => hfits hc.2, if_neg hfits]
    rfl

theorem le_of_requireRange (hr : requireRange offset length size = .ok ()) :
    offset + length ≤ size := by
  unfold requireRange at hr
  split at hr
  · assumption
  · cases hr

/-- An access without a panic that succeeds exactly if a range lies within a size, and otherwise
refuses that range. -/
structure Guards (x : Strict α) (plain : Except ConversionError α) (offset length size : ℕ) :
    Prop where
  eq : x = of plain
  succeeds : offset + length ≤ size → ∃ a, plain = .ok a
  refuses : size < offset + length → plain = .error (.outOfBounds offset length size)

/-- Code that checks a range first, and then succeeds. -/
theorem guards_of_check {k : Strict α} {plain : Unit → Except ConversionError α}
    (hs : size < wordLimit)
    (hk : offset + length ≤ size → ∃ a, k = pure a ∧ plain () = .ok a) :
    Guards (checkRange offset length size >>= fun _ => k)
      (requireRange offset length size >>= plain) offset length size := by
  rw [checkRange_eq hs]
  unfold requireRange
  by_cases hfits : offset + length ≤ size
  · obtain ⟨a, hstrict, hplain⟩ := hk hfits
    rw [if_pos hfits]
    refine ⟨?_, fun _ => ⟨a, hplain⟩, fun hn => absurd hfits (not_le.mpr hn)⟩
    show k = of (plain ())
    rw [hstrict, hplain]
    rfl
  · rw [if_neg hfits]
    exact ⟨rfl, fun hc => absurd hc hfits, fun _ => rfl⟩

end Strict

/-! ### The bytes of a window -/

open Strict

@[simp]
theorem length_leBytes (width n : ℕ) : (leBytes width n).length = width := by
  induction width generalizing n with
  | zero => rfl
  | succ width ih => rw [leBytes, List.length_cons, ih]

@[simp]
theorem length_inOrder (order : Bool) (bytes : List UInt8) :
    (inOrder order bytes).length = bytes.length := by
  cases order
  · exact List.length_reverse
  · rfl

@[simp]
theorem length_swapWords (order : Bool) (width count : ℕ) (bytes : List UInt8) :
    (swapWords order width count bytes).length = bytes.length := by
  induction count generalizing bytes with
  | zero => rfl
  | succ count ih =>
    rw [swapWords, List.length_append, length_inOrder, ih, ← List.length_append,
      List.take_append_drop]

theorem Element.length_encode (order : Bool) (e : Element) (x : Double) :
    (e.encode order x).length = e.width :=
  (length_inOrder _ _).trans (length_leBytes _ _)

theorem Scalar.length_encode (t : Scalar) (littleEndian : Bool) (w : ℕ) :
    (t.encode littleEndian w).length = t.width :=
  (length_inOrder _ _).trans (length_leBytes _ _)

/-- The bytes that a typed array is a window on. -/
def TypedView.window (v : TypedView) : ByteView := ⟨v.buffer, v.offset, v.byteLength⟩

namespace ByteView

/-- The bytes from `start` to `stop`, which have to lie in the window and in the buffer. -/
def load (v : ByteView) (h : Heap) (start stop : ℕ) : Strict (List UInt8) :=
  if v.offset ≤ start ∧ start ≤ stop ∧ stop ≤ v.offset + v.length ∧ stop ≤ h.byteLength v.buffer
  then pure ((h.contents v.buffer).slice start (stop - start))
  else panic

/-- Overwrite the bytes from `start` to `stop`, which have to lie in the window and in the buffer,
with as many others. -/
def store (v : ByteView) (h : Heap) (start stop : ℕ) (bytes : List UInt8) : Strict Heap :=
  if v.offset ≤ start ∧ start ≤ stop ∧ stop ≤ v.offset + v.length ∧ stop ≤ h.byteLength v.buffer ∧
    bytes.length = stop - start
  then pure (h.setContents v.buffer ((h.contents v.buffer).patch start bytes))
  else panic

/-- A copy of `length` bytes of the buffer, from an offset in the buffer on. -/
def readAt (v : ByteView) (h : Heap) (offset length : ℕ) : Strict (List UInt8) := do
  checkRange offset length (h.byteLength v.buffer)
  v.load h offset (← add offset length)

/-- Overwrite bytes of the buffer, from an offset in the buffer on. -/
def writeAt (v : ByteView) (h : Heap) (offset : ℕ) (bytes : List UInt8) : Strict Heap := do
  checkRange offset bytes.length (h.byteLength v.buffer)
  v.store h offset (← add offset bytes.length) bytes

/-- A window that lies in its buffer; the size of the buffer is a word. -/
structure Inside (v : ByteView) (h : Heap) : Prop where
  inside : v.offset + v.length ≤ h.byteLength v.buffer
  word : h.byteLength v.buffer < wordLimit

/-- Two heaps differ in the bytes of the window at most. -/
def ChangesOnly (v : ByteView) (h h' : Heap) : Prop :=
  ∃ contents : ByteStore, h' = h.setContents v.buffer contents ∧
    contents.size = h.byteLength v.buffer ∧
    ∀ i, i < v.offset ∨ v.offset + v.length ≤ i →
      contents.byte i = (h.contents v.buffer).byte i

theorem changesOnly_patch {v : ByteView} {start : ℕ} {bytes : List UInt8}
    (hstart : v.offset ≤ start) (hstop : start + bytes.length ≤ v.offset + v.length) :
    v.ChangesOnly h (h.setContents v.buffer ((h.contents v.buffer).patch start bytes)) := by
  refine ⟨_, rfl, ByteStore.size_patch _ _ _, fun i hi => ?_⟩
  rw [ByteStore.byte_patch]
  split
  -- a byte behind the window is behind what is written
  · rename_i hle
    have hbeyond : bytes.length ≤ i - start := by omega
    rw [List.getElem?_eq_none hbeyond]
    rfl
  · rfl

theorem changesOnly_writeBytes {v : ByteView} {start : ℕ} {bytes : List UInt8}
    (hstart : v.offset ≤ start) (hstop : start + bytes.length ≤ v.offset + v.length)
    (hw : h.writeBytes v.buffer start bytes = .ok h') : v.ChangesOnly h h' := by
  obtain ⟨contents, hb, hr⟩ := exists_of_bind_eq_ok hw
  obtain ⟨-, -, hc⟩ := exists_of_bind_eq_ok hb
  cases hr
  cases hc
  exact changesOnly_patch hstart hstop

namespace Inside

variable {v : ByteView} {start length offset : ℕ} {bytes : List UInt8}

theorem end_lt (hv : v.Inside h) : v.offset + v.length < wordLimit :=
  lt_of_le_of_lt hv.inside hv.word

theorem length_lt (hv : v.Inside h) : v.length < wordLimit :=
  lt_of_le_of_lt (Nat.le_add_left _ _) hv.end_lt

theorem load (hv : v.Inside h) (hstart : v.offset ≤ start)
    (hstop : start + length ≤ v.offset + v.length) :
    v.load h start (start + length) = pure ((h.contents v.buffer).slice start length) := by
  unfold ByteView.load
  rw [if_pos ⟨hstart, Nat.le_add_right _ _, hstop, hstop.trans hv.inside⟩, Nat.add_sub_cancel_left]

theorem store (hv : v.Inside h) (hstart : v.offset ≤ start)
    (hstop : start + length ≤ v.offset + v.length) (hlength : bytes.length = length) :
    v.store h start (start + length) bytes
      = pure (h.setContents v.buffer ((h.contents v.buffer).patch start bytes)) := by
  unfold ByteView.store
  rw [if_pos ⟨hstart, Nat.le_add_right _ _, hstop, hstop.trans hv.inside, by
    rw [hlength, Nat.add_sub_cancel_left]⟩]

theorem checkRange (hv : v.Inside h) (hstop : start + length ≤ v.offset + v.length) :
    checkRange start length (h.byteLength v.buffer) = pure () := by
  rw [checkRange_eq hv.word, requireRange, if_pos (hstop.trans hv.inside)]
  rfl

theorem readAt (hv : v.Inside h) (hstart : v.offset ≤ start)
    (hstop : start + length ≤ v.offset + v.length) :
    v.readAt h start length = pure ((h.contents v.buffer).slice start length) ∧
      h.readBytes v.buffer start length = .ok ((h.contents v.buffer).slice start length) := by
  constructor
  · unfold ByteView.readAt
    rw [hv.checkRange hstop, add_of_lt (lt_of_le_of_lt hstop hv.end_lt), pure_bind, pure_bind,
      hv.load hstart hstop]
  · have hfits : start + length ≤ (h.contents v.buffer).size := hstop.trans hv.inside
    unfold Heap.readBytes ByteStore.read requireRange
    rw [if_pos hfits]
    rfl

theorem writeAt (hv : v.Inside h) (hstart : v.offset ≤ start)
    (hstop : start + bytes.length ≤ v.offset + v.length) :
    v.writeAt h start bytes
        = pure (h.setContents v.buffer ((h.contents v.buffer).patch start bytes)) ∧
      h.writeBytes v.buffer start bytes
        = .ok (h.setContents v.buffer ((h.contents v.buffer).patch start bytes)) := by
  constructor
  · unfold ByteView.writeAt
    rw [hv.checkRange hstop, add_of_lt (lt_of_le_of_lt hstop hv.end_lt), pure_bind, pure_bind,
      hv.store hstart hstop rfl]
  · have hfits : start + bytes.length ≤ (h.contents v.buffer).size := hstop.trans hv.inside
    unfold Heap.writeBytes ByteStore.write requireRange
    rw [if_pos hfits]
    rfl

end Inside

end ByteView

/-! ### Typed arrays -/

namespace TypedView

/-- `TypedView.get?`, with nothing taken for granted. -/
def strictGet? (v : TypedView) (h : Heap) (i : ℕ) : Strict (Option Double) :=
  if v.length ≤ i then pure none
  else do
    let start ← add v.offset (← mul i v.element.width)
    let bytes ← v.window.load h start (← add start v.element.width)
    return some (v.element.decode h.littleEndian (← first v.element.width bytes))

/-- `TypedView.set`, with nothing taken for granted. -/
def strictSet (v : TypedView) (h : Heap) (i : ℕ) (x : Double) : Strict Heap := do
  checkRange i 1 v.length
  let start ← add v.offset (← mul i v.element.width)
  v.window.store h start (← add start v.element.width) (v.element.encode h.littleEndian x)

/-- `TypedView.toList`, with nothing taken for granted. -/
def strictToList (v : TypedView) (h : Heap) : Strict (List Double) := do
  return (← (List.range v.length).mapM (v.strictGet? h)).filterMap id

/-- `TypedView.elementBytes`, with nothing taken for granted. -/
def strictElementBytes (v : TypedView) (h : Heap) (start count : ℕ) : Strict (List UInt8) := do
  checkRange start count v.length
  let offset ← add v.offset (← mul start v.element.width)
  let bytes ← v.window.readAt h offset (← mul count v.element.width)
  return swapWords h.littleEndian v.element.width count bytes

/-- `TypedView.setElementBytes`, with nothing taken for granted. -/
def strictSetElementBytes (v : TypedView) (h : Heap) (start : ℕ) (bytes : List UInt8) :
    Strict Heap := do
  let count := bytes.length / v.element.width
  checkRange start count v.length
  let whole ← sub bytes.length (bytes.length % v.element.width)
  let bytes ← first whole bytes
  let offset ← add v.offset (← mul start v.element.width)
  v.window.writeAt h offset (swapWords h.littleEndian v.element.width count bytes)

/-- The window lies in its buffer and starts at a whole element, and no access through it panics or
touches anything else. -/
structure Safe (v : TypedView) (h : Heap) : Prop where
  inside : v.offset + v.byteLength ≤ h.byteLength v.buffer
  aligned : v.offset % v.element.width = 0
  byteLength : mul v.length v.element.width = pure v.byteLength
  get? : ∀ i, v.strictGet? h i = pure (v.get? h i)
  get?_isSome : ∀ i, (v.get? h i).isSome = true ↔ i < v.length
  set : ∀ i x, Guards (v.strictSet h i x) (v.set h i x) i 1 v.length
  toList : v.strictToList h = pure (v.toList h)
  elementBytes : ∀ start count,
    Guards (v.strictElementBytes h start count) (v.elementBytes h start count)
      start count v.length
  setElementBytes : ∀ start bytes,
    Guards (v.strictSetElementBytes h start bytes) (v.setElementBytes h start bytes)
      start (bytes.length / v.element.width) v.length
  set_changes : ∀ i x h', v.set h i x = .ok h' → v.window.ChangesOnly h h'
  setElementBytes_changes : ∀ start bytes h', v.setElementBytes h start bytes = .ok h' →
    v.window.ChangesOnly h h'

section Accesses

variable {v : TypedView} {i start count : ℕ}

theorem window_offset_le (n : ℕ) : v.window.offset ≤ v.offset + n := Nat.le_add_right _ _

/-- Where `count` elements from `start` on end. -/
theorem elements_le (hc : start + count ≤ v.length) :
    v.offset + start * v.element.width + count * v.element.width ≤ v.offset + v.byteLength := by
  rw [Nat.add_assoc, ← Nat.add_mul]
  exact Nat.add_le_add_left (Nat.mul_le_mul_right _ hc) _

theorem element_le (hi : i < v.length) :
    v.offset + i * v.element.width + v.element.width ≤ v.offset + v.byteLength := by
  simpa using elements_le (show i + 1 ≤ v.length from hi)

/-- Where an element starts, and how many elements there are, can be counted. -/
theorem start_of_inside (hv : v.window.Inside h) (hc : start + count ≤ v.length) :
    (do add v.offset (← mul start v.element.width)) = pure (v.offset + start * v.element.width) ∧
      mul count v.element.width = pure (count * v.element.width) := by
  have hend : v.offset + start * v.element.width + count * v.element.width < wordLimit :=
    lt_of_le_of_lt (elements_le hc) hv.end_lt
  constructor
  · rw [mul_of_lt (by omega), pure_bind, add_of_lt (by omega)]
  · exact mul_of_lt (by omega)

theorem length_lt (hv : v.window.Inside h) : v.length < wordLimit :=
  lt_of_le_of_lt (Nat.le_mul_of_pos_right _ v.element.width_pos) hv.length_lt

theorem strictGet?_eq (hv : v.window.Inside h) (i : ℕ) :
    v.strictGet? h i = pure (v.get? h i) := by
  unfold strictGet? TypedView.get?
  by_cases hi : i < v.length
  · have hstart := (start_of_inside hv (show i + 0 ≤ v.length from hi.le)).1
    rw [if_neg (not_le.mpr hi), if_pos hi, ← bind_assoc, hstart, pure_bind,
      add_of_lt (lt_of_le_of_lt (element_le hi) hv.end_lt), pure_bind,
      hv.load (window_offset_le _) (element_le hi), pure_bind,
      first_of_eq (ByteStore.length_slice _ _ _)]
    rfl
  · rw [if_pos (not_lt.mp hi), if_neg hi]

theorem strictSet_guards (hv : v.window.Inside h) (i : ℕ) (x : Double) :
    Guards (v.strictSet h i x) (v.set h i x) i 1 v.length := by
  refine guards_of_check (length_lt hv) fun hi => ⟨_, ?_, rfl⟩
  rw [← bind_assoc, (start_of_inside hv hi).1, pure_bind,
    add_of_lt (lt_of_le_of_lt (element_le hi) hv.end_lt), pure_bind,
    hv.store (window_offset_le _) (element_le hi) (v.element.length_encode _ x)]
  rfl

theorem strictToList_eq (hv : v.window.Inside h) : v.strictToList h = pure (v.toList h) := by
  unfold strictToList TypedView.toList
  rw [funext (strictGet?_eq hv), List.mapM_pure, pure_bind, List.filterMap_map]
  rfl

theorem strictElementBytes_guards (hv : v.window.Inside h) (start count : ℕ) :
    Guards (v.strictElementBytes h start count) (v.elementBytes h start count)
      start count v.length := by
  refine guards_of_check (length_lt hv) fun hc => ?_
  obtain ⟨hstart, hcount⟩ := start_of_inside hv hc
  obtain ⟨hstrict, hplain⟩ := hv.readAt (window_offset_le _) (elements_le hc)
  refine ⟨_, ?_, congrArg (· >>= fun bytes => pure (swapWords h.littleEndian _ count bytes)) hplain⟩
  rw [← bind_assoc, hstart, pure_bind, hcount, pure_bind, hstrict]
  rfl

/-- The bytes of whole elements. -/
theorem whole_eq (length width : ℕ) : length - length % width = length / width * width := by
  have := Nat.div_add_mod' length width
  omega

theorem length_take_whole (bytes : List UInt8) (width : ℕ) :
    (bytes.take (bytes.length / width * width)).length = bytes.length / width * width := by
  rw [List.length_take, Nat.min_eq_left (Nat.div_mul_le_self _ _)]

theorem strictSetElementBytes_guards (hv : v.window.Inside h) (start : ℕ) (bytes : List UInt8) :
    Guards (v.strictSetElementBytes h start bytes) (v.setElementBytes h start bytes)
      start (bytes.length / v.element.width) v.length := by
  refine guards_of_check (length_lt hv) fun hc => ?_
  have hstop : v.offset + start * v.element.width
      + (swapWords h.littleEndian v.element.width (bytes.length / v.element.width)
          (bytes.take (bytes.length / v.element.width * v.element.width))).length
        ≤ v.offset + v.byteLength := by
    rw [length_swapWords, length_take_whole]
    exact elements_le hc
  obtain ⟨hstrict, hplain⟩ := hv.writeAt (window_offset_le _) hstop
  refine ⟨_, ?_, hplain⟩
  rw [sub_of_le (Nat.mod_le _ _), pure_bind, whole_eq, first_of_le (Nat.div_mul_le_self _ _),
    pure_bind, ← bind_assoc, (start_of_inside hv hc).1, pure_bind, hstrict]

theorem set_changesOnly {x : Double} (hw : v.set h i x = .ok h') : v.window.ChangesOnly h h' := by
  obtain ⟨_, hrange, hr⟩ := exists_of_bind_eq_ok hw
  cases hr
  have hi : i < v.length := le_of_requireRange hrange
  refine ByteView.changesOnly_patch (window_offset_le _) ?_
  rw [Element.length_encode]
  exact element_le hi

theorem setElementBytes_changesOnly {bytes : List UInt8}
    (hw : v.setElementBytes h start bytes = .ok h') : v.window.ChangesOnly h h' := by
  obtain ⟨_, hrange, hr⟩ := exists_of_bind_eq_ok hw
  refine ByteView.changesOnly_writeBytes (window_offset_le _) ?_ hr
  rw [length_swapWords, length_take_whole]
  exact elements_le (le_of_requireRange hrange)

/-- All accesses through a typed array whose window lies in its buffer. -/
theorem safe_of_inside (hv : v.window.Inside h) (ha : v.offset % v.element.width = 0) :
    v.Safe h where
  inside := hv.inside
  aligned := ha
  byteLength := mul_of_lt hv.length_lt
  get? := strictGet?_eq hv
  get?_isSome i := by
    unfold TypedView.get?
    by_cases hi : i < v.length
    · simp [hi]
    · simp [hi]
  set := strictSet_guards hv
  toList := strictToList_eq hv
  elementBytes := strictElementBytes_guards hv
  setElementBytes := strictSetElementBytes_guards hv
  set_changes _ _ _ := set_changesOnly
  setElementBytes_changes _ _ _ := setElementBytes_changesOnly

end Accesses

end TypedView

/-! ### Data views -/

namespace ByteView

/-- `ByteView.toBytes`, with nothing taken for granted; a refused range is no bytes. -/
def strictToBytes (v : ByteView) (h : Heap) : Strict (List UInt8) :=
  tryCatch (v.readAt h v.offset v.length) fun _ => pure []

/-- `ByteView.copy`, with nothing taken for granted. -/
def strictCopy (v : ByteView) (h : Heap) (offset length : ℕ) : Strict (ByteView × Heap) := do
  checkRange offset length v.length
  let bytes ← v.readAt h (← add v.offset offset) length
  return h.newDataView (.ofList bytes)

/-- `ByteView.read`, with nothing taken for granted. -/
def strictRead (v : ByteView) (h : Heap) (t : Scalar) (offset : ℕ) (littleEndian : Bool) :
    Strict ℕ := do
  checkRange offset t.width v.length
  let bytes ← v.readAt h (← add v.offset offset) t.width
  return Scalar.decode littleEndian (← first t.width bytes)

/-- `ByteView.write`, with nothing taken for granted. -/
def strictWrite (v : ByteView) (h : Heap) (t : Scalar) (offset w : ℕ) (littleEndian : Bool) :
    Strict Heap := do
  checkRange offset t.width v.length
  v.writeAt h (← add v.offset offset) (t.encode littleEndian w)

/-- The window lies in its buffer, and no access through it panics or touches anything else. -/
structure Safe (v : ByteView) (h : Heap) : Prop where
  inside : v.offset + v.length ≤ h.byteLength v.buffer
  toBytes : v.strictToBytes h = pure (v.toBytes h)
  copy : ∀ offset length,
    Guards (v.strictCopy h offset length) (v.copy h offset length) offset length v.length
  read : ∀ t offset littleEndian,
    Guards (v.strictRead h t offset littleEndian) (v.read h t offset littleEndian)
      offset t.width v.length
  write : ∀ t offset w littleEndian,
    Guards (v.strictWrite h t offset w littleEndian) (v.write h t offset w littleEndian)
      offset t.width v.length
  write_changes : ∀ t offset w littleEndian h', v.write h t offset w littleEndian = .ok h' →
    v.ChangesOnly h h'

section Accesses

variable {v : ByteView} {offset length : ℕ}

theorem strictToBytes_eq (hv : v.Inside h) : v.strictToBytes h = pure (v.toBytes h) := by
  unfold strictToBytes
  rw [(hv.readAt le_rfl le_rfl).1]
  rfl

/-- A range that lies in the window, seen from the buffer. -/
theorem relative_of_inside (hv : v.Inside h) (hc : offset + length ≤ v.length) :
    add v.offset offset = pure (v.offset + offset) ∧
      v.offset + offset + length ≤ v.offset + v.length := by
  have hstop : v.offset + offset + length ≤ v.offset + v.length := by omega
  exact ⟨add_of_lt (by have := hv.end_lt; omega), hstop⟩

theorem strictCopy_guards (hv : v.Inside h) (offset length : ℕ) :
    Guards (v.strictCopy h offset length) (v.copy h offset length) offset length v.length := by
  refine guards_of_check hv.length_lt fun hc => ?_
  obtain ⟨hadd, hstop⟩ := relative_of_inside hv hc
  obtain ⟨hstrict, hplain⟩ := hv.readAt (Nat.le_add_right _ _) hstop
  refine ⟨h.newDataView (.ofList ((h.contents v.buffer).slice (v.offset + offset) length)), ?_, ?_⟩
  · rw [hadd, pure_bind, hstrict, pure_bind]
  · rw [hplain]
    rfl

theorem strictRead_guards (hv : v.Inside h) (t : Scalar) (offset : ℕ) (littleEndian : Bool) :
    Guards (v.strictRead h t offset littleEndian) (v.read h t offset littleEndian)
      offset t.width v.length := by
  refine guards_of_check hv.length_lt fun hc => ?_
  obtain ⟨hadd, hstop⟩ := relative_of_inside hv hc
  obtain ⟨hstrict, hplain⟩ := hv.readAt (Nat.le_add_right _ _) hstop
  refine ⟨Scalar.decode littleEndian
    ((h.contents v.buffer).slice (v.offset + offset) t.width), ?_, ?_⟩
  · rw [hadd, pure_bind, hstrict, pure_bind, first_of_eq (ByteStore.length_slice _ _ _), pure_bind]
  · rw [hplain]
    rfl

theorem strictWrite_guards (hv : v.Inside h) (t : Scalar) (offset w : ℕ) (littleEndian : Bool) :
    Guards (v.strictWrite h t offset w littleEndian) (v.write h t offset w littleEndian)
      offset t.width v.length := by
  refine guards_of_check hv.length_lt fun hc => ?_
  obtain ⟨hadd, hstop⟩ := relative_of_inside hv hc
  rw [← t.length_encode littleEndian w] at hstop
  obtain ⟨hstrict, hplain⟩ := hv.writeAt (Nat.le_add_right _ _) hstop
  refine ⟨_, ?_, hplain⟩
  rw [hadd, pure_bind, hstrict]

theorem write_changesOnly {t : Scalar} {w : ℕ} {littleEndian : Bool}
    (hw : v.write h t offset w littleEndian = .ok h') : v.ChangesOnly h h' := by
  obtain ⟨_, hrange, hr⟩ := exists_of_bind_eq_ok hw
  refine changesOnly_writeBytes (Nat.le_add_right _ _) ?_ hr
  have hc := le_of_requireRange hrange
  rw [Scalar.length_encode]
  omega

/-- All accesses through a data view whose window lies in its buffer. -/
theorem safe_of_inside (hv : v.Inside h) : v.Safe h where
  inside := hv.inside
  toBytes := strictToBytes_eq hv
  copy := strictCopy_guards hv
  read := strictRead_guards hv
  write := strictWrite_guards hv
  write_changes _ _ _ _ _ := write_changesOnly

end Accesses

end ByteView

end ModuleHost
