/-
Elements of typed arrays, copied to memory and back.

A copy has two ends that are measured in different units: elements of the array and bytes of the
memory.  It is made if both ends fit and refused if either does not, and then the memory and the
buffer are as before.  Out goes the little-endian form of each element's word, and in come words
of the same form, whichever byte order the machine has; numbers are not involved, so the payload of
a NaN survives.

* `swapWords_swapWords` — reordering the bytes of words twice does nothing;
* `TypedView.word`, `TypedView.littleEndian` — elements as words and as bytes;
* `ByteStore.Overwritten` — some bytes are replaced and all others are as before;
* `TypedView.Fits` — both ends of a copy fit;
* `TypedView.sends`, `TypedView.receives` — copies out and in;
* `elements_are_copied` — the main theorem.

Design notes: that the array's window lies in its buffer (`Obtained.lies`) is what leaves only the
two checks, one for each end: past them nothing is refused.
-/
import Mathlib
import ModuleHost.Proofs.Heap.Windows

namespace ModuleHost

open Act

variable {γ : Type} {w : World γ} {v u : TypedView} {id : ℕ} {memory : Memory}
  {start count address : ℕ}

/-! ### Bytes -/

/-- Bytes are those of the number that they stand for. -/
theorem leBytes_ofLeBytes (bytes : List UInt8) : leBytes bytes.length (ofLeBytes bytes) = bytes := by
  induction bytes with
  | nil => rfl
  | cons b rest ih =>
    have hb : b.toNat < 256 := b.toNat_lt
    have hlow : UInt8.ofNat (b.toNat + 256 * ofLeBytes rest) = b := by
      apply UInt8.toNat_inj.mp
      rw [UInt8.toNat_ofNat']
      omega
    have hhigh : (b.toNat + 256 * ofLeBytes rest) / 256 = ofLeBytes rest := by omega
    rw [List.length_cons, ofLeBytes, leBytes, hlow, hhigh, ih]

theorem inOrder_inOrder (order : Bool) (bytes : List UInt8) :
    inOrder order (inOrder order bytes) = bytes := by
  cases order
  · exact List.reverse_reverse bytes
  · rfl

/-- The bytes of one word, and those of the others. -/
theorem swapWords_append {order : Bool} {width n : ℕ} {bytes rest : List UInt8}
    (hlength : bytes.length = width) :
    swapWords order width (n + 1) (bytes ++ rest)
      = inOrder order bytes ++ swapWords order width n rest := by
  rw [swapWords, List.take_left' hlength, List.drop_left' hlength]

/-- Nothing is reordered where the least significant byte comes first. -/
theorem swapWords_true (width n : ℕ) (bytes : List UInt8) :
    swapWords true width n bytes = bytes := by
  induction n generalizing bytes with
  | zero => rfl
  | succ n ih => rw [swapWords, ih, inOrder, if_pos rfl, List.take_append_drop]

theorem swapWords_swapWords {order : Bool} {width n : ℕ} {bytes : List UInt8}
    (hlength : bytes.length = n * width) :
    swapWords order width n (swapWords order width n bytes) = bytes := by
  induction n generalizing bytes with
  | zero => rfl
  | succ n ih =>
    rw [Nat.succ_mul] at hlength
    have hfirst : (inOrder order (bytes.take width)).length = width := by
      rw [length_inOrder, List.length_take, hlength]
      omega
    rw [swapWords.eq_def order width (n + 1) bytes]
    show swapWords order width (n + 1) (_ ++ _) = bytes
    rw [swapWords_append hfirst, inOrder_inOrder,
      ih (by rw [List.length_drop, hlength]; omega), List.take_append_drop]

namespace ByteStore

variable {s s' : ByteStore} {offset n k width : ℕ} {bytes : List UInt8}

theorem getElem?_slice {i : ℕ} (hi : i < n) : (s.slice offset n)[i]? = some (s.byte (offset + i)) := by
  rw [slice, List.getElem?_map, List.getElem?_range hi]
  rfl

theorem slice_add : s.slice offset (n + k) = s.slice offset n ++ s.slice (offset + n) k := by
  simp only [slice, List.range_add, List.map_append, List.map_map, Function.comp_def, Nat.add_assoc]

/-- A range whose words are reordered, word by word. -/
theorem swapWords_slice (order : Bool) :
    swapWords order width n (s.slice offset (n * width))
      = (List.range n).flatMap fun i => inOrder order (s.slice (offset + i * width) width) := by
  induction n generalizing offset with
  | zero => rw [Nat.zero_mul, swapWords, List.range_zero, List.flatMap_nil]; rfl
  | succ n ih =>
    rw [Nat.succ_mul, Nat.add_comm (n * width), slice_add,
      swapWords_append (length_slice _ _ _), ih,
      List.range_succ_eq_map, List.flatMap_cons, Nat.zero_mul, Nat.add_zero, List.flatMap_map]
    simp only [Nat.succ_mul, Nat.add_assoc, Nat.add_comm width]

/-- A range, word by word. -/
theorem slice_eq_flatMap : s.slice offset (n * width)
    = (List.range n).flatMap fun i => s.slice (offset + i * width) width := by
  rw [← swapWords_true width n (s.slice offset (n * width)), swapWords_slice]
  rfl

/-- Words of one length that are put together are told apart again. -/
theorem eq_of_flatMap_range {f g : ℕ → List UInt8} (hf : ∀ i, (f i).length = width)
    (hg : ∀ i, (g i).length = width) (h : (List.range n).flatMap f = (List.range n).flatMap g)
    {i : ℕ} (hi : i < n) : f i = g i := by
  induction n with
  | zero => exact absurd hi (Nat.not_lt_zero i)
  | succ n ih =>
    simp only [List.range_succ, List.flatMap_append, List.flatMap_singleton] at h
    obtain ⟨hfirst, hlast⟩ := List.append_inj' h ((hf n).trans (hg n).symm)
    obtain hlt | rfl := Nat.lt_succ_iff_lt_or_eq.mp hi
    · exact ih hfirst hlt
    · exact hlast

/-- From an offset on a store holds these bytes, and elsewhere it is as before. -/
structure Overwritten (s s' : ByteStore) (offset : ℕ) (bytes : List UInt8) : Prop where
  size : s'.size = s.size
  inside : s'.slice offset bytes.length = bytes
  outside : ∀ i, i < offset ∨ offset + bytes.length ≤ i → s'.byte i = s.byte i

theorem overwritten_patch (s : ByteStore) (offset : ℕ) (bytes : List UInt8) :
    s.Overwritten (s.patch offset bytes) offset bytes where
  size := size_patch s offset bytes
  inside := by
    refine List.ext_getElem? fun i => ?_
    by_cases hi : i < bytes.length
    · rw [getElem?_slice hi, byte_patch, if_pos (Nat.le_add_right _ _), Nat.add_sub_cancel_left,
        List.getElem?_eq_getElem hi]
      rfl
    · have hbeyond : bytes.length ≤ i := not_lt.mp hi
      rw [List.getElem?_eq_none (by rwa [length_slice]), List.getElem?_eq_none hbeyond]
  outside i hi := by
    rw [byte_patch]
    split
    · rename_i hle
      have hbeyond : bytes.length ≤ i - offset := by omega
      rw [List.getElem?_eq_none hbeyond]
      rfl
    · rfl

end ByteStore

/-! ### Elements -/

namespace TypedView

/-- The word of an element. -/
def word (v : TypedView) (h : Heap) (i : ℕ) : ℕ :=
  ofLeBytes (inOrder h.littleEndian
    ((h.contents v.buffer).slice (v.offset + i * v.element.width) v.element.width))

/-- The words of `count` elements from `start` on, each with its least significant byte first. -/
def littleEndian (v : TypedView) (h : Heap) (start count : ℕ) : List UInt8 :=
  (List.range count).flatMap fun k => leBytes v.element.width (v.word h (start + k))

/-- An element is the number of its word. -/
theorem get?_eq_number {h : Heap} {i : ℕ} (hi : i < v.length) :
    v.get? h i = some (v.element.number (v.word h i)) := if_pos hi

/-- The bytes of an element are those of its word, in the order of the machine. -/
theorem leBytes_word (v : TypedView) (h : Heap) (i : ℕ) :
    leBytes v.element.width (v.word h i) = inOrder h.littleEndian
      ((h.contents v.buffer).slice (v.offset + i * v.element.width) v.element.width) := by
  have hbytes := leBytes_ofLeBytes (inOrder h.littleEndian
    ((h.contents v.buffer).slice (v.offset + i * v.element.width) v.element.width))
  rwa [length_inOrder, ByteStore.length_slice] at hbytes

/-- The bytes of elements, each in the order of the machine, are their little-endian form. -/
theorem littleEndian_eq_swapWords (v : TypedView) (h : Heap) (start count : ℕ) :
    v.littleEndian h start count = swapWords h.littleEndian v.element.width count
      ((h.contents v.buffer).slice
        (v.offset + start * v.element.width) (count * v.element.width)) := by
  rw [ByteStore.swapWords_slice]
  refine List.flatMap_congr fun k _ => ?_
  rw [leBytes_word, Nat.add_mul, Nat.add_assoc]

theorem length_littleEndian {h : Heap} :
    (v.littleEndian h start count).length = count * v.element.width := by
  rw [littleEndian_eq_swapWords, length_swapWords, ByteStore.length_slice]

/-- So many elements from `start` on, and as many bytes of a memory from an address on. -/
structure Fits (v : TypedView) (memory : Memory) (start count address : ℕ) : Prop where
  elements : start + count ≤ v.length
  bytes : address + count * v.element.width ≤ memory.size

/-- Where two ranges hold the same bytes, they hold the same words. -/
theorem word_eq_of_slice {h h' : Heap} {start' k : ℕ} (ho : h'.littleEndian = h.littleEndian)
    (he : u.element = v.element)
    (hs : (h'.contents u.buffer).slice (u.offset + start' * v.element.width)
        (count * v.element.width)
      = (h.contents v.buffer).slice (v.offset + start * v.element.width)
        (count * v.element.width)) (hk : k < count) :
    u.word h' (start' + k) = v.word h (start + k) := by
  have hslice : (h'.contents u.buffer).slice (u.offset + (start' + k) * v.element.width)
        v.element.width
      = (h.contents v.buffer).slice (v.offset + (start + k) * v.element.width)
        v.element.width := by
    refine List.map_congr_left fun i hi => ?_
    have hin : k * v.element.width + i < count * v.element.width :=
      calc k * v.element.width + i < k * v.element.width + v.element.width :=
            Nat.add_lt_add_left (List.mem_range.mp hi) _
        _ = (k + 1) * v.element.width := (Nat.succ_mul _ _).symm
        _ ≤ count * v.element.width := Nat.mul_le_mul_right _ hk
    have hbyte := congrArg (·[k * v.element.width + i]?) hs
    simp only [ByteStore.getElem?_slice hin, Option.some.injEq] at hbyte
    simpa only [Nat.add_mul, Nat.add_assoc] using hbyte
  rw [word, word, he, ho, hslice]

end TypedView

/-! ### The memory -/

/-- From an address on a memory holds these bytes, and elsewhere it is as before. -/
structure Memory.Overwritten (memory memory' : Memory) (address : ℕ) (bytes : List UInt8) :
    Prop extends memory.contents.Overwritten memory'.contents address bytes where
  pages : memory'.pages = memory.pages
  maximum : memory'.maximum = memory.maximum

/-- The memory of a number is replaced. -/
def World.withMemory (w : World γ) (id : ℕ) (memory : Memory) : World γ :=
  ⟨{ w.session with memories := w.session.memories.set id memory }, w.guest⟩

/-- The contents of a buffer are replaced. -/
def World.withContents (w : World γ) (buffer : ℕ) (contents : ByteStore) : World γ :=
  ⟨{ w.session with heap := w.session.heap.setContents buffer contents }, w.guest⟩

section Memory

variable {length : ℕ} {bytes : List UInt8} (hid : w.session.memory = some id)
  (hmem : w.session.memories[id]? = some memory)

include hid in
theorem requireMemory_of_some : (requireMemory : Act γ ℕ) w = .ok id w := by
  refine (bind_session _ w).trans ?_
  rw [hid]
  rfl

include hmem in
theorem memoryAt_of_some : (memoryAt id : Act γ Memory) w = .ok memory w := by
  show EStateM.Result.ok (w.session.memories[id]?.getD default) w = .ok memory w
  rw [hmem]
  rfl

include hid hmem

theorem readMemory_eq : (readMemory address length : Act γ (List UInt8)) w
    = (orFail (memory.read address length) : Act γ (List UInt8)) w := by
  refine (bind_of_ok (requireMemory_of_some hid) _).trans ?_
  exact bind_of_ok (memoryAt_of_some hmem) _

theorem writeMemory_eq : (writeMemory address bytes : Act γ Unit) w
    = (orFail (memory.write address bytes) >>= setMemory id : Act γ Unit) w := by
  refine (bind_of_ok (requireMemory_of_some hid) _).trans ?_
  exact bind_of_ok (memoryAt_of_some hmem) _

theorem readMemory_of_le (hfits : address + length ≤ memory.size) :
    (readMemory address length : Act γ (List UInt8)) w
      = .ok (memory.contents.slice address length) w := by
  have hread : memory.read address length = .ok (memory.contents.slice address length) := by
    have hfits : address + length ≤ memory.contents.size := hfits
    rw [Memory.read, ByteStore.read, requireRange, if_pos hfits]
    rfl
  rw [readMemory_eq hid hmem, hread]
  rfl

theorem readMemory_of_lt (hbeyond : memory.size < address + length) :
    (readMemory address length : Act γ (List UInt8)) w
      = .error (.marshal (.outOfBounds address length memory.size)) w := by
  have hread : memory.read address length = .error (.outOfBounds address length memory.size) := by
    have hbeyond : ¬ address + length ≤ memory.contents.size := not_le.mpr hbeyond
    rw [Memory.read, ByteStore.read, requireRange, if_neg hbeyond]
    rfl
  rw [readMemory_eq hid hmem, hread]
  rfl

theorem writeMemory_of_le (hfits : address + bytes.length ≤ memory.size) :
    ∃ memory', memory.Overwritten memory' address bytes ∧
      (writeMemory address bytes : Act γ Unit) w = .ok ⟨⟩ (w.withMemory id memory') := by
  obtain ⟨memory', hwrite, hover⟩ : ∃ memory', memory.write address bytes = .ok memory' ∧
      memory.Overwritten memory' address bytes := by
    rw [Memory.write, requireRange, if_pos hfits]
    exact ⟨_, rfl, ByteStore.overwritten_patch _ _ _, rfl, rfl⟩
  refine ⟨memory', hover, ?_⟩
  rw [writeMemory_eq hid hmem, hwrite]
  rfl

theorem writeMemory_of_lt (hbeyond : memory.size < address + bytes.length) :
    (writeMemory address bytes : Act γ Unit) w
      = .error (.marshal (.outOfBounds address bytes.length memory.size)) w := by
  have hwrite : memory.write address bytes
      = .error (.outOfBounds address bytes.length memory.size) := by
    rw [Memory.write, requireRange, if_neg (not_le.mpr hbeyond)]
    rfl
  rw [writeMemory_eq hid hmem, hwrite]
  rfl

end Memory

/-! ### Copies -/

namespace Heap

theorem contents_setContents {h : Heap} {buffer : ℕ} {contents : ByteStore}
    (hl : h.buffers.isLive buffer = true) :
    (h.setContents buffer contents).contents buffer = contents := by
  obtain ⟨s, hs⟩ := Pool.isLive_iff_get?.mp hl
  rw [setContents, Heap.contents, Pool.get?_set, if_pos rfl, hs]
  rfl

end Heap

namespace TypedView

/-- Elements that are there are read as their little-endian form. -/
theorem elementBytes_of_le {h : Heap} (hv : v.Lies h) (hc : start + count ≤ v.length) :
    v.elementBytes h start count = .ok (v.littleEndian h start count) := by
  obtain ⟨-, hread⟩ := hv.window.readAt (window_offset_le _) (elements_le hc)
  have hread : h.readBytes v.buffer (v.offset + start * v.element.width) _ = _ := hread
  rw [elementBytes, requireRange, if_pos hc, littleEndian_eq_swapWords]
  show (h.readBytes _ _ _ >>= _) = _
  rw [hread]
  rfl

theorem elementBytes_of_lt {h : Heap} (hc : v.length < start + count) :
    v.elementBytes h start count = .error (.outOfBounds start count v.length) := by
  rw [elementBytes, requireRange, if_neg (not_le.mpr hc)]
  rfl

variable {h : Heap} {bytes : List UInt8}

theorem setElementBytes_of_le (hv : v.Lies h) (hc : start + count ≤ v.length)
    (hb : bytes.length = count * v.element.width) :
    v.setElementBytes h start bytes = .ok (h.setContents v.buffer
      ((h.contents v.buffer).patch (v.offset + start * v.element.width)
        (swapWords h.littleEndian v.element.width count bytes))) := by
  have hcount : bytes.length / v.element.width = count := by
    rw [hb, Nat.mul_div_cancel _ v.element.width_pos]
  have hend : v.offset + start * v.element.width
      + (swapWords h.littleEndian v.element.width count bytes).length
        ≤ v.offset + v.byteLength := by
    rw [length_swapWords, hb]
    exact elements_le hc
  obtain ⟨-, hwrite⟩ := hv.window.writeAt (window_offset_le _) hend
  -- the bytes are those of whole elements, so none are dropped
  unfold setElementBytes
  simp only [hcount]
  rw [requireRange, if_pos hc, ← hb, List.take_length]
  exact hwrite

theorem setElementBytes_of_lt (hc : v.length < start + count)
    (hb : bytes.length = count * v.element.width) :
    v.setElementBytes h start bytes = .error (.outOfBounds start count v.length) := by
  have hcount : bytes.length / v.element.width = count := by
    rw [hb, Nat.mul_div_cancel _ v.element.width_pos]
  unfold setElementBytes
  simp only [hcount]
  rw [requireRange, if_neg (not_le.mpr hc)]
  rfl

theorem sendElements_eq (v : TypedView) (start count address : ℕ) (w : World γ) :
    sendElements v start count address w
      = (orFail (v.elementBytes w.session.heap start count) >>= writeMemory address) w := rfl

section Copies

variable (hid : w.session.memory = some id) (hmem : w.session.memories[id]? = some memory)

include hid hmem

/-- Copying out puts the little-endian form of the elements into the memory. -/
theorem sends (hv : v.Lies w.session.heap) (hf : v.Fits memory start count address) :
    ∃ memory', memory.Overwritten memory' address (v.littleEndian w.session.heap start count) ∧
      sendElements v start count address w = .ok ⟨⟩ (w.withMemory id memory') := by
  have hbytes : address + (v.littleEndian w.session.heap start count).length ≤ memory.size := by
    rw [length_littleEndian]
    exact hf.bytes
  obtain ⟨memory', hover, hwrite⟩ := writeMemory_of_le hid hmem hbytes
  refine ⟨memory', hover, ?_⟩
  rw [sendElements_eq, elementBytes_of_le hv hf.elements]
  exact hwrite

/-- The elements are checked first, then the memory. -/
theorem refuses_send (hv : v.Lies w.session.heap) (hf : ¬ v.Fits memory start count address) :
    ∃ e, sendElements v start count address w = .error (.marshal e) w := by
  by_cases hc : start + count ≤ v.length
  · have hbeyond : memory.size
        < address + (v.littleEndian w.session.heap start count).length := by
      rw [length_littleEndian]
      exact not_le.mp fun hbytes => hf ⟨hc, hbytes⟩
    refine ⟨.outOfBounds address (v.littleEndian w.session.heap start count).length memory.size, ?_⟩
    rw [sendElements_eq, elementBytes_of_le hv hc]
    exact writeMemory_of_lt hid hmem hbeyond
  · refine ⟨.outOfBounds start count v.length, ?_⟩
    rw [sendElements_eq, elementBytes_of_lt (not_le.mp hc)]
    rfl

/-- Copying in puts words of the memory into the buffer. -/
theorem receives (hv : v.Lies w.session.heap) (hf : v.Fits memory start count address) :
    ∃ contents, (w.session.heap.contents v.buffer).Overwritten contents
        (v.offset + start * v.element.width)
        (swapWords w.session.heap.littleEndian v.element.width count
          (memory.contents.slice address (count * v.element.width))) ∧
      receiveElements v start count address w = .ok ⟨⟩ (w.withContents v.buffer contents) := by
  -- the elements lie in the buffer, whose size is a word
  have hword : ¬ wordLimit ≤ count * v.element.width := by
    have hend := elements_le hf.elements
    have hlimit := hv.window.end_lt
    have hlength : v.window.offset + v.window.length = v.offset + v.byteLength := rfl
    omega
  refine ⟨_, ByteStore.overwritten_patch _ _ _, ?_⟩
  unfold receiveElements
  simp only [if_neg hword]
  refine (bind_of_ok (readMemory_of_le hid hmem hf.bytes) _).trans ?_
  exact tryChange_of_ok (setElementBytes_of_le hv hf.elements (ByteStore.length_slice _ _ _))

/-- A length that is no word is refused, then the memory is checked and then the elements. -/
theorem refuses_receive (hf : ¬ v.Fits memory start count address) :
    ∃ e, receiveElements v start count address w = .error (.marshal e) w := by
  unfold receiveElements
  by_cases hword : wordLimit ≤ count * v.element.width
  · refine ⟨.outOfBounds start count v.length, ?_⟩
    simp only [if_pos hword]
    rfl
  · simp only [if_neg hword]
    by_cases hbytes : address + count * v.element.width ≤ memory.size
    · have hc : v.length < start + count := not_le.mp fun hc => hf ⟨hc, hbytes⟩
      refine ⟨.outOfBounds start count v.length, ?_⟩
      refine (bind_of_ok (readMemory_of_le hid hmem hbytes) _).trans ?_
      exact tryChange_of_error (setElementBytes_of_lt hc (ByteStore.length_slice _ _ _))
    · exact ⟨_, bind_of_error (readMemory_of_lt hid hmem (not_le.mp hbytes)) _⟩

end Copies

/-- The words of an array whose elements have been overwritten with words of a memory. -/
theorem word_of_overwritten {contents : ByteStore} {k : ℕ}
    (hl : w.session.heap.buffers.isLive v.buffer = true)
    (hover : (w.session.heap.contents v.buffer).Overwritten contents
      (v.offset + start * v.element.width)
      (swapWords w.session.heap.littleEndian v.element.width count
        (memory.contents.slice address (count * v.element.width)))) (hk : k < count) :
    v.word (w.withContents v.buffer contents).session.heap (start + k)
      = ofLeBytes (memory.contents.slice (address + k * v.element.width) v.element.width) := by
  have hinside := hover.inside
  rw [length_swapWords, ByteStore.length_slice] at hinside
  rw [ByteStore.slice_eq_flatMap, ByteStore.swapWords_slice] at hinside
  have hword := ByteStore.eq_of_flatMap_range (fun _ => ByteStore.length_slice _ _ _)
    (fun _ => (length_inOrder _ _).trans (ByteStore.length_slice _ _ _)) hinside hk
  have hcontents : (w.withContents v.buffer contents).session.heap.contents v.buffer = contents :=
    Heap.contents_setContents hl
  rw [word, hcontents, Nat.add_mul, ← Nat.add_assoc, hword]
  exact congrArg ofLeBytes (inOrder_inOrder _ _)

end TypedView

/-! ### The main theorem -/

section Main

variable {m : Machine γ} (hid : w.session.memory = some id)
  (hmem : w.session.memories[id]? = some memory)

include hid hmem

/-- Out and in again: the bytes are those that were copied out, also if both ranges overlap. -/
theorem TypedView.sends_receives {start' : ℕ} (hv : v.Lies w.session.heap)
    (hu : u.Lies w.session.heap) (he : u.element = v.element)
    (hf : v.Fits memory start count address) (hc : start' + count ≤ u.length) :
    ∃ w', (do
        sendElements v start count address
        receiveElements u start' count address) w = .ok ⟨⟩ w' ∧
      w'.session.heap.littleEndian = w.session.heap.littleEndian ∧
      (w'.session.heap.contents u.buffer).slice (u.offset + start' * v.element.width)
          (count * v.element.width)
        = (w.session.heap.contents v.buffer).slice (v.offset + start * v.element.width)
          (count * v.element.width) := by
  obtain ⟨memory', hover, hsend⟩ := TypedView.sends hid hmem hv hf
  -- the memory has kept its size, so the other end of the way back fits as well
  have hmem' : (w.withMemory id memory').session.memories[id]? = some memory' :=
    List.getElem?_set_self (List.getElem?_eq_some_iff.mp hmem).1
  have hfits : u.Fits memory' start' count address := by
    refine ⟨hc, ?_⟩
    rw [he, Memory.size, hover.size]
    exact hf.bytes
  obtain ⟨contents, hin, hreceive⟩ :=
    TypedView.receives (w := w.withMemory id memory') hid hmem' hu hfits
  refine ⟨_, (bind_of_ok hsend _).trans hreceive, rfl, ?_⟩
  have hheld : ((w.withMemory id memory').withContents u.buffer contents).session.heap.contents
      u.buffer = contents := Heap.contents_setContents hu.window.live
  have hwritten := hin.inside
  have hbytes := hover.inside
  rw [length_swapWords, ByteStore.length_slice, he] at hwritten
  rw [TypedView.littleEndian_eq_swapWords, length_swapWords, ByteStore.length_slice] at hbytes
  have horder : (w.withMemory id memory').session.heap.littleEndian
      = w.session.heap.littleEndian := rfl
  rw [hheld, hwritten, hbytes, horder, swapWords_swapWords (ByteStore.length_slice _ _ _)]

/-- Copies between a typed array, whichever has been obtained, and the memory are made if both ends
fit and are refused, without any effect, if not.  Out goes the little-endian form of the elements,
and in come the bytes; no other byte changes.  What goes out comes in again, into whichever array of
the same kind, as the same bytes and so as the same elements. -/
theorem elements_are_copied (hv : Obtained m w (.typedArray v)) (start count address : ℕ) :
    (v.Fits memory start count address →
      (∃ memory',
        sendElements v start count address w = .ok ⟨⟩ (w.withMemory id memory') ∧
        (w.withMemory id memory').session.memories[id]? = some memory' ∧
        memory.Overwritten memory' address (v.littleEndian w.session.heap start count)) ∧
      (∃ contents,
        receiveElements v start count address w = .ok ⟨⟩ (w.withContents v.buffer contents) ∧
        (w.withContents v.buffer contents).session.heap.contents v.buffer = contents ∧
        (w.session.heap.contents v.buffer).Overwritten contents
          (v.offset + start * v.element.width)
          (swapWords w.session.heap.littleEndian v.element.width count
            (memory.contents.slice address (count * v.element.width))) ∧
        ∀ k < count, v.word (w.withContents v.buffer contents).session.heap (start + k)
          = ofLeBytes (memory.contents.slice (address + k * v.element.width) v.element.width)) ∧
      ∀ u start', Obtained m w (.typedArray u) → u.element = v.element →
        start' + count ≤ u.length →
        ∃ w', (do
            sendElements v start count address
            receiveElements u start' count address) w = .ok ⟨⟩ w' ∧
          (w'.session.heap.contents u.buffer).slice (u.offset + start' * v.element.width)
              (count * v.element.width)
            = (w.session.heap.contents v.buffer).slice (v.offset + start * v.element.width)
              (count * v.element.width) ∧
          ∀ k < count, u.word w'.session.heap (start' + k) = v.word w.session.heap (start + k)) ∧
    (¬ v.Fits memory start count address →
      (∃ e, sendElements v start count address w = .error (.marshal e) w) ∧
      ∃ e, receiveElements v start count address w = .error (.marshal e) w) := by
  have hlies : v.Lies w.session.heap := hv.lies
  constructor
  · intro hf
    refine ⟨?_, ?_, ?_⟩
    · obtain ⟨memory', hover, hsend⟩ := TypedView.sends hid hmem hlies hf
      have hin : id < w.session.memories.length := (List.getElem?_eq_some_iff.mp hmem).1
      exact ⟨memory', hsend, List.getElem?_set_self hin, hover⟩
    · obtain ⟨contents, hover, hreceive⟩ := TypedView.receives hid hmem hlies hf
      exact ⟨contents, hreceive, Heap.contents_setContents hlies.window.live, hover,
        fun k hk => TypedView.word_of_overwritten hlies.window.live hover hk⟩
    · intro u start' hu he hc
      obtain ⟨w', hcopied, horder, hsame⟩ :=
        TypedView.sends_receives hid hmem hlies hu.lies he hf hc
      exact ⟨w', hcopied, hsame, fun k hk => TypedView.word_eq_of_slice horder he hsame hk⟩
  · intro hf
    exact ⟨TypedView.refuses_send hid hmem hlies hf, TypedView.refuses_receive hid hmem hf⟩

end Main

/-- Two elements of four bytes, on a buffer of its own. -/
def twoSingles : TypedView := ⟨.float32, 0, 0, 2⟩

/-- A session with a memory of one page. -/
def withPage : World Unit :=
  ⟨{ Session.new (.standard .default ⟨[]⟩ true) .none none with
    memory := some 0
    memories := [.zeroed 1 none] }, ()⟩

/-- That session with the bytes of a NaN that has a payload, and of one. -/
def withPayload : World Unit :=
  final (onHeap (·.newBuffer (.ofList [1, 0, 0xa0, 0x7f, 0, 0, 0x80, 0x3f]))) withPage

/-- That session with a window on the bytes. -/
def withSingles : World Unit :=
  final (tryHeap (·.typedWindow .float32 0 0 2)) withPayload

theorem elements_are_copied_twoSingles :
    (withSingles.session.memory = some 0 ∧
      withSingles.session.memories[0]? = some (.zeroed 1 none) ∧
      Obtained absentModule withSingles (.typedArray twoSingles) ∧
      twoSingles.Fits (.zeroed 1 none) 0 2 65528) ∧
    (∃ memory',
      sendElements twoSingles 0 2 65528 withSingles
        = .ok ⟨⟩ (withSingles.withMemory 0 memory') ∧
      (Memory.zeroed 1 none).Overwritten memory' 65528 [1, 0, 0xa0, 0x7f, 0, 0, 0x80, 0x3f]) ∧
    ∃ e, receiveElements twoSingles 0 2 65529 withSingles = .error (.marshal e) withSingles := by
  have hbuffer : onHeap (·.newBuffer (.ofList [1, 0, 0xa0, 0x7f, 0, 0, 0x80, 0x3f])) withPage
      = .ok 0 withPayload := rfl
  have hview : tryHeap (·.typedWindow .float32 0 0 2) withPayload
      = .ok twoSingles withSingles := rfl
  have hv : Obtained absentModule withSingles (.typedArray twoSingles) :=
    .typedWindow _ _ _ (.buffer _ (by decide) hbuffer) hview
  have hmem : withSingles.session.memories[0]? = some (.zeroed 1 none) := rfl
  have hbytes : twoSingles.littleEndian withSingles.session.heap 0 2
      = [1, 0, 0xa0, 0x7f, 0, 0, 0x80, 0x3f] := by decide
  have hfits : twoSingles.Fits (.zeroed 1 none) 0 2 65528 := ⟨by decide, by decide⟩
  obtain ⟨memory', hsend, -, hover⟩ := ((elements_are_copied rfl hmem hv 0 2 65528).1 hfits).1
  have hbeyond : ¬ twoSingles.Fits (.zeroed 1 none) 0 2 65529 := fun hf =>
    absurd hf.bytes (by decide)
  exact ⟨⟨rfl, hmem, hv, hfits⟩, ⟨memory', hsend, hbytes ▸ hover⟩,
    ((elements_are_copied rfl hmem hv 0 2 65529).2 hbeyond).2⟩

end ModuleHost
