/-
Typed arrays and data views on the same bytes.

An element of a typed array is seen by a data view on the same buffer that spans its bytes: both
read the same number there, and what is stored through either is read through the other.  All other
typed arrays on the buffer, of whichever element type and wherever they start, see the bytes that
were stored, and otherwise what they saw before.

* `Element.scalar`, `Scalar.quantity` — the accessor of an element type, and what it reads;
* `Element.quantity_number_scalar` — both read the same number of a word;
* `byteInOrder` — the bytes of a word as a machine stores them;
* `TypedView.Faces` — where a view sees an element;
* `TypedView.Shows`, `TypedView.shows_patch` — what an array shows of bytes that were stored;
* `views_agree` — the main theorem.

Design notes: a word is compared byte by byte, since elements of different widths overlap in bytes.
The bytes of an element are in the byte order of the machine, so what is the first byte of a word
there is its least significant one or its most significant one (`byteInOrder`).
-/
import Mathlib
import ModuleHost.Proofs.Heap.Conversions
import ModuleHost.Proofs.Heap.Scalars

namespace ModuleHost

variable {γ : Type} {m : Machine γ} {w : World γ} {a b : TypedView} {d : ByteView} {h h' : Heap}
  {e : Element} {i j k position word : ℕ} {x : Double}

/-! ### The accessor of an element type -/

/-- The type of a data view access that reads elements of this type. -/
def Element.scalar : Element → Scalar
  | int8 => .int8
  | uint8 | uint8Clamped => .uint8
  | int16 => .int16
  | uint16 => .uint16
  | int32 => .int32
  | uint32 => .uint32
  | float32 => .float32
  | float64 => .float64

/-- What number a word of a scalar type stands for. -/
def Scalar.quantity (t : Scalar) (word : ℕ) : Quantity :=
  match t with
  | float32 => (Single.mk (UInt32.ofNat word)).quantity
  | float64 => (Double.ofWord word).quantity
  | t => .rational (t.integer word)

namespace Element

@[simp]
theorem width_scalar (e : Element) : e.scalar.width = e.width := by cases e <;> rfl

theorem quantity_scalar (he : e.isFloat = false) (word : ℕ) :
    e.scalar.quantity word = .rational (e.integer word) := by
  cases e <;> first | rfl | cases he

/-- As an element and as a scalar a word is the same number. -/
theorem quantity_number_scalar (hword : word < 2 ^ (8 * e.width)) :
    (e.number word).quantity = e.scalar.quantity word := by
  cases he : e.isFloat with
  | false => rw [quantity_number he hword, quantity_scalar he]
  | true =>
    cases e
    case float32 => exact Single.quantity_toDouble _
    case float64 => rfl
    all_goals cases he

end Element

/-! ### The bytes of a word in a machine -/

/-- The byte of a word that a machine of the given byte order stores at a place. -/
def byteInOrder (order : Bool) (width word k : ℕ) : ℕ :=
  byteAt word (if order then k else width - 1 - k)

theorem getElem?_inOrder {order : Bool} {bytes : List UInt8} (hk : k < bytes.length) :
    (inOrder order bytes)[if order then k else bytes.length - 1 - k]? = bytes[k]? := by
  cases order with
  | true => rfl
  | false =>
    have hback : bytes.length - 1 - (bytes.length - 1 - k) = k := by omega
    show bytes.reverse[bytes.length - 1 - k]? = _
    rw [List.getElem?_reverse (by omega), hback]

/-- A word that is put together of bytes has these bytes. -/
theorem byteInOrder_ofLeBytes (order : Bool) {bytes : List UInt8} {b : UInt8}
    (hb : bytes[k]? = some b) :
    byteInOrder order bytes.length (ofLeBytes (inOrder order bytes)) k = b.toNat := by
  have hk : k < bytes.length := (List.getElem?_eq_some_iff.mp hb).1
  exact byteAt_ofLeBytes ((getElem?_inOrder hk).trans hb)

/-- A word that is taken apart has these bytes. -/
theorem getElem?_inOrder_leBytes {order : Bool} {width : ℕ} (word : ℕ) (hk : k < width) :
    (inOrder order (leBytes width word))[k]?
      = some (UInt8.ofNat (byteInOrder order width word k)) := by
  cases order with
  | true => exact getElem?_leBytes word hk
  | false =>
    show (leBytes width word).reverse[k]? = _
    rw [List.getElem?_reverse (by rwa [length_leBytes]), length_leBytes,
      getElem?_leBytes word (by omega)]
    rfl

/-! ### What arrays and views see -/

namespace TypedView

/-- A data view on the same buffer spans the bytes of an element, from a position of it on. -/
structure Faces (a : TypedView) (d : ByteView) (i position : ℕ) : Prop where
  buffer : d.buffer = a.buffer
  index : i < a.length
  start : d.offset + position = a.offset + i * a.element.width
  fits : position + a.element.width ≤ d.length

/-- Of its elements' bytes that lie in some range an array shows those of a word, and of the others
those that it has shown before. -/
def Shows (b : TypedView) (h h' : Heap) (start width word : ℕ) : Prop :=
  ∀ j < b.length, ∃ y seen, b.get? h' j = some y ∧ y.quantity = b.element.scalar.quantity seen ∧
    ∀ k < b.element.width, byteInOrder h.littleEndian b.element.width seen k =
      if start ≤ b.offset + j * b.element.width + k ∧
        b.offset + j * b.element.width + k < start + width
      then byteInOrder h.littleEndian width word (b.offset + j * b.element.width + k - start)
      else byteInOrder h.littleEndian b.element.width (b.word h j) k

theorem byteInOrder_word (b : TypedView) (h : Heap) (j : ℕ) (hk : k < b.element.width) :
    byteInOrder h.littleEndian b.element.width (b.word h j) k
      = ((h.contents b.buffer).byte (b.offset + j * b.element.width + k)).toNat := by
  have hslice : ((h.contents b.buffer).slice (b.offset + j * b.element.width) b.element.width)[k]?
      = some ((h.contents b.buffer).byte (b.offset + j * b.element.width + k)) :=
    ByteStore.getElem?_slice hk
  have hbyte := byteInOrder_ofLeBytes h.littleEndian hslice
  rwa [ByteStore.length_slice] at hbyte

/-- An array shows the bytes of a word that was stored anywhere in its buffer. -/
theorem shows_patch (hl : h.buffers.isLive b.buffer = true) (start width word : ℕ) :
    b.Shows h (h.setContents b.buffer ((h.contents b.buffer).patch start
      (inOrder h.littleEndian (leBytes width word)))) start width word := by
  intro j hj
  refine ⟨_, _, get?_eq_number hj, Element.quantity_number_scalar (b.word_lt _ j), fun k hk => ?_⟩
  have hstored := byteInOrder_word b (h.setContents b.buffer ((h.contents b.buffer).patch start
    (inOrder h.littleEndian (leBytes width word)))) j hk
  rw [Heap.contents_setContents hl, ByteStore.byte_patch] at hstored
  rw [byteInOrder_word _ _ _ hk]
  refine hstored.trans ?_
  obtain ⟨p, hp⟩ : ∃ p, b.offset + j * b.element.width + k = p := ⟨_, rfl⟩
  rw [hp]
  -- a byte is before the word, one of its bytes, or behind it
  by_cases hstart : start ≤ p
  · rw [if_pos hstart]
    by_cases hstop : p < start + width
    · have hin : p - start < width := by omega
      rw [if_pos ⟨hstart, hstop⟩, getElem?_inOrder_leBytes word hin]
      exact (UInt8.toNat_ofNat').trans (Nat.mod_mod _ _)
    · rw [if_neg fun hin => hstop hin.2,
        List.getElem?_eq_none (by rw [length_inOrder, length_leBytes]; omega)]
      rfl
  · rw [if_neg hstart, if_neg fun hin => hstart hin.1]

namespace Faces

theorem fits_scalar (hf : a.Faces d i position) :
    position + a.element.scalar.width ≤ d.length := by
  rw [a.element.width_scalar]
  exact hf.fits

/-- A view that faces an element reads its word. -/
theorem read_eq (hf : a.Faces d i position) (hd : d.Inside h) :
    d.read h a.element.scalar position h.littleEndian = .ok (a.word h i) := by
  rw [ByteView.read_of_le hd hf.fits_scalar, hf.buffer, hf.start, a.element.width_scalar]
  rfl

/-- A word that is stored through it is stored where the element is. -/
theorem write_eq (hf : a.Faces d i position) (hd : d.Inside h) (word : ℕ) :
    d.write h a.element.scalar position word h.littleEndian = .ok (h.setContents a.buffer
      ((h.contents a.buffer).patch (a.offset + i * a.element.width)
        (inOrder h.littleEndian (leBytes a.element.width word)))) := by
  rw [ByteView.write_of_le hd hf.fits_scalar, hf.buffer, hf.start, Scalar.encode,
    a.element.width_scalar]

end Faces

/-- A word is stored through a view in place of an element: it is read through the view and as the
element, and all arrays on the buffer show its bytes. -/
structure Puts (m : Machine γ) (w : World γ) (a : TypedView) (d : ByteView) (i position word : ℕ)
    (h' : Heap) : Prop where
  write : d.write w.session.heap a.element.scalar position word w.session.heap.littleEndian
    = .ok h'
  read : d.read h' a.element.scalar position w.session.heap.littleEndian = .ok word
  element : ∃ y, a.get? h' i = some y ∧ y.quantity = a.element.scalar.quantity word
  others : ∀ b, Obtained m w (.typedArray b) → b.buffer = a.buffer →
    b.Shows w.session.heap h' (a.offset + i * a.element.width) a.element.width word

/-- So it is when the bytes of the word are put where the element is. -/
theorem Faces.puts (hf : a.Faces d i position) (ha : Obtained m w (.typedArray a))
    (hd : Obtained m w (.dataView d)) (hword : word < 2 ^ (8 * a.element.width)) :
    a.Puts m w d i position word (w.session.heap.setContents a.buffer
      ((w.session.heap.contents a.buffer).patch (a.offset + i * a.element.width)
        (inOrder w.session.heap.littleEndian (leBytes a.element.width word)))) := by
  have hlive : w.session.heap.buffers.isLive a.buffer = true :=
    (TypedView.Lies.window ha.lies).live
  have hin : d.Inside w.session.heap := ByteView.Lies.toInside hd.lies
  obtain ⟨h', hh'⟩ : ∃ h', w.session.heap.setContents a.buffer
      ((w.session.heap.contents a.buffer).patch (a.offset + i * a.element.width)
        (inOrder w.session.heap.littleEndian (leBytes a.element.width word))) = h' := ⟨_, rfl⟩
  have horder : h'.littleEndian = w.session.heap.littleEndian := by rw [← hh', Heap.setContents]
  have hcontents : h'.contents a.buffer = (w.session.heap.contents a.buffer).patch
      (a.offset + i * a.element.width)
      (inOrder h'.littleEndian (leBytes a.element.width word)) := by
    rw [horder, ← hh', Heap.contents_setContents hlive]
  have hseen : a.word h' i = word := word_of_patch hword hcontents
  have hsize : h'.byteLength d.buffer = w.session.heap.byteLength d.buffer := by
    rw [hf.buffer, Heap.byteLength, hcontents, ByteStore.size_patch]
    rfl
  have hin' : d.Inside h' := hin.of_size hsize
  rw [hh']
  refine ⟨?_, ?_, ?_, fun b hb hbuffer => ?_⟩
  · rw [hf.write_eq hin, hh']
  · rw [← horder, hf.read_eq hin', hseen]
  · refine ⟨_, get?_eq_number hf.index, ?_⟩
    rw [hseen, Element.quantity_number_scalar hword]
  · rw [← hh', ← hbuffer]
    exact shows_patch (hbuffer ▸ hlive) _ _ _

end TypedView

/-! ### The main theorem -/

/-- An array and a view that faces one of its elements, on whichever buffer and however both were
obtained, read the same number there, in the byte order of the machine, whichever that is.  Storing a
number in the array leaves the same heap as storing its word through the view, and for integers
that is the word of the one integer that the element type stores of the number.  Whatever word is
stored, in either way, is read in both ways, and all arrays on the buffer show its bytes. -/
theorem views_agree (ha : Obtained m w (.typedArray a)) (hd : Obtained m w (.dataView d))
    (hf : a.Faces d i position) :
    (∃ x word, a.get? w.session.heap i = some x ∧
      d.read w.session.heap a.element.scalar position w.session.heap.littleEndian = .ok word ∧
      x.quantity = a.element.scalar.quantity word) ∧
    (∀ x, ∃ h' word, a.set w.session.heap i x = .ok h' ∧ a.Puts m w d i position word h' ∧
      (a.element.isFloat = false → ∃ n : ℤ, (∀ k, a.element.Stores x k ↔ k = n) ∧
        (word : ℤ) = n % 2 ^ (8 * a.element.width))) ∧
    ∀ word < 2 ^ (8 * a.element.width), ∃ h', a.Puts m w d i position word h' := by
  have hlies : a.Lies w.session.heap := ha.lies
  have hin : d.Inside w.session.heap := ByteView.Lies.toInside hd.lies
  refine ⟨⟨_, _, TypedView.get?_eq_number hf.index, hf.read_eq hin,
    Element.quantity_number_scalar (a.word_lt _ i)⟩, fun x => ?_,
    fun word hword => ⟨_, hf.puts ha hd hword⟩⟩
  obtain ⟨h', hset, -, hh', hcontents⟩ := TypedView.exists_set hlies.window.live hf.index x
  have hputs := hf.puts ha hd (a.element.word_lt x)
  rw [hcontents] at hh'
  refine ⟨h', _, hset, hh' ▸ hputs, fun he => ⟨_, fun k => Element.stores_iff he, ?_⟩⟩
  rw [Element.integer_modEq a.element (a.element.word x)]
  exact (Int.emod_eq_of_lt (Int.natCast_nonneg _) (by exact_mod_cast a.element.word_lt x)).symm

/-- The session with four elements, and on the same buffer the bytes from the second one on. -/
def withWindow : World Unit := Act.final (Act.tryHeap (·.byteWindow 0 2 6)) withElements

theorem views_agree_laterBytes :
    (Obtained absentModule withWindow (.typedArray fourElements) ∧
      Obtained absentModule withWindow (.dataView laterBytes) ∧ fourElements.Faces laterBytes 2 2) ∧
    ∃ h' word, fourElements.set withWindow.session.heap 2 (.ofNat 65538) = .ok h' ∧
      fourElements.Puts absentModule withWindow laterBytes 2 2 word h' := by
  have hmade : HostCall.typedArrayNew (Int32.ofNat Element.uint16.tag) 4
      ⟨.new (.standard .default ⟨[]⟩ true) .none none, ()⟩
        = .ok (.host (.typedArray fourElements)) withElements := rfl
  have helements : Obtained absentModule withElements (.typedArray fourElements) :=
    .typedArrayNew _ _ hmade rfl
  have hviewed : Act.tryHeap (·.byteWindow 0 2 6) withElements = .ok laterBytes withWindow := rfl
  have hbytes : Obtained absentModule withWindow (.dataView laterBytes) :=
    .byteWindow 2 6 (.bufferOf helements rfl) hviewed
  have hev : withElements.session.Evolves withWindow.session :=
    .ofHeap (Heap.Change.retained (.buffer 0)).evolves
  have hl : withWindow.session.heap.Alive (.typedArray fourElements) := by
    rintro _ ⟨⟩
    rfl
  have hf : fourElements.Faces laterBytes 2 2 := ⟨rfl, by decide, rfl, by decide⟩
  obtain ⟨-, hset, -⟩ := views_agree (.later helements hev hl) hbytes hf
  obtain ⟨h', word, hstored, hputs, -⟩ := hset (.ofNat 65538)
  exact ⟨⟨.later helements hev hl, hbytes, hf⟩, h', word, hstored, hputs⟩

end ModuleHost
