/-
Scalars of data views.

A scalar is stored at an offset of a view, in either byte order.  Then these bytes of the buffer are
its bytes and no other byte has changed; in the same order it is read as it was, and in the other
with its bytes reversed.  A scalar that does not fit is refused, and nothing has changed.  A module
stores and reads values of its own types, and of those a scalar type keeps what fits in its width.

* `byteAt`, `IsReversed` — the bytes of a word, and the word that has them the other way round;
* `Scalar.decode_encode`, `Scalar.isReversed_decode` — either order is the inverse of itself;
* `ByteView.Stored` — what storing a scalar changes;
* `ByteView.exists_stored`, `ByteView.reads_stored` — storing it, and reading it then;
* `Scalar.reduce`, `HostCall.wordVal_valWord` — what a scalar type keeps of a value;
* `scalars_are_stored` — the main theorem.
-/
import Mathlib
import ModuleHost.Proofs.Heap.Copies
import ModuleHost.Proofs.Value.Elements

namespace ModuleHost

open Act

variable {γ : Type} {w w' : World γ} {h : Heap} {v : ByteView} {t : Scalar} {offset x y : ℕ}

/-! ### The bytes of a word -/

/-- A byte of a word, the least significant one at zero. -/
def byteAt (x k : ℕ) : ℕ := x / 256 ^ k % 256

/-- The word that has the bytes of another one the other way round. -/
structure IsReversed (width x y : ℕ) : Prop where
  lt : y < 2 ^ (8 * width)
  byte : ∀ k < width, byteAt y k = byteAt x (width - 1 - k)

section Bytes

variable {width k : ℕ}

theorem byteAt_succ (x k : ℕ) : byteAt x (k + 1) = byteAt (x / 256) k := by
  rw [byteAt, byteAt, pow_succ', Nat.div_div_eq_div_mul]

theorem getElem?_leBytes (x : ℕ) (hk : k < width) :
    (leBytes width x)[k]? = some (UInt8.ofNat (byteAt x k)) := by
  induction width generalizing x k with
  | zero => exact absurd hk (Nat.not_lt_zero k)
  | succ width ih =>
    cases k with
    | zero =>
      have hlow : UInt8.ofNat (byteAt x 0) = UInt8.ofNat x := by
        apply UInt8.toNat_inj.mp
        rw [UInt8.toNat_ofNat', UInt8.toNat_ofNat', byteAt, pow_zero, Nat.div_one, Nat.mod_mod]
      rw [hlow]
      rfl
    | succ k =>
      rw [leBytes, List.getElem?_cons_succ, ih _ (Nat.lt_of_succ_lt_succ hk), byteAt_succ]

theorem byteAt_ofLeBytes {bytes : List UInt8} {b : UInt8} (hb : bytes[k]? = some b) :
    byteAt (ofLeBytes bytes) k = b.toNat := by
  induction bytes generalizing k with
  | nil => cases hb
  | cons first rest ih =>
    have hfirst : first.toNat < 256 := first.toNat_lt
    cases k with
    | zero =>
      obtain rfl := Option.some.inj hb
      rw [byteAt, ofLeBytes, pow_zero, Nat.div_one]
      omega
    | succ k =>
      have hrest : (first.toNat + 256 * ofLeBytes rest) / 256 = ofLeBytes rest := by omega
      rw [byteAt_succ, ofLeBytes, hrest, ih hb]

/-- Words are told apart by their bytes. -/
theorem eq_of_byteAt (hx : x < 2 ^ (8 * width)) (hy : y < 2 ^ (8 * width))
    (h : ∀ k < width, byteAt x k = byteAt y k) : x = y := by
  have hbytes : leBytes width x = leBytes width y := by
    refine List.ext_getElem? fun k => ?_
    by_cases hk : k < width
    · rw [getElem?_leBytes x hk, getElem?_leBytes y hk, h k hk]
    · rw [List.getElem?_eq_none (by rw [length_leBytes]; omega),
        List.getElem?_eq_none (by rw [length_leBytes]; omega)]
  rw [← Nat.mod_eq_of_lt hx, ← ofLeBytes_leBytes, hbytes, ofLeBytes_leBytes, Nat.mod_eq_of_lt hy]

theorem IsReversed.unique (hx : IsReversed width x y) {y' : ℕ} (hx' : IsReversed width x y') :
    y = y' :=
  eq_of_byteAt hx.lt hx'.lt fun k hk => (hx.byte k hk).trans (hx'.byte k hk).symm

theorem isReversed_ofLeBytes (width x : ℕ) :
    IsReversed width x (ofLeBytes (leBytes width x).reverse) where
  lt := by
    have hlt := ofLeBytes_lt (leBytes width x).reverse
    rwa [List.length_reverse, length_leBytes] at hlt
  byte k hk := by
    have hbyte : (leBytes width x).reverse[k]? = some (UInt8.ofNat (byteAt x (width - 1 - k))) := by
      rw [List.getElem?_reverse (by rwa [length_leBytes]), length_leBytes,
        getElem?_leBytes x (by omega)]
    rw [byteAt_ofLeBytes hbyte, UInt8.toNat_ofNat']
    exact Nat.mod_mod _ _

end Bytes

namespace Scalar

/-- A scalar is read in the order in which it was stored. -/
theorem decode_encode (t : Scalar) (e : Bool) (x : ℕ) :
    decode e (t.encode e x) = x % 2 ^ (8 * t.width) := by
  cases e with
  | false =>
    show ofLeBytes (leBytes t.width x).reverse.reverse = _
    rw [List.reverse_reverse, ofLeBytes_leBytes]
  | true => exact ofLeBytes_leBytes t.width x

/-- In the other order its bytes are reversed. -/
theorem isReversed_decode (t : Scalar) (e : Bool) (x : ℕ) :
    IsReversed t.width x (decode (!e) (t.encode e x)) := by
  cases e
  · exact isReversed_ofLeBytes t.width x
  · exact isReversed_ofLeBytes t.width x

end Scalar

/-! ### Storing a scalar -/

namespace ByteView

variable {e : Bool}

theorem write_of_le (hv : v.Inside h) (hin : offset + t.width ≤ v.length) :
    v.write h t offset x e = .ok (h.setContents v.buffer
      ((h.contents v.buffer).patch (v.offset + offset) (t.encode e x))) := by
  have hend : v.offset + offset + (t.encode e x).length ≤ v.offset + v.length := by
    rw [t.length_encode]
    omega
  rw [write, requireRange, if_pos hin]
  exact (hv.writeAt (Nat.le_add_right _ _) hend).2

theorem write_of_lt (hbeyond : v.length < offset + t.width) :
    v.write h t offset x e = .error (.outOfBounds offset t.width v.length) := by
  rw [write, requireRange, if_neg (not_le.mpr hbeyond)]
  rfl

theorem read_of_le (hv : v.Inside h) (hin : offset + t.width ≤ v.length) :
    v.read h t offset e
      = .ok (Scalar.decode e ((h.contents v.buffer).slice (v.offset + offset) t.width)) := by
  have hend : v.offset + offset + t.width ≤ v.offset + v.length := by omega
  rw [read, requireRange, if_pos hin]
  exact congrArg (· >>= fun bytes => pure (Scalar.decode e bytes))
    (hv.readAt (Nat.le_add_right _ _) hend).2

/-- A window lies in its buffer as long as that has its size. -/
theorem Inside.of_size {h' : Heap} (hv : v.Inside h)
    (hsize : h'.byteLength v.buffer = h.byteLength v.buffer) : v.Inside h' :=
  ⟨hsize ▸ hv.inside, hsize ▸ hv.word⟩

/-- Some bytes of the viewed buffer are these and all others are as before, and nothing else has
changed. -/
def Stored (v : ByteView) (w w' : World γ) (offset : ℕ) (bytes : List UInt8) : Prop :=
  ∃ contents, w' = w.withContents v.buffer contents ∧
    w'.session.heap.contents v.buffer = contents ∧
    (w.session.heap.contents v.buffer).Overwritten contents (v.offset + offset) bytes

/-- A scalar that fits is stored. -/
theorem exists_stored (hv : v.Lies w.session.heap) (hin : offset + t.width ≤ v.length) (x : ℕ)
    (e : Bool) :
    ∃ w', tryChange (fun h => v.write h t offset x e) w = .ok ⟨⟩ w' ∧
      v.Stored w w' offset (t.encode e x) :=
  ⟨_, tryChange_of_ok (write_of_le hv.toInside hin), _, rfl, Heap.contents_setContents hv.live,
    ByteStore.overwritten_patch _ _ _⟩

/-- A scalar that was stored is read as it was, and in the other order with its bytes reversed. -/
theorem reads_stored (hv : v.Inside w.session.heap) (hin : offset + t.width ≤ v.length)
    (hs : v.Stored w w' offset (t.encode e x)) :
    v.read w'.session.heap t offset e = .ok (x % 2 ^ (8 * t.width)) ∧
      ∃ y, v.read w'.session.heap t offset (!e) = .ok y ∧ IsReversed t.width x y := by
  obtain ⟨contents, -, hcontents, hover⟩ := hs
  have hsize : w'.session.heap.byteLength v.buffer = w.session.heap.byteLength v.buffer := by
    rw [Heap.byteLength, hcontents, hover.size]
    rfl
  have hv' : v.Inside w'.session.heap := hv.of_size hsize
  have hinside := hover.inside
  rw [t.length_encode] at hinside
  refine ⟨?_, _, read_of_le hv' hin, ?_⟩
  · rw [read_of_le hv' hin, hcontents, hinside, t.decode_encode]
  · rw [hcontents, hinside]
    exact t.isReversed_decode e x

end ByteView

/-! ### Values of a module -/

/-- What a scalar type keeps of a value: integers are cut to the width and extended again, by their
sign if the type has one. -/
def Scalar.reduce : Scalar → Val → Val
  | int8, .i32 n => .i32 n.toInt8.toInt32
  | uint8, .i32 n => .i32 n.toUInt32.toUInt8.toUInt32.toInt32
  | int16, .i32 n => .i32 n.toInt16.toInt32
  | uint16, .i32 n => .i32 n.toUInt32.toUInt16.toUInt32.toInt32
  | _, value => value

namespace Scalar

theorem ofNat_mod_32 (n : UInt32) : UInt32.ofNat (n.toNat % 2 ^ 32) = n := by
  rw [Nat.mod_eq_of_lt n.toNat_lt, UInt32.ofNat_toNat]

theorem ofNat_mod_64 (n : UInt64) : UInt64.ofNat (n.toNat % 2 ^ 64) = n := by
  rw [Nat.mod_eq_of_lt n.toNat_lt, UInt64.ofNat_toNat]

/-- A signed integer that is cut to a narrower type. -/
theorem integer_of_signed (n : Int32) (hs : t.isSigned = true) (hwidth : t.width ≤ 4) :
    t.integer (n.toUInt32.toNat % 2 ^ (8 * t.width)) = n.toInt.bmod (2 ^ (8 * t.width)) := by
  have hn : n.toInt = Int.bmod n.toUInt32.toNat (2 ^ 32) := BitVec.toInt_eq_toNat_bmod n.toBitVec
  rw [integer, if_pos hs, hn, Int.bmod_bmod_of_dvd (pow_dvd_pow 2 (by omega)), signedWord,
    Int.natCast_mod]
  exact Int.emod_bmod _ _

/-- An unsigned integer of a narrower type, as a word. -/
theorem ofInt_of_unsigned (x : ℕ) (hs : t.isSigned = false) :
    Int32.ofInt (t.integer x) = (UInt32.ofNat x).toInt32 := by
  rw [integer, hs]
  rfl

theorem reduce_i32 (n : Int32) (ht : t.valType = .i32) :
    t.reduce (.i32 n)
      = .i32 (Int32.ofInt (t.integer (n.toUInt32.toNat % 2 ^ (8 * t.width)))) := by
  cases t
  case int8 =>
    rw [integer_of_signed n rfl (by decide)]
    show Val.i32 n.toInt8.toInt32 = .i32 (Int32.ofInt (n.toInt.bmod (2 ^ 8)))
    rw [← Int32.toInt_toInt8, ← Int8.toInt_toInt32, Int32.ofInt_toInt]
  case int16 =>
    rw [integer_of_signed n rfl (by decide)]
    show Val.i32 n.toInt16.toInt32 = .i32 (Int32.ofInt (n.toInt.bmod (2 ^ 16)))
    rw [← Int32.toInt_toInt16, ← Int16.toInt_toInt32, Int32.ofInt_toInt]
  case int32 =>
    rw [integer_of_signed n rfl (by decide)]
    have hsame : n.toInt.bmod (2 ^ 32) = n.toInt := Int32.toInt_bmod n
    show Val.i32 n = .i32 (Int32.ofInt (n.toInt.bmod (2 ^ 32)))
    rw [hsame, Int32.ofInt_toInt]
  case uint8 =>
    rw [ofInt_of_unsigned _ rfl]
    have hcut : UInt32.ofNat (n.toUInt32.toNat % 2 ^ 8) = n.toUInt32.toUInt8.toUInt32 := by
      rw [← UInt32.toNat_toUInt8, ← UInt8.toNat_toUInt32, UInt32.ofNat_toNat]
    exact congrArg (Val.i32 ·.toInt32) hcut.symm
  case uint16 =>
    rw [ofInt_of_unsigned _ rfl]
    have hcut : UInt32.ofNat (n.toUInt32.toNat % 2 ^ 16) = n.toUInt32.toUInt16.toUInt32 := by
      rw [← UInt32.toNat_toUInt16, ← UInt16.toNat_toUInt32, UInt32.ofNat_toNat]
    exact congrArg (Val.i32 ·.toInt32) hcut.symm
  case uint32 =>
    rw [ofInt_of_unsigned _ rfl]
    exact congrArg (Val.i32 ·.toInt32) (ofNat_mod_32 n.toUInt32).symm
  all_goals cases ht

end Scalar

namespace HostCall

/-- A word of a value, read as a value again. -/
theorem wordVal_valWord {value : Val} (hvalue : value.type = t.valType) :
    wordVal t (valWord value % 2 ^ (8 * t.width)) = t.reduce value := by
  cases value with
  | i32 n =>
    rw [Scalar.reduce_i32 n hvalue.symm]
    cases t <;> first | rfl | cases hvalue
  | i64 n =>
    have hword : Int64.ofInt (n.toUInt64.toNat % 2 ^ 64 : ℕ) = n :=
      congrArg UInt64.toInt64 (Scalar.ofNat_mod_64 n.toUInt64)
    cases t
    case bigInt64 => exact congrArg Val.i64 hword
    case bigUint64 => exact congrArg Val.i64 hword
    all_goals cases hvalue
  | f32 a =>
    cases t
    case float32 => exact congrArg (Val.f32 ⟨·⟩) (Scalar.ofNat_mod_32 a.bits)
    all_goals cases hvalue
  | f64 a =>
    cases t
    case float64 => exact congrArg (Val.f64 ⟨·⟩) (Scalar.ofNat_mod_64 a.bits)
    all_goals cases hvalue
  | ref r => cases t <;> cases hvalue

/-! ### Accesses of a module -/

variable {m : Machine γ} {r : Reference} {i : Int32} {value : Val} {order : List Val}

/-- The byte order that is asked for. -/
def littleEndian : List Val → Bool
  | [.i32 order] => order != 0
  | _ => true

theorem byteOrder_eq (k : Bool → Act γ (List Val)) (horder : order.map Val.type = t.orderParam) :
    byteOrder k order = k (littleEndian order) := by
  have hlength : order.length ≤ 1 := by
    rw [← List.length_map (f := Val.type), horder, Scalar.orderParam]
    split <;> decide
  match order, hlength with
  | [], _ => rfl
  | [.i32 _], _ => rfl
  | [.i64 _], _ | [.f32 _], _ | [.f64 _], _ | [.ref _], _ =>
    unfold Scalar.orderParam at horder
    split at horder <;> cases horder

theorem index_of_nonneg (hi : 0 ≤ i) (w : World γ) : index i w = .ok i.toInt.toNat w := by
  rw [index, if_neg (Int32.not_lt.mpr hi)]
  rfl

theorem arg_of_value {x : Value} (hr : r.value = .ok x) (w : World γ) : arg r w = .ok x w := by
  rw [arg, hr]
  rfl

/-- The view and the offset of an access have been read. -/
theorem view_bind {α : Type} (hr : r.value = .ok (.dataView v)) (hi : 0 ≤ i)
    (k : ByteView → ℕ → Act γ α) (w : World γ) :
    (do
      let v ← orFail (← arg r).expectDataView
      let offset ← index i
      k v offset) w = k v i.toInt.toNat w :=
  (bind_of_ok (arg_of_value hr w) _).trans (bind_of_ok (index_of_nonneg hi w) _)

/-- A scalar that fits is stored for a module. -/
theorem exists_run_dataViewSet (hv : v.Lies w.session.heap) (hr : r.value = .ok (.dataView v))
    (horder : order.map Val.type = t.orderParam) (hi : 0 ≤ i)
    (hin : i.toInt.toNat + t.width ≤ v.length) :
    ∃ w', run m (.dataViewSet t) ([.ref r, .i32 i, value] ++ order) w = .ok [] w' ∧
      v.Stored w w' i.toInt.toNat (t.encode (littleEndian order) (valWord value)) := by
  obtain ⟨w', hset, hs⟩ := ByteView.exists_stored hv hin (valWord value) (littleEndian order)
  refine ⟨w', ?_, hs⟩
  show byteOrder (fun e => noResult (dataViewSet t r i value e)) order w = _
  rw [byteOrder_eq _ horder]
  exact bind_of_ok ((view_bind hr hi _ w).trans hset) _

/-- And read. -/
theorem run_dataViewGet (hr : r.value = .ok (.dataView v))
    (horder : order.map Val.type = t.orderParam) (hi : 0 ≤ i)
    (hread : v.read w.session.heap t i.toInt.toNat (littleEndian order) = .ok x) :
    run m (.dataViewGet t) ([.ref r, .i32 i] ++ order) w = .ok [wordVal t x] w := by
  show byteOrder (fun e => do return [← dataViewGet t r i e]) order w = _
  rw [byteOrder_eq _ horder]
  have hget : dataViewGet t r i (littleEndian order) w = .ok (wordVal t x) w := by
    refine (view_bind hr hi _ w).trans ?_
    show (orFail (v.read w.session.heap t i.toInt.toNat (littleEndian order))
      >>= fun x => pure (wordVal t x) : Act γ Val) w = _
    rw [hread]
    rfl
  exact bind_of_ok hget _

/-- A scalar that does not fit is refused. -/
theorem refuses_dataViewSet (hr : r.value = .ok (.dataView v))
    (horder : order.map Val.type = t.orderParam)
    (hout : ¬ (0 ≤ i ∧ i.toInt.toNat + t.width ≤ v.length)) (w : World γ) :
    ∃ e, run m (.dataViewSet t) ([.ref r, .i32 i, value] ++ order) w = .error (.marshal e) w := by
  show ∃ e, byteOrder (fun e => noResult (dataViewSet t r i value e)) order w = _
  rw [byteOrder_eq _ horder]
  by_cases hi : 0 ≤ i
  · have hbeyond : v.length < i.toInt.toNat + t.width := not_le.mp fun hin => hout ⟨hi, hin⟩
    exact ⟨_, bind_of_error ((view_bind hr hi _ w).trans
      (tryChange_of_error (ByteView.write_of_lt hbeyond))) _⟩
  · -- a negative offset is refused before the view is looked at
    have hindex : (index i : Act γ ℕ) w = .error (.marshal (.outOfBounds 0 0 0)) w := by
      rw [index, if_pos (Int32.not_le.mp hi)]
      rfl
    exact ⟨_, bind_of_error ((bind_of_ok (arg_of_value hr w) _).trans (bind_of_error hindex _)) _⟩

end HostCall

/-! ### The main theorem -/

open HostCall

/-- A scalar of whichever type is stored at an offset of a data view, however it was obtained and
in either byte order, exactly if it fits.  Then its bytes are stored and nothing else has changed,
it is read as it was, and in the other order as the one word that has its bytes reversed.  If it
does not fit, nothing has changed at all.  A module that stores a value of its own type reads what
the scalar type keeps of it. -/
theorem scalars_are_stored {m : Machine γ} (hv : Obtained m w (.dataView v)) (t : Scalar) :
    (∀ (offset : ℕ) (e : Bool),
      (offset + t.width ≤ v.length → ∀ x < 2 ^ (8 * t.width), ∃ w',
        tryChange (fun h => v.write h t offset x e) w = .ok ⟨⟩ w' ∧
        v.Stored w w' offset (t.encode e x) ∧
        v.read w'.session.heap t offset e = .ok x ∧
        ∀ y, v.read w'.session.heap t offset (!e) = .ok y ↔ IsReversed t.width x y) ∧
      (v.length < offset + t.width → ∀ x,
        tryChange (fun h => v.write h t offset x e) w
          = .error (.marshal (.outOfBounds offset t.width v.length)) w)) ∧
    ∀ (r : Reference) (i : Int32) (value : Val) (order : List Val),
      r.value = .ok (.dataView v) → value.type = t.valType →
      order.map Val.type = t.orderParam →
      (0 ≤ i ∧ i.toInt.toNat + t.width ≤ v.length → ∃ w',
        run m (.dataViewSet t) ([.ref r, .i32 i, value] ++ order) w = .ok [] w' ∧
        v.Stored w w' i.toInt.toNat (t.encode (littleEndian order) (valWord value)) ∧
        run m (.dataViewGet t) ([.ref r, .i32 i] ++ order) w' = .ok [t.reduce value] w') ∧
      (¬ (0 ≤ i ∧ i.toInt.toNat + t.width ≤ v.length) → ∃ e,
        run m (.dataViewSet t) ([.ref r, .i32 i, value] ++ order) w = .error (.marshal e) w) := by
  have hlies : v.Lies w.session.heap := hv.lies
  refine ⟨fun offset e => ⟨fun hin x hx => ?_, fun hbeyond x => ?_⟩,
    fun r i value order hr hvalue horder => ⟨fun ⟨hi, hin⟩ => ?_, fun hout => ?_⟩⟩
  · obtain ⟨w', hset, hs⟩ := ByteView.exists_stored hlies hin x e
    obtain ⟨hread, y, hother, hreversed⟩ := ByteView.reads_stored hlies.toInside hin hs
    rw [Nat.mod_eq_of_lt hx] at hread
    refine ⟨w', hset, hs, hread, fun z => ⟨fun hz => ?_, fun hz => ?_⟩⟩
    · obtain rfl := Except.ok.inj (hother.symm.trans hz)
      exact hreversed
    · rw [hother, hreversed.unique hz]
  · exact tryChange_of_error (ByteView.write_of_lt hbeyond)
  · obtain ⟨w', hset, hs⟩ := exists_run_dataViewSet (m := m) hlies hr horder hi hin
    obtain ⟨hread, -⟩ := ByteView.reads_stored hlies.toInside hin hs
    refine ⟨w', hset, hs, ?_⟩
    rw [run_dataViewGet hr horder hi hread, wordVal_valWord hvalue]
  · exact refuses_dataViewSet hr horder hout w

theorem scalars_are_stored_laterBytes :
    Obtained absentModule withBytes (.dataView laterBytes) ∧
    (∃ w', run absentModule (.dataViewSet .int16)
        [.ref (.host (.dataView laterBytes)), .i32 4, .i32 0x18001, .i32 0] withBytes = .ok [] w' ∧
      laterBytes.Stored withBytes w' 4 [0x80, 0x01] ∧
      run absentModule (.dataViewGet .int16)
        [.ref (.host (.dataView laterBytes)), .i32 4, .i32 0] w' = .ok [.i32 (-0x7fff)] w') ∧
    ∃ e, run absentModule (.dataViewSet .int16)
      [.ref (.host (.dataView laterBytes)), .i32 5, .i32 0x18001, .i32 0] withBytes
        = .error (.marshal e) withBytes := by
  have hmade : HostCall.typedArrayNew (Int32.ofNat Element.uint16.tag) 4
      ⟨.new (.standard .default ⟨[]⟩ true) .none none, ()⟩
        = .ok (.host (.typedArray fourElements)) withElements := rfl
  have hviewed : HostCall.dataViewOf (.host (.typedArray fourElements)) 2 6 withElements
      = .ok (.host (.dataView laterBytes)) withBytes := rfl
  have hbytes : Obtained absentModule withBytes (.dataView laterBytes) :=
    .dataViewOf 2 6 rfl (.typedArrayNew _ _ hmade rfl) hviewed rfl
  obtain ⟨-, hcalls⟩ := scalars_are_stored hbytes .int16
  exact ⟨hbytes,
    (hcalls (.host (.dataView laterBytes)) 4 (.i32 0x18001) [.i32 0] rfl rfl rfl).1 (by decide),
    (hcalls (.host (.dataView laterBytes)) 5 (.i32 0x18001) [.i32 0] rfl rfl rfl).2 (by decide)⟩

end ModuleHost
