/-
Strings survive as bytes.

The encoding of a character is a lead byte, which says how many bytes follow, and continuation
bytes of six bits each.  While the decoder reads them, what it has is the code point without the
bits that are still to come.  The first continuation byte is in the range that the lead byte asks
for, because a character is written in as few bytes as possible and is no surrogate.

* `Utf8.tail` — the continuation bytes of a code point;
* `Utf8.decodeFrom_tail` — reading them;
* `Utf8.decodeFrom_utf8EncodeChar` — reading a character;
* `Utf8.decode_encode` — reading a string.
-/
import Mathlib
import ModuleHost.Text.Utf8
import ModuleHost.Proofs.Text.Points

namespace ModuleHost

/-- Listing the bytes of an array from a position on. -/
theorem toList_loop_eq (bytes : ByteArray) (i : ℕ) (front : List UInt8) :
    ByteArray.toList.loop bytes i front = front.reverse ++ bytes.data.toList.drop i := by
  fun_induction ByteArray.toList.loop bytes i front with
  | case1 i front hi ih =>
    have hi' : i < bytes.data.toList.length := hi
    have hget : bytes.get! i = bytes.data.toList[i] := getElem!_pos bytes.data i hi
    rw [ih, List.reverse_cons, List.append_assoc, List.drop_eq_getElem_cons hi', hget]
    rfl
  | case2 i front hi =>
    have hi' : bytes.data.toList.length ≤ i := not_lt.mp hi
    rw [List.drop_eq_nil_of_le hi', List.append_nil]

namespace Utf8

variable {b low high : UInt8} {rest : List UInt8} {n v : ℕ}

/-! ### One byte -/

theorem decodeFrom_cons (state : Option Pending) (b : UInt8) (rest : List UInt8) :
    decodeFrom state (b :: rest) = (step state b).1 ++ decodeFrom (step state b).2 rest := by
  cases state <;> rfl

theorem decodeFrom_ascii (hb : b < 0x80) :
    decodeFrom none (b :: rest) = Char.ofNat b.toNat :: decodeFrom none rest := by
  rw [decodeFrom_cons, step, begin, if_pos hb]
  rfl

theorem decodeFrom_lead (hascii : 0x80 ≤ b) (hb : lead? b = some (n, low, high)) :
    decodeFrom none (b :: rest) = decodeFrom (some ⟨n, low, high, leadPayload b n⟩) rest := by
  rw [decodeFrom_cons, step, begin, if_neg (UInt8.not_lt.mpr hascii), hb]
  rfl

theorem decodeFrom_next (hlow : low ≤ b) (hhigh : b ≤ high) :
    decodeFrom (some ⟨n + 2, low, high, v⟩) (b :: rest)
      = decodeFrom (some ⟨n + 1, 0x80, 0xbf, v * 64 + b.toNat % 64⟩) rest := by
  rw [decodeFrom_cons, step, if_pos (by simp [hlow, hhigh])]
  simp

theorem decodeFrom_last (hlow : low ≤ b) (hhigh : b ≤ high) :
    decodeFrom (some ⟨1, low, high, v⟩) (b :: rest)
      = Char.ofNat (v * 64 + b.toNat % 64) :: decodeFrom none rest := by
  rw [decodeFrom_cons, step, if_pos (by simp [hlow, hhigh])]
  rfl

/-! ### Continuation bytes -/

/-- The byte with the `n`-th six bits of a code point, counted from the end. -/
def tailByte (v n : ℕ) : UInt8 := UInt8.ofNat (v / 64 ^ n % 64 + 128)

theorem toNat_tailByte (v n : ℕ) : (tailByte v n).toNat = v / 64 ^ n % 64 + 128 := by
  rw [tailByte, UInt8.toNat_ofNat']
  omega

theorem low_le_tailByte (v n : ℕ) : 0x80 ≤ tailByte v n := by
  rw [UInt8.le_iff_toNat_le, toNat_tailByte]
  exact Nat.le_add_left 128 _

theorem tailByte_le_high (v n : ℕ) : tailByte v n ≤ 0xbf := by
  rw [UInt8.le_iff_toNat_le, toNat_tailByte]
  show _ ≤ 63 + 128
  omega

/-- The bytes with the last `n` times six bits of a code point. -/
def tail (v : ℕ) : ℕ → List UInt8
  | 0 => []
  | n + 1 => tailByte v n :: tail v n

/-- The code point is put together again, by the number of bytes that are still to come. -/
theorem decodeFrom_tail (hlow : low ≤ tailByte v n) (hhigh : tailByte v n ≤ high) :
    decodeFrom (some ⟨n + 1, low, high, v / 64 ^ (n + 1)⟩) (tail v (n + 1) ++ rest)
      = Char.ofNat v :: decodeFrom none rest := by
  have hvalue (n : ℕ) : v / 64 ^ (n + 1) * 64 + (tailByte v n).toNat % 64 = v / 64 ^ n := by
    rw [toNat_tailByte, pow_succ, ← Nat.div_div_eq_div_mul]
    omega
  induction n generalizing low high with
  | zero =>
    rw [tail, List.cons_append, decodeFrom_last hlow hhigh, hvalue, pow_zero, Nat.div_one]
    rfl
  | succ n ih =>
    rw [tail, List.cons_append, decodeFrom_next hlow hhigh, hvalue]
    exact ih (low_le_tailByte v n) (tailByte_le_high v n)

/-! ### Lead bytes -/

theorem lead?_two (hlow : 0xc2 ≤ b.toNat) (hhigh : b.toNat ≤ 0xdf) :
    lead? b = some (1, 0x80, 0xbf) := by
  unfold lead?
  simp only [UInt8.le_iff_toNat_le, ← UInt8.toNat_inj, Bool.and_eq_true, decide_eq_true_eq]
  split_ifs <;> simp_all

theorem lead?_three (hlow : 0xe0 ≤ b.toNat) (hhigh : b.toNat ≤ 0xef) :
    lead? b = some (2, if b = 0xe0 then 0xa0 else 0x80, if b = 0xed then 0x9f else 0xbf) := by
  unfold lead?
  simp only [UInt8.le_iff_toNat_le, ← UInt8.toNat_inj, Bool.and_eq_true, decide_eq_true_eq]
  split_ifs <;> simp_all <;> omega

theorem lead?_four (hlow : 0xf0 ≤ b.toNat) (hhigh : b.toNat ≤ 0xf4) :
    lead? b = some (3, if b = 0xf0 then 0x90 else 0x80, if b = 0xf4 then 0x8f else 0xbf) := by
  unfold lead?
  simp only [UInt8.le_iff_toNat_le, ← UInt8.toNat_inj, Bool.and_eq_true, decide_eq_true_eq]
  split_ifs <;> simp_all <;> omega

/-! ### One character -/

/-- A sequence of a lead byte and continuation bytes is read as one character. -/
theorem decodeFrom_sequence (hascii : 0x80 ≤ b) (hb : lead? b = some (n + 1, low, high))
    (hpayload : leadPayload b (n + 1) = v / 64 ^ (n + 1))
    (hlow : low ≤ tailByte v n) (hhigh : tailByte v n ≤ high) :
    decodeFrom none (b :: tail v (n + 1) ++ rest) = Char.ofNat v :: decodeFrom none rest := by
  rw [List.cons_append, decodeFrom_lead hascii hb, hpayload, decodeFrom_tail hlow hhigh]

theorem decodeFrom_one (hhigh : v ≤ 0x7f) (rest : List UInt8) :
    decodeFrom none ([UInt8.ofNat v] ++ rest) = Char.ofNat v :: decodeFrom none rest := by
  have hb : (UInt8.ofNat v).toNat = v := by
    rw [UInt8.toNat_ofNat']
    omega
  have hascii : UInt8.ofNat v < 0x80 := by
    rw [UInt8.lt_iff_toNat_lt, hb]
    exact Nat.lt_succ_of_le hhigh
  rw [List.singleton_append, decodeFrom_ascii hascii, hb]

theorem decodeFrom_two (hlow : 0x80 ≤ v) (hhigh : v ≤ 0x7ff) (rest : List UInt8) :
    decodeFrom none (UInt8.ofNat (v / 64 % 32 + 192) :: tail v 1 ++ rest)
      = Char.ofNat v :: decodeFrom none rest := by
  have hlead : (UInt8.ofNat (v / 64 % 32 + 192)).toNat = v / 64 + 192 := by
    rw [UInt8.toNat_ofNat']
    omega
  refine decodeFrom_sequence ?_ (lead?_two ?_ ?_) ?_ ?_ ?_
  · rw [UInt8.le_iff_toNat_le, hlead]
    exact le_trans (by decide) (Nat.le_add_left 192 _)
  · omega
  · omega
  · rw [leadPayload, hlead]
    show (v / 64 + 192) % 32 = v / 64
    omega
  · exact low_le_tailByte v 0
  · exact tailByte_le_high v 0

theorem decodeFrom_three (hlow : 0x800 ≤ v) (hhigh : v ≤ 0xffff)
    (hplain : ¬ (0xd800 ≤ v ∧ v < 0xe000)) (rest : List UInt8) :
    decodeFrom none (UInt8.ofNat (v / 4096 % 16 + 224) :: tail v 2 ++ rest)
      = Char.ofNat v :: decodeFrom none rest := by
  have hlead : (UInt8.ofNat (v / 4096 % 16 + 224)).toNat = v / 4096 + 224 := by
    rw [UInt8.toNat_ofNat']
    omega
  have htail : (tailByte v 1).toNat = v / 64 % 64 + 128 := toNat_tailByte v 1
  refine decodeFrom_sequence ?_ (lead?_three ?_ ?_) ?_ ?_ ?_
  · rw [UInt8.le_iff_toNat_le, hlead]
    exact le_trans (by decide) (Nat.le_add_left 224 _)
  · omega
  · omega
  · rw [leadPayload, hlead]
    show (v / 4096 + 224) % 16 = v / 4096
    omega
  -- an overlong form
  · split_ifs with hb
    · have hzero : v / 4096 + 224 = 224 := hlead.symm.trans (congrArg UInt8.toNat hb)
      rw [UInt8.le_iff_toNat_le, htail]
      show 160 ≤ _
      omega
    · exact low_le_tailByte v 1
  -- a surrogate
  · split_ifs with hb
    · have hlast : v / 4096 + 224 = 237 := hlead.symm.trans (congrArg UInt8.toNat hb)
      rw [UInt8.le_iff_toNat_le, htail]
      show _ ≤ 159
      omega
    · exact tailByte_le_high v 1

theorem decodeFrom_four (hlow : 0x10000 ≤ v) (hhigh : v ≤ 0x10ffff) (rest : List UInt8) :
    decodeFrom none (UInt8.ofNat (v / 262144 % 8 + 240) :: tail v 3 ++ rest)
      = Char.ofNat v :: decodeFrom none rest := by
  have hlead : (UInt8.ofNat (v / 262144 % 8 + 240)).toNat = v / 262144 + 240 := by
    rw [UInt8.toNat_ofNat']
    omega
  have htail : (tailByte v 2).toNat = v / 4096 % 64 + 128 := toNat_tailByte v 2
  refine decodeFrom_sequence ?_ (lead?_four ?_ ?_) ?_ ?_ ?_
  · rw [UInt8.le_iff_toNat_le, hlead]
    exact le_trans (by decide) (Nat.le_add_left 240 _)
  · omega
  · omega
  · rw [leadPayload, hlead]
    show (v / 262144 + 240) % 8 = v / 262144
    omega
  -- an overlong form
  · split_ifs with hb
    · have hzero : v / 262144 + 240 = 240 := hlead.symm.trans (congrArg UInt8.toNat hb)
      rw [UInt8.le_iff_toNat_le, htail]
      show 144 ≤ _
      omega
    · exact low_le_tailByte v 2
  -- beyond the last code point
  · split_ifs with hb
    · have hlast : v / 262144 + 240 = 244 := hlead.symm.trans (congrArg UInt8.toNat hb)
      rw [UInt8.le_iff_toNat_le, htail]
      show _ ≤ 143
      omega
    · exact tailByte_le_high v 2

/-- A character is written in one of four forms. -/
theorem utf8EncodeChar_eq (c : Char) : String.utf8EncodeChar c =
    if c.toNat ≤ 0x7f then [UInt8.ofNat c.toNat]
    else if c.toNat ≤ 0x7ff then UInt8.ofNat (c.toNat / 64 % 32 + 192) :: tail c.toNat 1
    else if c.toNat ≤ 0xffff then UInt8.ofNat (c.toNat / 4096 % 16 + 224) :: tail c.toNat 2
    else UInt8.ofNat (c.toNat / 262144 % 8 + 240) :: tail c.toNat 3 := by
  simp only [tail, tailByte, pow_zero, Nat.div_one, Nat.reducePow]
  rfl

/-- The bytes of a character are read as that character. -/
theorem decodeFrom_utf8EncodeChar (c : Char) (rest : List UInt8) :
    decodeFrom none (String.utf8EncodeChar c ++ rest) = c :: decodeFrom none rest := by
  obtain ⟨htop, hplain⟩ := Text.toNat_bounds c
  unfold Text.IsSurrogate at hplain
  have hchar : decodeFrom none (String.utf8EncodeChar c ++ rest)
      = Char.ofNat c.toNat :: decodeFrom none rest := by
    rw [utf8EncodeChar_eq]
    split_ifs with h1 h2 h3
    · exact decodeFrom_one h1 rest
    · exact decodeFrom_two (by omega) h2 rest
    · exact decodeFrom_three (by omega) h3 hplain rest
    · exact decodeFrom_four (by omega) htop rest
  rwa [Char.ofNat_toNat] at hchar

theorem encode_eq (s : String) : encode s = s.toList.flatMap String.utf8EncodeChar := by
  have hbytes : s.toByteArray = (s.toList.flatMap String.utf8EncodeChar).toByteArray := by
    conv_lhs => rw [← String.ofList_toList (s := s), String.toByteArray_ofList]
    rfl
  rw [encode, String.toUTF8_eq_toByteArray, hbytes, ByteArray.toList, toList_loop_eq,
    List.reverse_nil, List.nil_append, List.drop_zero, List.toList_data_toByteArray]

/-- A string is read as it was. -/
theorem decode_encode (s : String) : decode (encode s) = s := by
  have hchars (cs : List Char) : decodeFrom none (cs.flatMap String.utf8EncodeChar) = cs := by
    induction cs with
    | nil => rfl
    | cons c cs ih => rw [List.flatMap_cons, decodeFrom_utf8EncodeChar, ih]
  rw [decode, encode_eq, hchars, String.ofList_toList]

end Utf8

end ModuleHost
