/-
What numbers stand for.

A word of a floating-point format stands for a rational number, an infinity or no number at all.
That is its quantity; the two zeros have the same one, and so have all NaNs.  Rounding keeps every
quantity that has a word, so whole numbers and binary32 numbers are binary64 numbers as they are.

* `FloatFormat.unpack_signed` — the datum of a word that is put together from its fields;
* `FloatFormat.quantity_roundScaled` — a quantity that fits the format is its own rounding;
* `Double.quantity_ofInt`, `Single.quantity_toDouble` — conversions that lose nothing;
* `Double.truncate_getD` — the integer part of a quantity.

Design notes: that a quantity fits is said of one of its forms, a significand that is short enough
and an exponent between the least and the greatest one; the form need not be that of the word.
-/
import Mathlib
import ModuleHost.Number.Double

namespace ModuleHost

/-- What a number is, apart from how it is written. -/
inductive Quantity where
  | nan
  | infinite (negative : Bool)
  | rational (r : ℚ)
  deriving DecidableEq

/-- The sign of a number as a factor. -/
def signFactor (negative : Bool) : ℚ := if negative then -1 else 1

/-- The quantity of a datum. -/
def Datum.quantity : Datum → Quantity
  | .nan => .nan
  | .infinite negative => .infinite negative
  | .finite negative m q => .rational (signFactor negative * (m * 2 ^ q))

/-- The quantity of a number. -/
def Double.quantity (x : Double) : Quantity := x.datum.quantity

/-- The quantity of a number. -/
def Single.quantity (x : Single) : Quantity := x.datum.quantity

/-- The integer part of a rational number. -/
def towardZero (r : ℚ) : ℤ := if 0 ≤ r then ⌊r⌋ else ⌈r⌉

/-- The integer part of a quantity; what is no rational number has none. -/
def Quantity.integerPart : Quantity → ℤ
  | rational r => towardZero r
  | _ => 0

/-! ### Words and their fields -/

namespace FloatFormat

variable {f : FloatFormat} {s : Bool} {w k sig m a b : ℕ} {q : ℤ}

theorem signWord_eq (f : FloatFormat) : f.signWord = 2 ^ f.exponentBits * 2 ^ f.fractionBits := by
  rw [signWord, Nat.pow_eq, Nat.pow_add, Nat.mul_comm]

theorem negative_signed (hw : w < f.signWord) : f.negative (f.signed s w) = s := by
  have hpos : 0 < f.signWord := Nat.two_pow_pos _
  cases s
  · simp [negative, signed, Nat.div_eq_of_lt hw]
  · simp [negative, signed, Nat.add_div_left _ hpos, Nat.div_eq_of_lt hw]

theorem field_signed (hw : w < f.signWord) : f.field (f.signed s w) = w / 2 ^ f.fractionBits := by
  have hpos : 0 < 2 ^ f.fractionBits := Nat.two_pow_pos _
  have hfield : w / 2 ^ f.fractionBits < 2 ^ f.exponentBits := by
    rw [Nat.div_lt_iff_lt_mul hpos, ← signWord_eq]
    exact hw
  cases s
  · simp [field, signed, Nat.mod_eq_of_lt hfield]
  · simp only [field, signed, signWord_eq, Nat.pow_eq, if_true]
    rw [Nat.mul_comm, Nat.mul_add_div hpos, Nat.add_mod_left, Nat.mod_eq_of_lt hfield]

theorem fraction_signed (w : ℕ) : f.fraction (f.signed s w) = w % 2 ^ f.fractionBits := by
  cases s
  · rfl
  · simp only [fraction, signed, signWord_eq, Nat.pow_eq, if_true]
    rw [Nat.mul_comm, Nat.mul_add_mod]

theorem topField_lt (f : FloatFormat) : f.topField < 2 ^ f.exponentBits :=
  Nat.sub_lt (Nat.two_pow_pos _) Nat.one_pos

theorem infinityWord_lt (f : FloatFormat) : f.infinityWord < f.signWord := by
  rw [signWord_eq]
  exact Nat.mul_lt_mul_of_pos_right f.topField_lt (Nat.two_pow_pos _)

/-- A word below infinity leaves room for a significand with one more bit than the fraction. -/
theorem word_lt (hsig : sig < 2 ^ (f.fractionBits + 1)) (hk : k + 1 < f.topField) :
    k * 2 ^ f.fractionBits + sig < f.infinityWord := by
  have hrows : (k + 2) * 2 ^ f.fractionBits ≤ f.topField * 2 ^ f.fractionBits :=
    Nat.mul_le_mul_right _ hk
  rw [pow_succ] at hsig
  rw [infinityWord, Nat.pow_eq]
  linarith

/-- The datum of a word that is put together from a significand and an exponent, counted from the
least one.  Below the least significand with a leading bit only the least exponent is possible. -/
theorem unpack_signed (hsig : sig < 2 ^ (f.fractionBits + 1))
    (hnormal : 2 ^ f.fractionBits ≤ sig ∨ k = 0) (hk : k + 1 < f.topField) :
    f.unpack (f.signed s (k * 2 ^ f.fractionBits + sig))
      = .finite s sig (f.minExponent + k) := by
  have hpos : 0 < 2 ^ f.fractionBits := Nat.two_pow_pos _
  have hword := (word_lt hsig hk).trans f.infinityWord_lt
  rw [unpack, field_signed hword, fraction_signed, negative_signed hword, Nat.pow_eq]
  by_cases hlow : sig < 2 ^ f.fractionBits
  · obtain rfl : k = 0 := hnormal.resolve_left (not_le.mpr hlow)
    have htop : f.topField ≠ 0 := by omega
    simp [Nat.div_eq_of_lt hlow, Nat.mod_eq_of_lt hlow, htop.symm]
  · -- the leading bit is carried into the exponent field
    obtain ⟨r, rfl⟩ := Nat.exists_eq_add_of_le (not_lt.mp hlow)
    have hr : r < 2 ^ f.fractionBits := by
      rw [pow_succ] at hsig
      omega
    have hsplit : k * 2 ^ f.fractionBits + (2 ^ f.fractionBits + r)
        = 2 ^ f.fractionBits * (k + 1) + r := by ring
    rw [hsplit, Nat.mul_add_div hpos, Nat.mul_add_mod, Nat.div_eq_of_lt hr, Nat.mod_eq_of_lt hr]
    have hfield : k + 1 + 0 ≠ f.topField := by omega
    rw [if_neg hfield, if_neg (Nat.succ_ne_zero _)]
    congr 1
    push_cast
    ring

theorem nanWord_lt (hw : w < 2 ^ f.fractionBits) : f.infinityWord + w < f.signWord := by
  have hrows : (f.topField + 1) * 2 ^ f.fractionBits ≤ f.signWord := by
    rw [signWord_eq]
    exact Nat.mul_le_mul_right _ f.topField_lt
  rw [Nat.add_mul] at hrows
  rw [infinityWord, Nat.pow_eq]
  omega

/-- Beyond infinity there are NaNs. -/
theorem unpack_nan (h0 : w ≠ 0) (hw : w < 2 ^ f.fractionBits) :
    f.unpack (f.signed s (f.infinityWord + w)) = .nan := by
  have hpos : 0 < 2 ^ f.fractionBits := Nat.two_pow_pos _
  have hsplit : f.infinityWord + w = 2 ^ f.fractionBits * f.topField + w := by
    rw [infinityWord, Nat.pow_eq, Nat.mul_comm]
  rw [unpack, field_signed (nanWord_lt hw), fraction_signed, hsplit, Nat.mul_add_div hpos,
    Nat.mul_add_mod, Nat.div_eq_of_lt hw, Nat.mod_eq_of_lt hw, Nat.add_zero, if_pos rfl, if_neg h0]

/-- The significand and the exponent of a finite datum are within the format. -/
theorem bounds_of_unpack (hf : 1 < f.topField) (hw : f.unpack w = .finite s m q) :
    m < 2 ^ (f.fractionBits + 1) ∧ f.minExponent ≤ q ∧ q - f.minExponent + 1 < f.topField := by
  have hfraction : f.fraction w < 2 ^ f.fractionBits := Nat.mod_lt _ (Nat.two_pow_pos _)
  have hfield : f.field w < 2 ^ f.exponentBits := Nat.mod_lt _ (Nat.two_pow_pos _)
  have htop : f.topField = 2 ^ f.exponentBits - 1 := rfl
  rw [pow_succ]
  unfold unpack at hw
  split at hw
  · split at hw <;> cases hw
  · split at hw
    · cases hw
      omega
    · cases hw
      rw [Nat.pow_eq]
      omega

/-! ### Exact rounding -/

theorem roundHalfEven_mul (n : ℕ) {d : ℕ} (hd : 0 < d) : roundHalfEven (n * d) d = n := by
  simp [roundHalfEven, Nat.mul_div_cancel _ hd, hd]

theorem log2_mul_two_pow (hm : m ≠ 0) (a : ℕ) : Nat.log2 (m * 2 ^ a) = Nat.log2 m + a := by
  have hlow : 2 ^ Nat.log2 m ≤ m := Nat.log2_self_le hm
  have hhigh : m < 2 ^ (Nat.log2 m + 1) := Nat.lt_log2_self
  rw [Nat.log2_eq_iff (Nat.mul_ne_zero hm (Nat.two_pow_pos a).ne')]
  constructor
  · rw [pow_add]
    exact Nat.mul_le_mul_right _ hlow
  · rw [Nat.add_right_comm, pow_add]
    exact Nat.mul_lt_mul_of_pos_right hhigh (Nat.two_pow_pos a)

/-- The logarithm of a significand that is scaled by a power of two. -/
theorem logQuotient_scaled (hm : m ≠ 0) :
    logQuotient (m * 2 ^ a) (2 ^ b) = (Nat.log2 m : ℤ) + a - b := by
  have hlow : 2 ^ Nat.log2 m ≤ m := Nat.log2_self_le hm
  obtain ⟨guess, hguess⟩ : ∃ guess : ℤ, (Nat.log2 m : ℤ) + a - b = guess := ⟨_, rfl⟩
  unfold logQuotient
  simp only [log2_mul_two_pow hm, Nat.log2_two_pow, Nat.cast_add, hguess, Nat.pow_eq]
  -- the first guess is the logarithm, since neither comparison is below the leading bit
  refine if_neg ?_
  split
  · have hexponent : b + guess.toNat = Nat.log2 m + a := by omega
    rw [← pow_add, hexponent, pow_add, decide_eq_true_eq, not_lt]
    exact Nat.mul_le_mul_right _ hlow
  · have hexponent : Nat.log2 m + (a + (-guess).toNat) = b := by omega
    rw [Nat.mul_assoc, ← pow_add, ← hexponent, pow_add _ (Nat.log2 m), decide_eq_true_eq, not_lt]
    exact Nat.mul_le_mul_right _ hlow

/-- The exponent of the word for a significand that is scaled by a power of two. -/
def wordExponent (f : FloatFormat) (m : ℕ) (q : ℤ) : ℤ :=
  max ((Nat.log2 m : ℤ) + q - f.fractionBits) f.minExponent

/-- The significand of that word. -/
def wordSignificand (f : FloatFormat) (m : ℕ) (q : ℤ) : ℕ := m * 2 ^ (q - f.wordExponent m q).toNat

theorem wordExponent_le (hm : m < 2 ^ (f.fractionBits + 1)) (h0 : m ≠ 0) (hq : f.minExponent ≤ q) :
    f.wordExponent m q ≤ q := by
  have hlog : Nat.log2 m < f.fractionBits + 1 := (Nat.log2_lt h0).mpr hm
  unfold wordExponent
  omega

/-- The significand has one more bit than the fraction at most, and as many unless the exponent is
the least one. -/
theorem wordSignificand_bounds (hm : m < 2 ^ (f.fractionBits + 1)) (h0 : m ≠ 0)
    (hq : f.minExponent ≤ q) :
    f.wordSignificand m q < 2 ^ (f.fractionBits + 1) ∧
      (2 ^ f.fractionBits ≤ f.wordSignificand m q ∨ f.wordExponent m q = f.minExponent) := by
  have hle := wordExponent_le hm h0 hq
  have hsig : f.wordSignificand m q ≠ 0 := Nat.mul_ne_zero h0 (Nat.two_pow_pos _).ne'
  have hlog : Nat.log2 (f.wordSignificand m q) = Nat.log2 m + (q - f.wordExponent m q).toNat :=
    log2_mul_two_pow h0 _
  have hexponent : f.wordExponent m q
      = max ((Nat.log2 m : ℤ) + q - f.fractionBits) f.minExponent := rfl
  constructor
  · rw [← Nat.log2_lt hsig, hlog]
    omega
  · rw [← Nat.le_log2 hsig, hlog]
    omega

/-- Rounding a significand that is short enough rounds nothing off. -/
theorem round_scaled (hm : m < 2 ^ (f.fractionBits + 1)) (h0 : m ≠ 0)
    (hab : (a : ℤ) - b = q) (hq : f.minExponent ≤ q)
    (htop : q - f.minExponent + 1 < f.topField) :
    f.round (m * 2 ^ a) (2 ^ b)
      = (f.wordExponent m q - f.minExponent).toNat * 2 ^ f.fractionBits
        + f.wordSignificand m q := by
  have hle := wordExponent_le hm h0 hq
  obtain ⟨hsig, -⟩ := wordSignificand_bounds hm h0 hq
  have hfinite := word_lt (k := (f.wordExponent m q - f.minExponent).toNat) hsig (by omega)
  have hexponent : max (logQuotient (m * 2 ^ a) (2 ^ b) - f.fractionBits) f.minExponent
      = f.wordExponent m q := by
    rw [logQuotient_scaled h0, wordExponent, ← hab]
    ring_nf
  -- the quotient is the significand, whichever side is scaled
  have hquotient : (if 0 ≤ f.wordExponent m q
        then roundHalfEven (m * 2 ^ a) (2 ^ b * 2 ^ (f.wordExponent m q).toNat)
        else roundHalfEven (m * 2 ^ a * 2 ^ (-f.wordExponent m q).toNat) (2 ^ b))
      = f.wordSignificand m q := by
    split
    · have hsplit : (q - f.wordExponent m q).toNat + (b + (f.wordExponent m q).toNat) = a := by
        omega
      rw [← hsplit, pow_add, ← Nat.mul_assoc, ← pow_add,
        roundHalfEven_mul _ (Nat.two_pow_pos _), wordSignificand]
    · have hsplit : (q - f.wordExponent m q).toNat + b = a + (-f.wordExponent m q).toNat := by omega
      rw [Nat.mul_assoc, ← pow_add, ← hsplit, pow_add, ← Nat.mul_assoc,
        roundHalfEven_mul _ (Nat.two_pow_pos _), wordSignificand]
  unfold round
  simp only [Nat.pow_eq, hexponent, hquotient]
  rw [if_neg (Nat.mul_ne_zero h0 (Nat.two_pow_pos _).ne'), Nat.min_eq_left hfinite.le]

/-- The word of a significand that is short enough, in whatever form it is given. -/
theorem roundScaled_eq_signed (hm : m < 2 ^ (f.fractionBits + 1)) (h0 : m ≠ 0)
    (hq : f.minExponent ≤ q) (htop : q - f.minExponent + 1 < f.topField) (s : Bool) (k : ℕ) :
    f.roundScaled s (m * 2 ^ k) (q - k) = f.signed s
      ((f.wordExponent m q - f.minExponent).toNat * 2 ^ f.fractionBits
        + f.wordSignificand m q) := by
  unfold roundScaled
  congr 1
  split
  · rw [← round_scaled (a := k + (q - k).toNat) (b := 0) hm h0 (by omega) hq htop, pow_add,
      ← Nat.mul_assoc]
    rfl
  · rw [← round_scaled (a := k) (b := (-(q - k)).toNat) hm h0 (by omega) hq htop]
    rfl

/-- A quantity that fits the format is its own rounding. -/
theorem quantity_roundScaled (hm : m < 2 ^ (f.fractionBits + 1)) (hq : f.minExponent ≤ q)
    (htop : q - f.minExponent + 1 < f.topField) (s : Bool) :
    (f.unpack (f.roundScaled s m q)).quantity = .rational (signFactor s * (m * 2 ^ q)) := by
  by_cases h0 : m = 0
  · have hzero : f.roundScaled s m q = f.signed s (0 * 2 ^ f.fractionBits + 0) := by
      simp [roundScaled, round, h0]
    rw [hzero, unpack_signed (Nat.two_pow_pos _) (.inr rfl) (by omega)]
    simp [Datum.quantity, h0]
  · have hle := wordExponent_le hm h0 hq
    obtain ⟨hsig, hnormal⟩ := wordSignificand_bounds hm h0 hq
    have hleast : f.minExponent ≤ f.wordExponent m q := le_max_right _ _
    have hword := roundScaled_eq_signed hm h0 hq htop s 0
    rw [pow_zero, Nat.mul_one, Nat.cast_zero, sub_zero] at hword
    rw [hword, unpack_signed hsig (hnormal.imp_right (by omega)) (by omega)]
    have hexponent : f.minExponent + ((f.wordExponent m q - f.minExponent).toNat : ℤ)
        = f.wordExponent m q := by omega
    have hscale : (q - f.wordExponent m q).toNat + f.wordExponent m q = q := by omega
    rw [Datum.quantity, hexponent, wordSignificand]
    congr 2
    rw [Nat.cast_mul, Nat.cast_pow, Nat.cast_ofNat, mul_assoc, ← zpow_natCast,
      ← zpow_add₀ two_ne_zero, hscale]

end FloatFormat

/-! ### Conversions that lose nothing -/

open FloatFormat

theorem binary64_minExponent : binary64.minExponent = -1074 := by decide

theorem binary32_minExponent : binary32.minExponent = -149 := by decide

theorem binary64_topField : binary64.topField = 2047 := by decide

theorem binary32_topField : binary32.topField = 255 := by decide

namespace Double

variable {s : Bool} {m w : ℕ} {q n : ℤ}

/-- A word is read as its datum. -/
theorem datum_ofWord (hw : w < 2 ^ 64) : (ofWord w).datum = binary64.unpack w := by
  rw [datum, ofWord, UInt64.toNat_ofNat_of_lt' hw]

theorem signed_lt (hw : w < binary64.signWord) : binary64.signed s w < 2 ^ 64 := by
  have hsign : binary64.signWord = 2 ^ 63 := rfl
  cases s
  · exact lt_of_lt_of_le hw (by omega)
  · rw [signed, if_pos rfl]
    omega

theorem round_le_infinityWord (f : FloatFormat) (n d : ℕ) : f.round n d ≤ f.infinityWord := by
  unfold FloatFormat.round
  split
  · exact Nat.zero_le _
  · exact Nat.min_le_right _ _

theorem roundScaled_lt (s : Bool) (m : ℕ) (q : ℤ) : binary64.roundScaled s m q < 2 ^ 64 := by
  refine signed_lt ?_
  split
  · exact (round_le_infinityWord _ _ _).trans_lt (infinityWord_lt _)
  · exact (round_le_infinityWord _ _ _).trans_lt (infinityWord_lt _)

/-- A significand of 53 bits with an exponent in between keeps its quantity. -/
theorem quantity_ofScaled (hm : m < 2 ^ 53) (hlow : -1074 ≤ q) (hhigh : q ≤ 971) (s : Bool) :
    (ofScaled s m q).quantity = .rational (signFactor s * (m * 2 ^ q)) := by
  rw [quantity, ofScaled, datum_ofWord (roundScaled_lt s m q)]
  refine quantity_roundScaled hm ?_ ?_ s
  · rwa [binary64_minExponent]
  · rw [binary64_minExponent, binary64_topField]
    push_cast
    omega

theorem quantity_ofInt (hn : n.natAbs < 2 ^ 53) : (ofInt n).quantity = .rational n := by
  rw [ofInt, quantity_ofScaled hn (by decide) (by decide)]
  by_cases hneg : n < 0
  · simp [signFactor, hneg, abs_of_neg hneg]
  · simp [signFactor, hneg, abs_of_nonneg (not_lt.mp hneg)]

theorem quantity_ofNat (hm : m < 2 ^ 53) : (ofNat m).quantity = .rational m := by
  rw [ofNat, quantity_ofScaled hm (by decide) (by decide)]
  simp [signFactor]

theorem quantity_nanWord (h0 : w ≠ 0) (hw : w < 2 ^ 52) (s : Bool) :
    (ofWord (binary64.signed s (binary64.infinityWord + w))).quantity = .nan := by
  have hfraction : w < 2 ^ binary64.fractionBits := hw
  rw [quantity, datum_ofWord (signed_lt (nanWord_lt hfraction)), unpack_nan h0 hfraction,
    Datum.quantity]

theorem quantity_infinity (s : Bool) : (infinity s).quantity = .infinite s := by
  cases s <;> decide

/-! ### The integer part -/

/-- A scaled significand is a whole number or a quotient. -/
theorem scaled_eq (m : ℕ) (q : ℤ) :
    (m : ℚ) * 2 ^ q
      = if 0 ≤ q then ((m * 2 ^ q.toNat : ℕ) : ℚ) else (m : ℚ) / ((2 ^ (-q).toNat : ℕ) : ℚ) := by
  split
  · rename_i hq
    obtain ⟨k, rfl⟩ := Int.eq_ofNat_of_zero_le hq
    rw [Int.toNat_natCast, zpow_natCast]
    push_cast
    rfl
  · rename_i hq
    obtain ⟨k, rfl⟩ : ∃ k : ℕ, q = -(k : ℤ) := ⟨(-q).toNat, by omega⟩
    rw [neg_neg, Int.toNat_natCast, zpow_neg, zpow_natCast, ← div_eq_mul_inv]
    push_cast
    rfl

theorem floor_scaled (m : ℕ) (q : ℤ) :
    ⌊(m : ℚ) * 2 ^ q⌋ = ((if 0 ≤ q then m * 2 ^ q.toNat else m / 2 ^ (-q).toNat : ℕ) : ℤ) := by
  rw [scaled_eq]
  split
  · exact Int.floor_natCast _
  · exact Rat.floor_natCast_div_natCast _ _

theorem towardZero_neg {r : ℚ} (hr : 0 ≤ r) : towardZero (-r) = -⌊r⌋ := by
  unfold towardZero
  split
  · rename_i hneg
    have h0 : r = 0 := le_antisymm (by linarith) hr
    simp [h0]
  · exact Int.ceil_neg

/-- The integer part of a number is that of its quantity; what is no rational number has none. -/
theorem truncate_getD (x : Double) : x.truncate.getD 0 = x.quantity.integerPart := by
  unfold truncate quantity
  cases x.datum with
  | nan => rfl
  | infinite => rfl
  | finite s m q =>
    have hpos : (0 : ℚ) ≤ m * 2 ^ q := by positivity
    simp only [Option.getD_some, Datum.quantity, Quantity.integerPart, Nat.pow_eq, ← floor_scaled]
    cases s
    · simp [signFactor, towardZero, hpos]
    · simp [signFactor, towardZero_neg hpos]

end Double

namespace Single

/-- A binary32 number is a binary64 number as it is. -/
theorem quantity_toDouble (x : Single) : x.toDouble.quantity = x.quantity := by
  unfold toDouble quantity
  cases hx : x.datum with
  | nan =>
    -- the quiet bit is set, so the fraction is not zero whatever the payload is
    have hpayload : binary32.fraction x.bits.toNat % 2 ^ 22 < 2 ^ 22 := Nat.mod_lt _ (by decide)
    have hfraction : 2 ^ 51 + binary32.fraction x.bits.toNat % 2 ^ 22 * 2 ^ 29 < 2 ^ 52 := by omega
    simp only [Nat.pow_eq, Nat.add_assoc]
    exact Double.quantity_nanWord (by omega) hfraction _
  | infinite s => exact Double.quantity_infinity s
  | finite s m q =>
    obtain ⟨hm, hq, htop⟩ := bounds_of_unpack (by rw [binary32_topField]; decide) hx
    rw [binary32_minExponent] at hq htop
    rw [binary32_topField] at htop
    have hshort : m < 2 ^ 53 := lt_trans hm (by decide)
    push_cast at htop
    exact Double.quantity_ofScaled hshort (by omega) (by omega) s

end Single

end ModuleHost
