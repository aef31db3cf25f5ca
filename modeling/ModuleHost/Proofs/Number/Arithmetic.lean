/-
What an operation on numbers gives where nothing has to be rounded.

An operation of binary64 arithmetic gives the exact result whenever there is a number for it, in
whatever form the result is computed: its units may be as small as those of the operands.

* `Fits` — a rational number that is a number;
* `Fits.quantity_ofScaled` — it is its own rounding, whatever the units;
* `quantity_add`, `quantity_sub` — sums and differences that fit;
* `quantity_trunc`, `quantity_floor`, `exists_quantity_rem` — whole numbers and remainders, which
  fit always;
* `quantity_remEuclid` — the remainder of whole numbers, without a sign;
* `lt_iff`, `le_iff` — comparisons are those of quantities.
-/
import Mathlib
import ModuleHost.Number.Arithmetic
import ModuleHost.Proofs.Number.Equality

namespace ModuleHost

open FloatFormat

variable {s t : Bool} {m n M : ℕ} {p q low : ℤ} {a b r : ℚ}

/-! ### Numbers among the rational numbers -/

/-- A rational number that is a number. -/
def Fits (r : ℚ) : Prop :=
  ∃ (s : Bool) (m : ℕ) (q : ℤ),
    m < 2 ^ 53 ∧ q ∈ Set.Icc (-1074) 971 ∧ r = signFactor s * (m * 2 ^ q)

theorem signFactor_false : signFactor false = 1 := rfl

theorem abs_signFactor_mul (s : Bool) (m : ℕ) (q : ℤ) :
    |signFactor s * (m * 2 ^ q)| = (m : ℚ) * 2 ^ q := by
  have hpos : (0 : ℚ) ≤ m * 2 ^ q := by positivity
  cases s <;> simp [signFactor, abs_mul]

theorem fits_intCast {k : ℤ} (hk : k.natAbs < 2 ^ 53) : Fits k := by
  refine ⟨decide (k < 0), k.natAbs, 0, hk, by simp, ?_⟩
  by_cases hneg : k < 0
  · simp [signFactor, hneg, abs_of_neg hneg]
  · simp [signFactor, hneg, abs_of_nonneg (not_lt.mp hneg)]

/-- A number that fits is its own rounding, whatever the units in which it is computed. -/
theorem Fits.quantity_ofScaled (hr : Fits (signFactor s * (M * 2 ^ p)))
    (hp : p ∈ Set.Icc (-1074) 971) :
    (Double.ofScaled s M p).quantity = .rational (signFactor s * (M * 2 ^ p)) := by
  obtain ⟨t, m, q, hm, ⟨hlow, hhigh⟩, heq⟩ := hr
  have hvalue : (M : ℚ) * 2 ^ p = m * 2 ^ q := by
    rw [← abs_signFactor_mul s, heq, abs_signFactor_mul]
  obtain hle | hlt := le_or_gt p q
  · -- the units are too small: the significand ends in zeros
    obtain ⟨k, rfl⟩ : ∃ k : ℕ, q = p + k := ⟨(q - p).toNat, by omega⟩
    have hM : M = m * 2 ^ k := by
      rw [zpow_add₀ two_ne_zero, zpow_natCast, mul_comm (2 ^ p) _, ← mul_assoc,
        mul_left_inj' (by positivity)] at hvalue
      exact_mod_cast hvalue
    obtain rfl | h0 := Nat.eq_zero_or_pos m
    · obtain rfl : M = 0 := by rw [hM, Nat.zero_mul]
      exact Double.quantity_ofScaled (by decide) hp.1 hp.2 s
    have hword (j : ℕ) := roundScaled_eq_signed (f := binary64) (q := p + k) hm h0.ne'
      (by rw [binary64_minExponent]; exact hlow)
      (by rw [binary64_minExponent, binary64_topField]; push_cast; omega) s j
    have hsame : Double.ofScaled s M p = Double.ofScaled s m (p + k) := by
      have h0 := hword 0
      have hk := hword k
      rw [pow_zero, Nat.mul_one, Nat.cast_zero, sub_zero] at h0
      rw [add_sub_cancel_right, ← hM, ← h0] at hk
      exact congrArg Double.ofWord hk
    rw [hsame, Double.quantity_ofScaled hm hlow hhigh, hvalue]
  · -- the units are greater: the significand is short
    obtain ⟨k, rfl⟩ : ∃ k : ℕ, p = q + k := ⟨(p - q).toNat, by omega⟩
    have hm' : m = M * 2 ^ k := by
      rw [zpow_add₀ two_ne_zero, zpow_natCast, mul_comm (2 ^ q) _, ← mul_assoc,
        mul_left_inj' (by positivity)] at hvalue
      exact_mod_cast hvalue.symm
    have hshort : M ≤ m := hm' ▸ Nat.le_mul_of_pos_right _ (Nat.two_pow_pos k)
    exact Double.quantity_ofScaled (hshort.trans_lt hm) hp.1 hp.2 s

theorem unitsAt_mul (s : Bool) (m : ℕ) (h : low ≤ q) :
    (unitsAt low s m q : ℚ) * 2 ^ low = signFactor s * (m * 2 ^ q) := by
  obtain ⟨k, rfl⟩ : ∃ k : ℕ, q = low + k := ⟨(q - low).toNat, by omega⟩
  have hunits : unitsAt low s m (low + k) = (if s then -1 else 1) * ((m * 2 ^ k : ℕ) : ℤ) := by
    cases s <;> simp [unitsAt]
  rw [hunits, zpow_add₀ two_ne_zero, zpow_natCast]
  cases s <;> simp [signFactor] <;> ring

namespace Double

variable {x y : Double}

/-- The datum of a number whose quantity is a rational number. -/
theorem exists_datum_of_quantity (hx : x.quantity = .rational a) :
    ∃ (s : Bool) (m : ℕ) (q : ℤ), x.datum = .finite s m q ∧ m < 2 ^ 53 ∧
      q ∈ Set.Icc (-1074) 971 ∧ a = signFactor s * (m * 2 ^ q) := by
  unfold quantity at hx
  cases hd : x.datum with
  | nan => rw [hd] at hx; cases hx
  | infinite s => rw [hd] at hx; cases hx
  | finite s m q =>
    rw [hd, Datum.quantity, Quantity.rational.injEq] at hx
    obtain ⟨hm, hlow, hhigh⟩ := bounds_of_unpack (by rw [binary64_topField]; decide) hd
    rw [binary64_minExponent] at hlow hhigh
    rw [binary64_topField] at hhigh
    push_cast at hhigh
    exact ⟨s, m, q, rfl, hm, ⟨hlow, by omega⟩, hx.symm⟩

theorem fits_of_quantity (hx : x.quantity = .rational a) : Fits a := by
  obtain ⟨s, m, q, -, hm, hq, rfl⟩ := exists_datum_of_quantity hx
  exact ⟨s, m, q, hm, hq, rfl⟩

theorem isFinite_iff : x.isFinite = true ↔ ∃ a, x.quantity = .rational a := by
  unfold isFinite quantity
  cases x.datum <;> simp [Datum.quantity]

/-! ### Comparisons -/

theorem lt_iff (hx : x.quantity = .rational a) (hy : y.quantity = .rational b) :
    x.lt y = true ↔ a < b := by
  obtain ⟨s, m, p, hdx, -, -, rfl⟩ := exists_datum_of_quantity hx
  obtain ⟨t, n, q, hdy, -, -, rfl⟩ := exists_datum_of_quantity hy
  have hpos : (0 : ℚ) < 2 ^ min p q := by positivity
  rw [← unitsAt_mul s m (min_le_left p q), ← unitsAt_mul t n (min_le_right p q),
    mul_lt_mul_iff_left₀ hpos, Int.cast_lt]
  simp [lt, hdx, hdy]

theorem le_iff (hx : x.quantity = .rational a) (hy : y.quantity = .rational b) :
    x.le y = true ↔ a ≤ b := by
  rw [le, Bool.or_eq_true, lt_iff hx hy, same_iff, hx, hy, le_iff_lt_or_eq]
  simp

/-- An infinity is on one side of every rational number. -/
theorem le_of_infinite (hx : x.quantity = .infinite s) (hy : y.quantity = .rational b) :
    x.le y = s ∧ y.le x = !s := by
  obtain ⟨t, n, q, hdy, -, -, -⟩ := exists_datum_of_quantity hy
  have hdx : x.datum = .infinite s := by
    unfold quantity at hx
    cases hd : x.datum with
    | infinite t => rw [hd] at hx; cases hx; rfl
    | _ => rw [hd] at hx; cases hx
  have hxy : x.same y = false := by
    rw [Bool.eq_false_iff, Ne, same_iff, hx, hy]
    rintro ⟨⟨⟩, -⟩
  have hyx : y.same x = false := by
    rw [Bool.eq_false_iff, Ne, same_iff, hx, hy]
    rintro ⟨⟨⟩, -⟩
  constructor
  · rw [le, hxy, lt, hdx, hdy, Bool.or_false]
  · rw [le, hyx, lt, hdx, hdy, Bool.or_false]

/-! ### Sums and differences -/

theorem quantity_ofSum (hp : p ∈ Set.Icc (-1074) 971) (hq : q ∈ Set.Icc (-1074) 971)
    (hsum : Fits (signFactor s * (m * 2 ^ p) + signFactor t * (n * 2 ^ q))) :
    (ofSum (.finite s m p) (.finite t n q)).quantity
      = .rational (signFactor s * (m * 2 ^ p) + signFactor t * (n * 2 ^ q)) := by
  have hlow : min p q ∈ Set.Icc (-1074) 971 :=
    ⟨le_min hp.1 hq.1, (min_le_left p q).trans hp.2⟩
  rw [← unitsAt_mul s m (min_le_left p q), ← unitsAt_mul t n (min_le_right p q), ← add_mul,
    ← Int.cast_add] at hsum ⊢
  simp only [ofSum]
  generalize unitsAt (min p q) s m p + unitsAt (min p q) t n q = sum at hsum ⊢
  split
  next h0 =>
    rw [h0, Int.cast_zero, zero_mul]
    refine quantity_of_isZero ?_
    cases s <;> cases t <;> rfl
  next =>
    have hsigned : (sum : ℚ) * 2 ^ min p q
        = signFactor (decide (sum < 0)) * (sum.natAbs * 2 ^ min p q) := by
      by_cases hneg : sum < 0
      · simp [signFactor, hneg, abs_of_neg hneg]
      · simp [signFactor, hneg, abs_of_nonneg (not_lt.mp hneg)]
    rw [hsigned] at hsum ⊢
    exact hsum.quantity_ofScaled hlow

theorem quantity_add (hx : x.quantity = .rational a) (hy : y.quantity = .rational b)
    (hsum : Fits (a + b)) : (x.add y).quantity = .rational (a + b) := by
  obtain ⟨s, m, p, hdx, -, hp, rfl⟩ := exists_datum_of_quantity hx
  obtain ⟨t, n, q, hdy, -, hq, rfl⟩ := exists_datum_of_quantity hy
  rw [add, hdx, hdy]
  exact quantity_ofSum hp hq hsum

theorem signFactor_not (s : Bool) : signFactor (!s) = -signFactor s := by
  cases s <;> simp [signFactor]

theorem quantity_sub (hx : x.quantity = .rational a) (hy : y.quantity = .rational b)
    (hdiff : Fits (a - b)) : (x.sub y).quantity = .rational (a - b) := by
  obtain ⟨s, m, p, hdx, -, hp, rfl⟩ := exists_datum_of_quantity hx
  obtain ⟨t, n, q, hdy, -, hq, rfl⟩ := exists_datum_of_quantity hy
  rw [sub_eq_add_neg, ← neg_mul, ← signFactor_not] at hdiff ⊢
  rw [sub, hdx, hdy]
  exact quantity_ofSum hp hq hdiff

/-! ### Whole numbers -/

/-- A significand in smaller units. -/
theorem scaled_eq_units (m : ℕ) (h : low ≤ q) :
    (m : ℚ) * 2 ^ q = ((m * 2 ^ (q - low).toNat : ℕ) : ℚ) * 2 ^ low := by
  have hunits := unitsAt_mul false m h
  rw [signFactor_false, one_mul] at hunits
  exact hunits.symm

theorem towardZero_signed (s : Bool) (hr : 0 ≤ r) :
    (towardZero (signFactor s * r) : ℚ) = signFactor s * ⌊r⌋ := by
  cases s
  · simp [signFactor, towardZero, hr]
  · simp [signFactor, towardZero_neg hr]

theorem towardZero_intCast (k : ℤ) : towardZero (k : ℚ) = k := by
  simp [towardZero]

theorem quantity_trunc (hx : x.quantity = .rational a) :
    x.trunc.quantity = .rational (towardZero a) := by
  obtain ⟨s, m, q, hd, hm, -, rfl⟩ := exists_datum_of_quantity hx
  have hpos : (0 : ℚ) ≤ m * 2 ^ q := by positivity
  rw [towardZero_signed s hpos, floor_scaled, trunc, hd]
  simp only [Nat.pow_eq]
  split
  next hq =>
    rw [hx, scaled_eq, if_pos hq, Int.cast_natCast]
  next hq =>
    have hshort : m / 2 ^ (-q).toNat < 2 ^ 53 := (Nat.div_le_self _ _).trans_lt hm
    rw [quantity_ofScaled hshort (by decide) (by decide), zpow_zero, mul_one, Int.cast_natCast]

theorem quantity_floor (hx : x.quantity = .rational a) : x.floor.quantity = .rational ⌊a⌋ := by
  obtain ⟨s, m, q, hd, hm, -, rfl⟩ := exists_datum_of_quantity hx
  rw [floor, hd]
  simp only [Nat.pow_eq]
  split
  next hq =>
    have hwhole : signFactor s * ((m : ℚ) * 2 ^ q)
        = ((if s then -(m * 2 ^ q.toNat : ℕ) else (m * 2 ^ q.toNat : ℕ) : ℤ) : ℚ) := by
      rw [scaled_eq, if_pos hq]
      cases s <;> simp [signFactor]
    rw [hx, hwhole, Int.floor_intCast]
  next hq =>
    obtain ⟨d, hd⟩ : ∃ d, 2 ^ (-q).toNat = d := ⟨_, rfl⟩
    have hdpos : 0 < d := hd ▸ Nat.two_pow_pos _
    have hquotient : signFactor s * ((m : ℚ) * 2 ^ q)
        = ((if s then -(m : ℤ) else m : ℤ) : ℚ) / (d : ℚ) := by
      rw [scaled_eq, if_neg hq, hd]
      cases s <;> simp [signFactor, neg_div]
    rw [hd, hquotient, Rat.floor_intCast_div_natCast]
    -- the quotient is no greater than the significand and has its sign
    have hbounds : signFactor s * ((if s then -(m : ℤ) else m) / (d : ℤ)).natAbs
          = (((if s then -(m : ℤ) else m) / (d : ℤ) : ℤ) : ℚ) ∧
        ((if s then -(m : ℤ) else m) / (d : ℤ)).natAbs ≤ m := by
      have hdInt : (0 : ℤ) < d := by exact_mod_cast hdpos
      cases s with
      | false =>
        have hle : m / d ≤ m := Nat.div_le_self m d
        have hcast : (m : ℤ) / (d : ℤ) = ((m / d : ℕ) : ℤ) := rfl
        rw [if_neg Bool.false_ne_true, hcast, Int.natAbs_natCast]
        exact ⟨by rw [signFactor_false, one_mul, Int.cast_natCast], hle⟩
      | true =>
        have hnonpos : -(m : ℤ) / (d : ℤ) ≤ 0 :=
          Int.ediv_nonpos_of_nonpos_of_neg (by omega) hdInt
        have hlow : -(m : ℤ) ≤ -(m : ℤ) / (d : ℤ) := by
          refine Int.le_ediv_of_mul_le hdInt ?_
          nlinarith
        rw [if_pos rfl]
        refine ⟨?_, by omega⟩
        rw [Nat.cast_natAbs, abs_of_nonpos hnonpos]
        simp [signFactor]
    rw [quantity_ofScaled (hbounds.2.trans_lt hm) (by decide) (by decide), zpow_zero, mul_one,
      hbounds.1]

/-- A remainder is a number, less than the divisor and apart from the dividend by a whole multiple
of it.  It is not negative unless the dividend is. -/
theorem exists_quantity_rem (hx : x.quantity = .rational a) (hy : y.quantity = .rational b)
    (hb : 0 < b) :
    ∃ (k : ℤ) (r : ℚ), (x.rem y).quantity = .rational r ∧ a = b * k + r ∧ |r| < b ∧
      (0 ≤ a → 0 ≤ r) := by
  obtain ⟨s, m, p, hdx, hm, hp, rfl⟩ := exists_datum_of_quantity hx
  obtain ⟨t, n, q, hdy, hn, hq, rfl⟩ := exists_datum_of_quantity hy
  have hlow : min p q ∈ Set.Icc (-1074) 971 :=
    ⟨le_min hp.1 hq.1, (min_le_left p q).trans hp.2⟩
  obtain rfl : t = false := by
    by_contra ht
    have hneg : (0 : ℚ) ≤ n * 2 ^ q := by positivity
    rw [Bool.eq_true_of_not_eq_false ht, signFactor, if_pos rfl] at hb
    linarith
  have hn0 : n ≠ 0 := by
    rintro rfl
    simp at hb
  rw [signFactor_false, one_mul, scaled_eq_units n (min_le_right p q)] at hb ⊢
  rw [rem, hdx, hdy, scaled_eq_units m (min_le_left p q)]
  simp only [Nat.pow_eq, if_neg hn0]
  -- one of the two is not scaled, so the remainder is short
  have hshort : m * 2 ^ (p - min p q).toNat % (n * 2 ^ (q - min p q).toNat) < 2 ^ 53 := by
    obtain hle | hle := le_total p q
    · rw [min_eq_left hle, sub_self, Int.toNat_zero, pow_zero, Nat.mul_one]
      exact (Nat.mod_le _ _).trans_lt hm
    · rw [min_eq_right hle, sub_self, Int.toNat_zero, pow_zero, Nat.mul_one]
      exact (Nat.mod_lt _ (Nat.pos_of_ne_zero hn0)).trans hn
  have hpos : 0 < n * 2 ^ (q - min p q).toNat :=
    Nat.mul_pos (Nat.pos_of_ne_zero hn0) (Nat.two_pow_pos _)
  generalize m * 2 ^ (p - min p q).toNat = M at hshort ⊢
  generalize n * 2 ^ (q - min p q).toNat = N at hb hpos hshort ⊢
  obtain ⟨k, hk⟩ : ∃ k, M / N = k := ⟨_, rfl⟩
  have hsplit : (M : ℚ) = N * k + (M % N : ℕ) := by
    rw [← hk]
    exact_mod_cast (Nat.div_add_mod M N).symm
  refine ⟨if s then -k else k, _, quantity_ofScaled hshort hlow.1 hlow.2 s, ?_, ?_, fun ha => ?_⟩
  · rw [hsplit]
    cases s <;> simp [signFactor] <;> ring
  · rw [abs_signFactor_mul]
    have hlt : ((M % N : ℕ) : ℚ) < N := by exact_mod_cast Nat.mod_lt M hpos
    exact mul_lt_mul_of_pos_right hlt (by positivity)
  · cases s with
    | false =>
      rw [signFactor_false, one_mul]
      positivity
    | true =>
      -- only zero is negative and not below zero
      have hzero : (M : ℚ) * 2 ^ min p q = 0 := by
        rw [signFactor, if_pos rfl, neg_one_mul, neg_nonneg] at ha
        exact le_antisymm ha (by positivity)
      have hM : M = 0 := by
        rw [mul_eq_zero_iff_right (by positivity)] at hzero
        exact_mod_cast hzero
      rw [hM, Nat.zero_mod]
      simp

/-- The fractional part of a number that is not negative is a number. -/
theorem fits_fract (hx : x.quantity = .rational a) (ha : 0 ≤ a) : Fits (a - ⌊a⌋) := by
  have hone : (ofNat 1).quantity = .rational ((1 : ℕ) : ℚ) := quantity_ofNat (by decide)
  obtain ⟨k, r, hr, hsplit, hlt, hsign⟩ := exists_quantity_rem hx hone (by norm_num)
  have hfloor : ⌊a⌋ = k := by
    rw [Int.floor_eq_iff]
    have hbounds := abs_lt.mp hlt
    have hnonneg := hsign ha
    push_cast at hsplit hbounds
    constructor <;> linarith [hbounds.2]
  have hfract : a - ⌊a⌋ = r := by
    rw [hfloor]
    push_cast at hsplit
    linarith
  rw [hfract]
  exact fits_of_quantity hr

/-- Whether a whole number that is not negative is even. -/
theorem rem_two_same_zero_iff {i : ℤ} (hx : x.quantity = .rational i) (hi : 0 ≤ i) :
    (x.rem (ofNat 2)).same zero = true ↔ Even i := by
  have htwo : (ofNat 2).quantity = .rational ((2 : ℕ) : ℚ) := quantity_ofNat (by decide)
  obtain ⟨k, r, hr, hsplit, hlt, hsign⟩ := exists_quantity_rem hx htwo (by norm_num)
  have hnonneg := hsign (by exact_mod_cast hi)
  obtain ⟨c, rfl⟩ : ∃ c : ℤ, r = c := ⟨i - 2 * k, by push_cast at hsplit ⊢; linarith⟩
  have hi' : i = 2 * k + c := by exact_mod_cast hsplit
  have hc : 0 ≤ c := by exact_mod_cast hnonneg
  have hc' : |c| < 2 := by exact_mod_cast hlt
  rw [same_iff, hr, quantity_of_isZero rfl, Quantity.rational.injEq, Int.cast_eq_zero,
    and_iff_left nofun, Int.even_iff]
  rw [abs_of_nonneg hc] at hc'
  omega

/-- The remainder of a whole number by a whole number. -/
theorem quantity_remEuclid {i : ℤ} {k : ℕ} (hx : x.quantity = .rational i)
    (hy : y.quantity = .rational k) (hk : 0 < k) (hshort : k < 2 ^ 53) :
    (x.remEuclid y).quantity = .rational ((i % k : ℤ) : ℚ) := by
  obtain ⟨j, r, hr, hi, hlt, -⟩ := exists_quantity_rem hx hy (by exact_mod_cast hk)
  obtain ⟨c, rfl⟩ : ∃ c : ℤ, r = c := ⟨i - k * j, by push_cast; linarith⟩
  have hsplit : i = c + k * j := by
    have hcast : (i : ℚ) = ((c + k * j : ℤ) : ℚ) := by push_cast; linarith
    exact_mod_cast hcast
  have hbound : |c| < k := by exact_mod_cast hlt
  rw [abs_lt] at hbound
  rw [hsplit, Int.add_mul_emod_self_left]
  have hsign : (x.rem y).lt zero = true ↔ c < 0 := by
    rw [lt_iff hr (quantity_of_isZero rfl)]
    exact_mod_cast Iff.rfl
  unfold remEuclid
  simp only [hsign]
  split
  next hneg =>
    have hmod : c % (k : ℤ) = c + k := by
      rw [← Int.add_emod_right, Int.emod_eq_of_lt (by omega) (by omega)]
    obtain ⟨s, m, p, hdr, -, hp, hc⟩ := exists_datum_of_quantity hr
    obtain ⟨t, n, q, hdy, -, hq, hky⟩ := exists_datum_of_quantity hy
    have habs : (k : ℚ) = signFactor false * (n * 2 ^ q) := by
      rw [signFactor_false, one_mul, ← abs_signFactor_mul t, ← hky,
        Nat.abs_cast]
    have hsum : ((c + k : ℤ) : ℚ)
        = signFactor s * (m * 2 ^ p) + signFactor false * (n * 2 ^ q) := by
      rw [← hc, ← habs]
      push_cast
      rfl
    have hfits : Fits ((c + k : ℤ) : ℚ) := fits_intCast (by omega)
    rw [hsum] at hfits
    rw [hmod, hdr, hdy, hsum]
    exact quantity_ofSum hp hq hfits
  next hnonneg =>
    rw [hr, Int.emod_eq_of_lt (by omega) hbound.2]

/-- A number that is a word is converted to it. -/
theorem toWord_of_quantity {width : ℕ} (hx : x.quantity = .rational m) (hm : m < 2 ^ width) :
    x.toWord width = m := by
  have hinteger : x.truncate.getD 0 = m := by
    rw [truncate_getD, hx, Quantity.integerPart]
    exact_mod_cast towardZero_intCast m
  obtain ⟨s, n, q, hd, -, -, -⟩ := exists_datum_of_quantity hx
  rw [toWord, hd]
  simp only [hinteger, Int.toNat_natCast, Nat.pow_eq]
  exact Nat.min_eq_left (by omega)

end Double

end ModuleHost
