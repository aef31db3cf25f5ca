/-
The rational numbers that round to a number.

A number stands for the rational numbers that are nearer to it than to the next numbers on either
side; those halfway belong to the number with the even significand.  Next to a power of two the
numbers below are twice as dense.  No rational number rounds to two numbers.

* `Decimal.Interval.Holds` — a rational number lies in an interval;
* `Decimal.Interval.holds_around_iff` — the interval of a number, as rational numbers;
* `FloatFormat.Canonical` — the significands and exponents that words have;
* `FloatFormat.Apart` — a number ends before a larger one begins;
* `FloatFormat.Canonical.eq_of_holds` — the intervals of numbers are apart;
* `FloatFormat.eq_of_unpack_eq` — a finite word is known by its significand and exponent.
-/
import Mathlib
import ModuleHost.Number.Shortest
import ModuleHost.Proofs.Number.Quantity

namespace ModuleHost

/-- A power with a whole exponent is a quotient of powers. -/
theorem zpow_eq_div {b : ℚ} (hb : b ≠ 0) (q : ℤ) : b ^ q = b ^ q.toNat / b ^ (-q).toNat := by
  conv_lhs => rw [← Int.toNat_sub_toNat_neg q]
  rw [zpow_sub₀ hb, zpow_natCast, zpow_natCast]

/-! ### Intervals -/

namespace Decimal.Interval

variable {i : Interval} {f : FloatFormat} {m : ℕ} {q : ℤ} {r : ℚ}

/-- A rational number lies in the interval, the ends included when it is closed. -/
def Holds (i : Interval) (r : ℚ) : Prop :=
  if i.closed then i.low / i.unit ≤ r ∧ r ≤ i.high / i.unit
  else i.low / i.unit < r ∧ r < i.high / i.unit

/-- How far the numbers below a number are away from it, halved, in units of its last bit. -/
def gapBelow (f : FloatFormat) (m : ℕ) (q : ℤ) : ℚ :=
  if m = 2 ^ f.fractionBits ∧ f.minExponent < q then 1 / 4 else 1 / 2

theorem gapBelow_bounds : 1 / 4 ≤ gapBelow f m q ∧ gapBelow f m q ≤ 1 / 2 := by
  unfold gapBelow
  split <;> norm_num

theorem quarters_eq (a : ℕ) (q : ℤ) :
    ((a * 2 ^ (q - 2).toNat : ℕ) : ℚ) / ((2 ^ (2 - q).toNat : ℕ) : ℚ) = a / 4 * 2 ^ q := by
  have hscale : (2 : ℚ) ^ (q - 2) = 2 ^ (q - 2).toNat / 2 ^ (2 - q).toNat := by
    rw [zpow_eq_div two_ne_zero, neg_sub]
  push_cast
  rw [mul_div_assoc, ← hscale, zpow_sub₀ two_ne_zero]
  norm_num
  ring

theorem value_around (f : FloatFormat) (m : ℕ) (q : ℤ) :
    ((around f m q).value : ℚ) / (around f m q).unit = m * 2 ^ q := by
  refine (quarters_eq (4 * m) q).trans ?_
  push_cast
  ring

theorem high_around (f : FloatFormat) (m : ℕ) (q : ℤ) :
    ((around f m q).high : ℚ) / (around f m q).unit = (m + 1 / 2) * 2 ^ q := by
  refine (quarters_eq (4 * m + 2) q).trans ?_
  push_cast
  ring

theorem low_around (hm : 0 < m) :
    ((around f m q).low : ℚ) / (around f m q).unit = (m - gapBelow f m q) * 2 ^ q := by
  refine (quarters_eq _ q).trans ?_
  unfold gapBelow
  simp only [Nat.pow_eq, decide_eq_true_eq]
  split
  · rw [Nat.cast_sub (by omega)]
    push_cast
    ring
  · rw [Nat.cast_sub (by omega)]
    push_cast
    ring

/-- The rational numbers that round to a number. -/
theorem holds_around_iff (hm : 0 < m) : (around f m q).Holds r ↔
    if m % 2 = 0 then (m - gapBelow f m q) * 2 ^ q ≤ r ∧ r ≤ (m + 1 / 2) * 2 ^ q
    else (m - gapBelow f m q) * 2 ^ q < r ∧ r < (m + 1 / 2) * 2 ^ q := by
  rw [Holds, low_around hm, high_around]
  simp only [around, decide_eq_true_eq]

theorem Holds.ends (h : (around f m q).Holds r) (hm : 0 < m) :
    (m - gapBelow f m q) * 2 ^ q ≤ r ∧ r ≤ (m + 1 / 2) * 2 ^ q := by
  rw [holds_around_iff hm] at h
  split at h
  · exact h
  · exact ⟨h.1.le, h.2.le⟩

/-- The ends do not belong to a number with an odd significand. -/
theorem Holds.inside (h : (around f m q).Holds r) (hm : 0 < m) (hodd : m % 2 = 1) :
    (m - gapBelow f m q) * 2 ^ q < r ∧ r < (m + 1 / 2) * 2 ^ q := by
  rwa [holds_around_iff hm, if_neg (by omega)] at h

theorem holds_of_lt (hlow : i.low / i.unit < r) (hhigh : r < i.high / i.unit) : i.Holds r := by
  unfold Holds
  split
  · exact ⟨hlow.le, hhigh.le⟩
  · exact ⟨hlow, hhigh⟩

end Decimal.Interval

/-! ### The intervals are apart -/

namespace FloatFormat

open Decimal (Interval)
open Decimal.Interval

variable {f : FloatFormat} {s : Bool} {m m' w w' : ℕ} {q q' : ℤ} {r : ℚ}

/-- The significands and exponents that words have: all bits are used, except with the least
exponent. -/
structure Canonical (f : FloatFormat) (m : ℕ) (q : ℤ) : Prop where
  pos : 0 < m
  lt : m < 2 ^ (f.fractionBits + 1)
  le : f.minExponent ≤ q
  normal : 2 ^ f.fractionBits ≤ m ∨ q = f.minExponent

/-- Numbers in the order of their size. -/
def Below (m : ℕ) (q : ℤ) (m' : ℕ) (q' : ℤ) : Prop := q < q' ∨ q = q' ∧ m < m'

/-- A number ends before a larger one begins; if they meet, then one of the two is odd. -/
structure Apart (f : FloatFormat) (m : ℕ) (q : ℤ) (m' : ℕ) (q' : ℤ) : Prop where
  ends : (m + 1 / 2) * (2 : ℚ) ^ q ≤ (m' - gapBelow f m' q') * 2 ^ q'
  odd : (m + 1 / 2) * (2 : ℚ) ^ q = (m' - gapBelow f m' q') * 2 ^ q' → m % 2 = 1 ∨ m' % 2 = 1

/-- With the same exponent numbers meet only if they are next to each other. -/
theorem apart_of_lt (hlt : m < m') (q : ℤ) : Apart f m q m' q := by
  have hpos : (0 : ℚ) < 2 ^ q := by positivity
  have hstep : (m : ℚ) + 1 ≤ m' := by exact_mod_cast hlt
  have hgap := (gapBelow_bounds (f := f) (m := m') (q := q)).2
  refine ⟨mul_le_mul_of_nonneg_right (by linarith) hpos.le, fun heq => ?_⟩
  have hmeet := mul_right_cancel₀ hpos.ne' heq
  have hnext : (m' : ℚ) ≤ m + 1 := by linarith
  have hnext : m' ≤ m + 1 := by exact_mod_cast hnext
  omega

/-- With a larger exponent a number uses all its bits, and it meets a number with a smaller exponent
only if that is the one before a power of two, all of whose bits are set. -/
theorem Canonical.apart_of_lt (hm : f.Canonical m q) (hm' : f.Canonical m' q') (hq : q < q') :
    Apart f m q m' q' := by
  have hpos : (0 : ℚ) < 2 ^ q := by positivity
  have hleast := hm.le
  have hnormal : 2 ^ f.fractionBits ≤ m' := hm'.normal.resolve_right (by omega)
  have hdouble : 2 * (2 : ℚ) ^ q ≤ 2 ^ q' := by
    rw [← zpow_one_add₀ two_ne_zero]
    exact zpow_le_zpow_right₀ one_le_two (by omega)
  have htop : (m : ℚ) + 1 ≤ 2 * 2 ^ f.fractionBits := by
    have hlt := hm.lt
    rw [pow_succ'] at hlt
    exact_mod_cast hlt
  -- at a power of two the gap below is narrow, and above it there is room for the wide one
  have hgap : (2 : ℚ) * 2 ^ f.fractionBits - 1 / 2 ≤ 2 * (m' - gapBelow f m' q') := by
    rcases hnormal.eq_or_lt with heq | hlt
    · rw [gapBelow, if_pos ⟨heq.symm, hleast.trans_lt hq⟩, ← heq]
      push_cast
      linarith
    · have hstep : (2 : ℚ) ^ f.fractionBits + 1 ≤ m' := by exact_mod_cast hlt
      have hhalf := (gapBelow_bounds (f := f) (m := m') (q := q')).2
      linarith
  have hdense : 2 * (m' - gapBelow f m' q') * (2 : ℚ) ^ q ≤ (m' - gapBelow f m' q') * 2 ^ q' := by
    have hpow : (1 : ℚ) ≤ 2 ^ f.fractionBits := one_le_pow₀ one_le_two
    have hone : (0 : ℚ) ≤ m' - gapBelow f m' q' := by linarith
    calc 2 * (m' - gapBelow f m' q') * (2 : ℚ) ^ q
        = (m' - gapBelow f m' q') * (2 * 2 ^ q) := by ring
      _ ≤ (m' - gapBelow f m' q') * 2 ^ q' := mul_le_mul_of_nonneg_left hdouble hone
  refine ⟨(mul_le_mul_of_nonneg_right (by linarith) hpos.le).trans hdense, fun heq => .inl ?_⟩
  have hmeet : 2 * (m' - gapBelow f m' q') ≤ (m : ℚ) + 1 / 2 :=
    le_of_mul_le_mul_right (hdense.trans heq.ge) hpos
  have hlast : (2 : ℚ) * 2 ^ f.fractionBits ≤ m + 1 := by linarith
  have hlast : 2 * 2 ^ f.fractionBits ≤ m + 1 := by exact_mod_cast hlast
  have hlt := hm.lt
  rw [pow_succ'] at hlt
  omega

theorem Canonical.not_holds_of_below (hm : f.Canonical m q) (hm' : f.Canonical m' q')
    (hbelow : Below m q m' q') (hr : (around f m q).Holds r) (hr' : (around f m' q').Holds r) :
    False := by
  obtain ⟨hle, hmeet⟩ : Apart f m q m' q' := by
    rcases hbelow with hq | ⟨rfl, hlt⟩
    · exact hm.apart_of_lt hm' hq
    · exact FloatFormat.apart_of_lt hlt q
  have hhigh := (hr.ends hm.pos).2
  have hlow := (hr'.ends hm'.pos).1
  -- the rational number is where both end, which does not belong to an odd one
  rcases hmeet (by linarith) with hodd | hodd
  · have hinside := (hr.inside hm.pos hodd).2
    linarith
  · have hinside := (hr'.inside hm'.pos hodd).1
    linarith

/-- No rational number rounds to two numbers. -/
theorem Canonical.eq_of_holds (hm : f.Canonical m q) (hm' : f.Canonical m' q')
    (hr : (around f m q).Holds r) (hr' : (around f m' q').Holds r) : m = m' ∧ q = q' := by
  have hbelow : ¬ Below m q m' q' := fun h => hm.not_holds_of_below hm' h hr hr'
  have habove : ¬ Below m' q' m q := fun h => hm'.not_holds_of_below hm h hr' hr
  unfold Below at hbelow habove
  omega

/-! ### Words -/

/-- The fields of a finite word, without and with a leading bit. -/
theorem fields_of_unpack (hw : f.unpack w = .finite s m q) : f.negative w = s ∧
    (f.field w = 0 ∧ f.fraction w = m ∧ f.minExponent = q ∨
      f.field w ≠ 0 ∧ 2 ^ f.fractionBits + f.fraction w = m ∧
        f.minExponent + f.field w - 1 = q) := by
  unfold unpack at hw
  split at hw
  · split at hw <;> cases hw
  · split at hw
    · rename_i hfield
      cases hw
      exact ⟨rfl, .inl ⟨hfield, rfl, rfl⟩⟩
    · rename_i hfield
      cases hw
      exact ⟨rfl, .inr ⟨hfield, rfl, rfl⟩⟩

theorem canonical_of_unpack (hf : 1 < f.topField) (hw : f.unpack w = .finite s m q) (h0 : m ≠ 0) :
    f.Canonical m q := by
  obtain ⟨hlt, hle, -⟩ := bounds_of_unpack hf hw
  refine ⟨Nat.pos_of_ne_zero h0, hlt, hle, ?_⟩
  obtain ⟨-, ⟨-, -, hq⟩ | ⟨-, hm, -⟩⟩ := fields_of_unpack hw
  · exact .inr hq.symm
  · exact .inl (by omega)

/-- A word is its sign, its exponent field and its fraction field. -/
theorem eq_signed (hw : w < 2 * f.signWord) :
    w = f.signed (f.negative w) (2 ^ f.fractionBits * f.field w + f.fraction w) := by
  have hpos : 0 < f.signWord := Nat.two_pow_pos _
  have hfields : w % f.signWord = 2 ^ f.fractionBits * f.field w + f.fraction w := by
    rw [signWord_eq, Nat.mul_comm, Nat.mod_mul, Nat.add_comm]
    rfl
  have hsign : w / f.signWord < 2 := Nat.div_lt_of_lt_mul (by rwa [Nat.mul_comm] at hw)
  have hsplit := Nat.div_add_mod w f.signWord
  rw [← hfields, signed, negative]
  rcases Nat.lt_succ_iff_lt_or_eq.mp hsign with hzero | hone
  · rw [Nat.lt_one_iff.mp hzero] at hsplit ⊢
    simpa using hsplit.symm
  · rw [hone] at hsplit ⊢
    simpa using hsplit.symm

/-- A finite word is known by its sign, its significand and its exponent. -/
theorem eq_of_unpack_eq (hw : w < 2 * f.signWord) (hw' : w' < 2 * f.signWord)
    (h : f.unpack w = .finite s m q) (h' : f.unpack w' = .finite s m q) : w = w' := by
  have hfraction : f.fraction w < 2 ^ f.fractionBits := Nat.mod_lt _ (Nat.two_pow_pos _)
  have hfraction' : f.fraction w' < 2 ^ f.fractionBits := Nat.mod_lt _ (Nat.two_pow_pos _)
  obtain ⟨rfl, hfields⟩ := fields_of_unpack h
  obtain ⟨hs, hfields'⟩ := fields_of_unpack h'
  have hsame : f.field w = f.field w' ∧ f.fraction w = f.fraction w' := by omega
  rw [eq_signed hw, eq_signed hw', hs, hsame.1, hsame.2]

end FloatFormat

end ModuleHost
