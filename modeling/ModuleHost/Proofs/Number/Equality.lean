/-
Equal numbers.

Two numbers are equal when they stand for the same rational number or the same infinity.  Zero is the
only one that has two words, and both have the same text.

* `FloatFormat.Canonical.eq_of_value_eq`, `FloatFormat.eq_of_unpack_infinite` — different words
  stand for different numbers;
* `Double.same_iff` — numeric equality by quantities;
* `Double.eq_or_zeros_of_same`, `Double.display_of_isZero` — what equal numbers have in common.
-/
import Mathlib
import ModuleHost.Proofs.Number.Displayed

namespace ModuleHost

/-! ### Words -/

namespace FloatFormat

open Decimal (Interval)
open Decimal.Interval

variable {f : FloatFormat} {s : Bool} {m m' w w' : ℕ} {q q' : ℤ}

/-- A number rounds to itself. -/
theorem holds_value (hm : 0 < m) : (Interval.around f m q).Holds (m * 2 ^ q) := by
  have hgap := (gapBelow_bounds (f := f) (m := m) (q := q)).1
  have hpos : (0 : ℚ) < 2 ^ q := by positivity
  refine holds_of_lt ?_ ?_
  · rw [low_around hm]
    exact mul_lt_mul_of_pos_right (by linarith) hpos
  · rw [high_around]
    exact mul_lt_mul_of_pos_right (by linarith) hpos

/-- No two words have the same size, zeros apart. -/
theorem Canonical.eq_of_value_eq (hm : f.Canonical m q) (hm' : f.Canonical m' q')
    (h : (m : ℚ) * 2 ^ q = m' * 2 ^ q') : m = m' ∧ q = q' :=
  hm.eq_of_holds hm' (holds_value hm.pos) (h ▸ holds_value hm'.pos)

theorem fields_of_unpack_infinite (hw : f.unpack w = .infinite s) :
    f.negative w = s ∧ f.field w = f.topField ∧ f.fraction w = 0 := by
  unfold unpack at hw
  split at hw
  · rename_i hfield
    split at hw
    · rename_i hfraction
      cases hw
      exact ⟨rfl, hfield, hfraction⟩
    · cases hw
  · split at hw <;> cases hw

/-- An infinite word is known by its sign. -/
theorem eq_of_unpack_infinite (hw : w < 2 * f.signWord) (hw' : w' < 2 * f.signWord)
    (h : f.unpack w = .infinite s) (h' : f.unpack w' = .infinite s) : w = w' := by
  obtain ⟨hs, hfield, hfraction⟩ := fields_of_unpack_infinite h
  obtain ⟨hs', hfield', hfraction'⟩ := fields_of_unpack_infinite h'
  rw [eq_signed hw, eq_signed hw', hs, hs', hfield, hfield', hfraction, hfraction']

end FloatFormat

/-! ### Numbers -/

namespace Double

open FloatFormat

variable {x y : Double} {s t : Bool} {m n : ℕ} {q p : ℤ}

theorem isNaN_iff : x.isNaN = true ↔ x.quantity = .nan := by
  rw [isNaN, decide_eq_true_iff, quantity]
  cases x.datum with
  | nan => exact iff_of_true rfl rfl
  | infinite | finite => exact iff_of_false Datum.noConfusion Quantity.noConfusion

theorem isZero_iff : x.isZero = true ↔ ∃ s q, x.datum = .finite s 0 q := by
  unfold isZero
  split
  · rename_i s q hx
    exact iff_of_true rfl ⟨s, q, hx⟩
  · rename_i hx
    refine iff_of_false Bool.false_ne_true ?_
    rintro ⟨s, q, hd⟩
    exact hx s q hd

theorem display_of_isZero (hx : x.isZero = true) : x.display = "0" := by
  obtain ⟨s, q, hd⟩ := isZero_iff.mp hx
  rw [display, hd]
  rfl

theorem scaled_eq_zero_iff : signFactor s * (m * 2 ^ q) = 0 ↔ m = 0 := by
  cases s <;> simp [signFactor, zpow_ne_zero]

theorem quantity_of_isZero (hx : x.isZero = true) : x.quantity = .rational 0 := by
  obtain ⟨s, q, hd⟩ := isZero_iff.mp hx
  rw [quantity, hd, Datum.quantity, scaled_eq_zero_iff.mpr rfl]

theorem eq_of_datum_infinite (hx : x.datum = .infinite s) (hy : y.datum = .infinite s) :
    x = y := by
  have hlt (z : Double) : z.bits.toNat < 2 * binary64.signWord := z.bits.toNat_lt
  have hbits := eq_of_unpack_infinite (hlt x) (hlt y) hx hy
  cases x
  cases y
  exact congrArg mk (UInt64.toNat_inj.mp hbits)

/-- Only the zeros are different words for one rational number. -/
theorem eq_or_zeros_of_finite (hx : x.datum = .finite s m q) (hy : y.datum = .finite t n p)
    (h : signFactor s * (m * 2 ^ q) = signFactor t * (n * 2 ^ p)) :
    x = y ∨ x.isZero = true ∧ y.isZero = true := by
  have hzero : m = 0 ↔ n = 0 := by
    rw [← scaled_eq_zero_iff (s := s) (q := q), h, scaled_eq_zero_iff]
  by_cases hm : m = 0
  · obtain rfl := hzero.mp hm
    subst hm
    exact .inr ⟨isZero_iff.mpr ⟨s, q, hx⟩, isZero_iff.mpr ⟨t, p, hy⟩⟩
  · have hcx := canonical_of_datum hx hm
    have hcy := canonical_of_datum hy (mt hzero.mpr hm)
    have hpos {k : ℕ} (hk : 0 < k) (e : ℤ) : (0 : ℚ) < k * 2 ^ e := by positivity
    obtain ⟨rfl, hvalue⟩ := signFactor_mul_inj (hpos hcx.pos q) (hpos hcy.pos p) h
    obtain ⟨rfl, rfl⟩ := hcx.eq_of_value_eq hcy hvalue
    exact .inl (eq_of_datum_eq hx hy)

theorem eq_or_zeros_of_quantity_eq (h : x.quantity = y.quantity) (hnan : x.quantity ≠ .nan) :
    x = y ∨ x.isZero = true ∧ y.isZero = true := by
  unfold quantity at h hnan
  cases hx : x.datum <;> cases hy : y.datum <;> rw [hx] at h hnan <;> rw [hy] at h
  case infinite.infinite s t =>
    cases h
    exact .inl (eq_of_datum_infinite hx hy)
  case finite.finite s m q t n p =>
    injection h with h
    exact eq_or_zeros_of_finite hx hy h
  case nan.nan | nan.infinite | nan.finite => exact absurd rfl hnan
  all_goals cases h

theorem eq_or_zeros_of_same (h : x.same y = true) : x = y ∨ x.isZero = true ∧ y.isZero = true := by
  simp only [same, Bool.and_eq_true, Bool.or_eq_true, decide_eq_true_eq] at h
  obtain ⟨-, hbits | hzeros⟩ := h
  · exact .inl (congrArg mk hbits)
  · exact .inr hzeros

/-- Numbers are the same when they stand for the same number or infinity. -/
theorem same_iff : x.same y = true ↔ x.quantity = y.quantity ∧ x.quantity ≠ .nan := by
  constructor
  · intro h
    have hnan : x.quantity ≠ .nan := by
      rw [ne_eq, ← isNaN_iff]
      intro hx
      simp [same, hx] at h
    obtain rfl | ⟨hx, hy⟩ := eq_or_zeros_of_same h
    · exact ⟨rfl, hnan⟩
    · exact ⟨(quantity_of_isZero hx).trans (quantity_of_isZero hy).symm, hnan⟩
  · rintro ⟨h, hnan⟩
    have hx : x.isNaN = false := Bool.eq_false_iff.mpr (mt isNaN_iff.mp hnan)
    have hy : y.isNaN = false := Bool.eq_false_iff.mpr (mt isNaN_iff.mp (h ▸ hnan))
    obtain rfl | ⟨hzero, hzero'⟩ := eq_or_zeros_of_quantity_eq h hnan
    · simp [same, hx]
    · simp [same, hx, hy, hzero, hzero']

end Double

end ModuleHost
