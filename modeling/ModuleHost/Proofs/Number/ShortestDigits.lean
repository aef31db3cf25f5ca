/-
The digits of a number read back.

The search for the shortest decimal tries ever finer grids, and each time only the two grid points
around the number.  With seventeen digits the grid is finer than the interval of the number is wide,
so the search ends with a decimal that rounds to the number, and its digits are those of that
decimal with nothing in vain.

* `Decimal.value_ofGrid`, `Decimal.normal_ofGrid` — the decimal of a grid point;
* `Decimal.Interval.contains_iff` — membership in an interval, as rational numbers;
* `Decimal.zpow_logQuotient_le` — the place of the first digit;
* `Decimal.contains_neighbour` — seventeen digits are enough;
* `Decimal.normal_shortest`, `Decimal.holds_shortest` — the decimal that is found.
-/
import Mathlib
import ModuleHost.Proofs.Number.LaidOut
import ModuleHost.Proofs.Number.Rounding

namespace ModuleHost

namespace Decimal

/-! ### Grid points -/

section Grid

variable {ds : List ℕ} {n point : ℕ}

theorem digitsOf_eq (hn : 0 < n) : digitsOf n = (Nat.digits 10 n).reverse := by
  have hread : Digits.read? (Nat.toDigits 10 n) = some (Nat.digits 10 n).reverse := by
    rw [Digits.toDigits_eq hn, Digits.read?_digitChars (Digits.proper_digits hn)]
  unfold Digits.read? at hread
  split at hread
  · exact Option.some.inj hread
  · cases hread

theorem dropTrailingZeros_eq (ds : List ℕ) : dropTrailingZeros ds = ds.rdropWhile (· = 0) := rfl

/-- What is dropped are zeros. -/
theorem exists_dropTrailingZeros (ds : List ℕ) :
    ∃ t, ds = dropTrailingZeros ds ++ List.replicate t 0 := by
  have hzeros : ∀ a ∈ ds.rtakeWhile (· = 0), a = 0 := fun a ha => by
    simpa using List.mem_rtakeWhile_imp ha
  refine ⟨(ds.rtakeWhile (· = 0)).length, ?_⟩
  rw [← List.eq_replicate_iff.mpr ⟨rfl, hzeros⟩, dropTrailingZeros_eq,
    List.rdropWhile_append_rtakeWhile]

theorem getLast?_dropTrailingZeros (ds : List ℕ) : (dropTrailingZeros ds).getLast? ≠ some 0 := by
  by_cases hne : dropTrailingZeros ds = []
  · rw [hne]
    exact nofun
  · rw [List.getLast?_eq_some_getLast hne]
    have hlast := List.rdropWhile_last_not (fun a : ℕ => decide (a = 0)) ds hne
    exact fun h => hlast (decide_eq_true (Option.some.inj h))

/-- Digits that begin with another digit than zero do so without the zeros at their end. -/
theorem head?_dropTrailingZeros (hne : ds ≠ []) (hfirst : ds.head? ≠ some 0) :
    dropTrailingZeros ds ≠ [] ∧ (dropTrailingZeros ds).head? ≠ some 0 := by
  obtain ⟨t, hds⟩ := exists_dropTrailingZeros ds
  have hsome : dropTrailingZeros ds ≠ [] := by
    intro hnil
    rw [hnil, List.nil_append] at hds
    obtain ⟨a, rest, rfl⟩ := List.exists_cons_of_ne_nil hne
    have ha : a ∈ List.replicate t 0 := hds ▸ List.mem_cons_self
    exact hfirst (congrArg some (List.eq_of_mem_replicate ha))
  rw [hds, List.head?_append_of_ne_nil _ hsome] at hfirst
  exact ⟨hsome, hfirst⟩

/-- Zeros at the end may be dropped, since the exponent says where the first digit is. -/
theorem value_ofGrid (hp : 0 < point) (place : ℤ) :
    (ofGrid point place).value = point * 10 ^ place := by
  obtain ⟨t, ht⟩ := exists_dropTrailingZeros (digitsOf point)
  have hlength := congrArg List.length ht
  rw [List.length_append, List.length_replicate] at hlength
  have hvalue : point = Digits.value (dropTrailingZeros (digitsOf point)) * 10 ^ t := by
    rw [← Digits.value_append_zeros, ← ht, digitsOf_eq hp, Digits.value_digits]
  have hexponent : place + (digitsOf point).length - 1
      - ((dropTrailingZeros (digitsOf point)).length - 1) = t + place := by
    rw [hlength]
    push_cast
    ring
  rw [value, ofGrid]
  simp only [hexponent]
  rw [zpow_add₀ (by norm_num), zpow_natCast, ← mul_assoc]
  congr 1
  exact_mod_cast hvalue.symm

theorem normal_ofGrid (hp : 0 < point) (place : ℤ) : (ofGrid point place).Normal := by
  obtain ⟨t, ht⟩ := exists_dropTrailingZeros (digitsOf point)
  have hproper : Digits.Proper (digitsOf point) := digitsOf_eq hp ▸ Digits.proper_digits hp
  have hhead : (digitsOf point).head? ≠ some 0 := digitsOf_eq hp ▸ Digits.head?_digits hp
  obtain ⟨hne, hfirst⟩ := head?_dropTrailingZeros hproper.1 hhead
  have hdigits : ∀ a ∈ dropTrailingZeros (digitsOf point), a < 10 := fun a ha =>
    hproper.2 a (ht ▸ List.mem_append_left _ ha)
  exact ⟨⟨hne, hdigits⟩, hfirst, getLast?_dropTrailingZeros _⟩

end Grid

/-! ### Intervals and grids -/

namespace Interval

variable {i : Interval} {a k point tries : ℕ} {place top : ℤ}

theorem grid_eq (hunit : 0 < i.unit) (point : ℕ) (place : ℤ) :
    (point : ℚ) * 10 ^ place = ((point * i.unit * 10 ^ place.toNat : ℕ) : ℚ)
      / ((i.unit * 10 ^ (-place).toNat : ℕ) : ℚ) := by
  have hpos : (0 : ℚ) < i.unit := Nat.cast_pos.mpr hunit
  rw [zpow_eq_div (by norm_num)]
  push_cast
  field_simp

theorem end_eq (a : ℕ) (place : ℤ) : (a : ℚ) / i.unit = ((a * 10 ^ (-place).toNat : ℕ) : ℚ)
      / ((i.unit * 10 ^ (-place).toNat : ℕ) : ℚ) := by
  push_cast
  rw [mul_div_mul_right _ _ (by positivity)]

theorem le_grid_iff (hunit : 0 < i.unit) : (a : ℚ) / i.unit ≤ point * 10 ^ place ↔
    a * 10 ^ (-place).toNat ≤ point * i.unit * 10 ^ place.toNat := by
  have hpos : (0 : ℚ) < ((i.unit * 10 ^ (-place).toNat : ℕ) : ℚ) := by positivity
  rw [grid_eq hunit, end_eq a place, div_le_div_iff_of_pos_right hpos, Nat.cast_le]

theorem grid_le_iff (hunit : 0 < i.unit) : (point : ℚ) * 10 ^ place ≤ a / i.unit ↔
    point * i.unit * 10 ^ place.toNat ≤ a * 10 ^ (-place).toNat := by
  have hpos : (0 : ℚ) < ((i.unit * 10 ^ (-place).toNat : ℕ) : ℚ) := by positivity
  rw [grid_eq hunit, end_eq a place, div_le_div_iff_of_pos_right hpos, Nat.cast_le]

theorem lt_grid_iff (hunit : 0 < i.unit) : (a : ℚ) / i.unit < point * 10 ^ place ↔
    a * 10 ^ (-place).toNat < point * i.unit * 10 ^ place.toNat := by
  rw [← not_le, grid_le_iff hunit, not_le]

theorem grid_lt_iff (hunit : 0 < i.unit) : (point : ℚ) * 10 ^ place < a / i.unit ↔
    point * i.unit * 10 ^ place.toNat < a * 10 ^ (-place).toNat := by
  rw [← not_le, le_grid_iff hunit, not_le]

/-- Membership is that of the rational number. -/
theorem contains_iff (hunit : 0 < i.unit) :
    i.contains point place = true ↔ i.Holds (point * 10 ^ place) := by
  unfold contains Holds
  simp only [Nat.pow_eq]
  split
  · rw [le_grid_iff hunit, grid_le_iff hunit, decide_eq_true_iff]
  · rw [lt_grid_iff hunit, grid_lt_iff hunit, decide_eq_true_iff]

/-- The number is between two neighbours on the grid. -/
theorem floorAt_bounds (hunit : 0 < i.unit) (place : ℤ) :
    (i.floorAt place : ℚ) * 10 ^ place ≤ i.value / i.unit ∧
      (i.value : ℚ) / i.unit < (i.floorAt place + 1 : ℕ) * 10 ^ place := by
  have hpos : 0 < i.unit * 10 ^ place.toNat := by positivity
  rw [grid_le_iff hunit, lt_grid_iff hunit, Nat.mul_assoc, Nat.mul_assoc, floorAt, Nat.pow_eq,
    Nat.pow_eq]
  exact ⟨Nat.div_mul_le_self _ _, Nat.lt_mul_of_div_lt (Nat.lt_succ_self _) hpos⟩

/-! ### The search -/

theorem contains_of_pick? (h : i.pick? place = some point) : i.contains point place = true := by
  unfold pick? at h
  dsimp only at h
  split at h
  · obtain rfl := Option.some.inj h
    split <;> assumption
  · obtain rfl := Option.some.inj h
    assumption
  · obtain rfl := Option.some.inj h
    assumption
  · cases h

theorem exists_pick? (h : i.contains (i.floorAt place) place = true ∨
    i.contains (i.floorAt place + 1) place = true) : ∃ point, i.pick? place = some point := by
  unfold pick?
  dsimp only
  split
  · exact ⟨_, rfl⟩
  · exact ⟨_, rfl⟩
  · exact ⟨_, rfl⟩
  · rename_i hbelow habove
    rw [hbelow, habove] at h
    simp at h

/-- The search ends with a grid point in the interval if a grid that is tried has one. -/
theorem exists_search {k' : ℕ} (hk : k ≤ k') (hk' : k' < k + tries)
    (hpick : ∃ point, i.pick? (top - k') = some point) :
    ∃ point place, i.search top tries k = ofGrid point place ∧ i.contains point place = true := by
  induction tries generalizing k with
  | zero => omega
  | succ tries ih =>
    unfold search
    split
    · rename_i point hpoint
      exact ⟨point, top - k, rfl, contains_of_pick? hpoint⟩
    · rename_i hnone
      have hne : k ≠ k' := by
        rintro rfl
        obtain ⟨point, hpoint⟩ := hpick
        rw [hnone] at hpoint
        cases hpoint
      exact ih (by omega) (by omega)

end Interval

/-! ### The place of the first digit -/

theorem length_toDigits {n : ℕ} (hn : 0 < n) :
    10 ^ ((Nat.toDigits 10 n).length - 1) ≤ n ∧ n < 10 ^ (Nat.toDigits 10 n).length := by
  have hlength : (Nat.toDigits 10 n).length = (Nat.digits 10 n).length := by
    rw [Digits.toDigits_eq hn, digitChars, List.length_map, List.length_reverse]
  have hle := Nat.base_pow_length_digits_le 10 n (by decide) hn.ne'
  have hpos : 0 < (Nat.digits 10 n).length :=
    List.length_pos_iff.mpr (Nat.digits_ne_nil_iff_ne_zero.mpr hn.ne')
  obtain ⟨k, hk⟩ := Nat.exists_eq_add_one_of_ne_zero hpos.ne'
  rw [hlength]
  refine ⟨?_, Nat.lt_base_pow_length_digits (by decide)⟩
  rw [hk, pow_succ'] at hle
  rw [hk, Nat.add_sub_cancel]
  exact Nat.le_of_mul_le_mul_left hle (by decide)

/-- A number is as large as the place of its first digit, at least. -/
theorem zpow_logQuotient_le {n d : ℕ} (hn : 0 < n) (hd : 0 < d) :
    (10 : ℚ) ^ logQuotient n d ≤ n / d := by
  have hposd : (0 : ℚ) < d := Nat.cast_pos.mpr hd
  -- below one, the place is the reciprocal of a power
  have hsmall {k : ℕ} (hle : d ≤ n * 10 ^ k) : (10 : ℚ) ^ (-(k : ℤ)) ≤ n / d := by
    rw [zpow_neg, zpow_natCast, inv_eq_one_div, div_le_div_iff₀ (by positivity) hposd, one_mul]
    exact_mod_cast hle
  unfold logQuotient
  split
  · rename_i hle
    have hpos : 0 < n / d := Nat.div_pos hle hd
    obtain ⟨hfirst, -⟩ := length_toDigits hpos
    have hlength : 0 < (Nat.toDigits 10 (n / d)).length := Nat.length_toDigits_pos
    rw [← Nat.cast_one, ← Nat.cast_sub hlength, zpow_natCast, le_div_iff₀ hposd]
    exact_mod_cast (Nat.mul_le_mul_right d hfirst).trans (Nat.div_mul_le_self n d)
  · rename_i hlt
    have hpos : 0 < d / n := Nat.div_pos (by omega) hn
    simp only [Nat.pow_eq]
    split
    · rename_i hle
      exact hsmall hle
    · refine hsmall ?_
      rw [Nat.mul_comm]
      exact (Nat.lt_mul_of_div_lt (length_toDigits hpos).2 hn).le

/-! ### Seventeen digits -/

section Seventeen

open FloatFormat

variable {m : ℕ} {q place : ℤ}

theorem unit_pos (f : FloatFormat) (m : ℕ) (q : ℤ) : 0 < (Interval.around f m q).unit :=
  Nat.two_pow_pos _

/-- A grid with seventeen digits is finer than the interval of a number is wide. -/
theorem zpow_lt_width (hm : binary64.Canonical m q)
    (hfine : (10 : ℚ) ^ place * 10 ^ 16 ≤ m * 2 ^ q) :
    (10 : ℚ) ^ place < (Interval.gapBelow binary64 m q + 1 / 2) * 2 ^ q := by
  have hpos : (0 : ℚ) < 2 ^ q := by positivity
  unfold Interval.gapBelow
  split
  · rename_i hpower
    have hm52 : (m : ℚ) = 2 ^ 52 := by exact_mod_cast hpower.1
    rw [hm52] at hfine
    linarith
  · have hm53 : (m : ℚ) < 2 ^ 53 := by exact_mod_cast hm.lt
    have hlt : (m : ℚ) * 2 ^ q < 2 ^ 53 * 2 ^ q := mul_lt_mul_of_pos_right hm53 hpos
    linarith

/-- Of the two neighbours on such a grid, one rounds to the number. -/
theorem contains_neighbour (hm : binary64.Canonical m q)
    (hfine : (10 : ℚ) ^ place * 10 ^ 16 ≤ m * 2 ^ q) :
    (Interval.around binary64 m q).contains ((Interval.around binary64 m q).floorAt place) place
        = true ∨
      (Interval.around binary64 m q).contains ((Interval.around binary64 m q).floorAt place + 1)
        place = true := by
  have hpos : (0 : ℚ) < 2 ^ q := by positivity
  have hunit := unit_pos binary64 m q
  have hwidth := zpow_lt_width hm hfine
  obtain ⟨hgap, -⟩ := Interval.gapBelow_bounds (f := binary64) (m := m) (q := q)
  have hgap : 0 < Interval.gapBelow binary64 m q * 2 ^ q := by positivity
  obtain ⟨hbelow, habove⟩ := Interval.floorAt_bounds hunit place
  rw [Interval.value_around] at hbelow habove
  rw [Interval.contains_iff hunit, Interval.contains_iff hunit]
  by_cases hnear : (m - Interval.gapBelow binary64 m q) * 2 ^ q
      < (Interval.around binary64 m q).floorAt place * 10 ^ place
  · refine .inl (Interval.holds_of_lt ?_ ?_)
    · rwa [Interval.low_around hm.pos]
    · rw [Interval.high_around]
      linarith
  · -- the lower neighbour is below the interval, so the upper one is not above it
    refine .inr (Interval.holds_of_lt ?_ ?_)
    · rw [Interval.low_around hm.pos]
      linarith
    · rw [Interval.high_around]
      push_cast
      linarith

/-- The decimal that is found is that of a grid point in the interval. -/
theorem exists_shortest (hm : binary64.Canonical m q) : ∃ point place, 0 < point ∧
    shortest binary64 m q = ofGrid point place ∧
    (Interval.around binary64 m q).Holds (point * 10 ^ place) := by
  have hunit := unit_pos binary64 m q
  have hvalue : 0 < (Interval.around binary64 m q).value :=
    Nat.mul_pos (Nat.mul_pos (by decide) hm.pos) (Nat.two_pow_pos _)
  have hlog := zpow_logQuotient_le hvalue hunit
  rw [Interval.value_around] at hlog
  have hfine : (10 : ℚ) ^ (logQuotient (Interval.around binary64 m q).value
      (Interval.around binary64 m q).unit - (16 : ℕ)) * 10 ^ 16 ≤ m * 2 ^ q := by
    rwa [zpow_sub₀ (by norm_num), zpow_natCast, div_mul_cancel₀ _ (by norm_num)]
  obtain ⟨point, place, hsearch, hcontains⟩ := Interval.exists_search (Nat.zero_le 16)
    (show 16 < 0 + 17 by decide) (Interval.exists_pick? (contains_neighbour hm hfine))
  have hholds := (Interval.contains_iff hunit).mp hcontains
  refine ⟨point, place, Nat.pos_of_ne_zero ?_, hsearch, hholds⟩
  rintro rfl
  -- zero is below the interval
  have hone : (1 : ℚ) ≤ m := by exact_mod_cast hm.pos
  obtain ⟨-, hgap⟩ := Interval.gapBelow_bounds (f := binary64) (m := m) (q := q)
  have hless : (0 : ℚ) < m - Interval.gapBelow binary64 m q := by linarith
  have hpos : (0 : ℚ) < (m - Interval.gapBelow binary64 m q) * 2 ^ q := by positivity
  have hlow := (hholds.ends hm.pos).1
  rw [Nat.cast_zero, zero_mul] at hlow
  exact absurd hlow (not_le.mpr hpos)

theorem holds_shortest (hm : binary64.Canonical m q) :
    (Interval.around binary64 m q).Holds (shortest binary64 m q).value := by
  obtain ⟨point, place, hpoint, hshortest, hholds⟩ := exists_shortest hm
  rw [hshortest, value_ofGrid hpoint]
  exact hholds

theorem normal_shortest (hm : binary64.Canonical m q) : (shortest binary64 m q).Normal := by
  obtain ⟨point, place, hpoint, hshortest, -⟩ := exists_shortest hm
  rw [hshortest]
  exact normal_ofGrid hpoint place

end Seventeen

end Decimal

end ModuleHost
