/-
The layout of displayed numbers.

A decimal is displayed as a numeral that denotes it, whatever its digits and its exponent are.  The
digits stand around a point unless the exponent is too large or too small for that, and zeros are
added only between the digits and the point.

* `Decimal.value`, `Decimal.Normal` — the number of a decimal, and digits that all count;
* `Numeral.Shows` — what is to be said of the numeral for a decimal;
* `Decimal.Normal.displays` — such a numeral is displayed.
-/
import Mathlib
import ModuleHost.Proofs.Number.Numeral

namespace ModuleHost

open Decimal Double

/-- The number `d₁.d₂d₃… · 10 ^ exponent`. -/
def Decimal.value (d : Decimal) : ℚ :=
  Digits.value d.digits * 10 ^ (d.exponent - (d.digits.length - 1))

/-- There are digits, and none at either end is zero. -/
structure Decimal.Normal (d : Decimal) : Prop where
  proper : Digits.Proper d.digits
  first : d.digits.head? ≠ some 0
  last : d.digits.getLast? ≠ some 0

/-- A numeral for a decimal with a sign: it denotes that number, it has an exponent with a sign
unless that of the decimal is between -6 and 20, and no zero is written in vain. -/
structure Numeral.Shows (n : Numeral) (negative : Bool) (d : Decimal) : Prop where
  value : n.value = signFactor negative * d.value
  positional : n.exponent = none ↔ -6 ≤ d.exponent ∧ d.exponent ≤ 20
  signed : ∀ e, n.exponent = some e → e.negative?.isSome = true
  tidy : n.Tidy

namespace Decimal

variable {d : Decimal} {n : Numeral} {s : Bool} {t : ℕ}

theorem digitChars_append (ds es : List ℕ) :
    digitChars (ds ++ es) = digitChars ds ++ digitChars es := List.map_append

theorem digitChars_zeros (t : ℕ) : digitChars (List.replicate t 0) = zeros t := List.map_replicate

theorem Normal.length_pos (hd : d.Normal) : 0 < d.digits.length :=
  List.length_pos_iff.mpr hd.proper.1

theorem Normal.value_pos (hd : d.Normal) : 0 < d.value := by
  have hdigits : (0 : ℚ) < Digits.value d.digits :=
    Nat.cast_pos.mpr (Digits.value_pos hd.proper.1 hd.first)
  unfold value
  positivity

/-- A numeral has the digits of a decimal, zeros at the end aside, and the point in its place. -/
theorem value_eq (hdigits : Digits.value (n.whole ++ n.fractionDigits)
      = Digits.value d.digits * 10 ^ t)
    (hscale : n.scale - n.fractionDigits.length + t = d.exponent - (d.digits.length - 1)) :
    n.value = signFactor n.negative * d.value := by
  rw [Numeral.value, value, hdigits, ← hscale, zpow_add₀ (by norm_num), zpow_natCast]
  push_cast
  ring

/-- The text of a decimal with a sign is a numeral for it. -/
def Displays (d : Decimal) (s : Bool) : Prop :=
  ∃ n, Numeral.read? (signChars s ++ d.displayChars) = some n ∧ n.Shows s d

theorem displays_of_chars (hn : n.Proper) (hchars : n.chars = signChars s ++ d.displayChars)
    (hshows : n.Shows s d) : d.Displays s :=
  ⟨n, by rw [← hchars, Numeral.read?_chars hn], hshows⟩

/-- Without an exponent, digits around a point are a numeral for a decimal if they are its digits,
zeros in front and at the end aside, and if the point is where it belongs. -/
theorem displays_positional (whole : List ℕ) (fraction : Option (List ℕ))
    (hrange : -6 < d.point ∧ d.point ≤ 21)
    (hchars : d.displayChars = digitChars whole ++ Numeral.part '.' (fraction.map digitChars))
    (hwhole : Digits.Proper whole) (hfirst : whole = [0] ∨ whole.head? ≠ some 0)
    (hfraction : ∀ ds, fraction = some ds → Digits.Proper ds ∧ ds.getLast? ≠ some 0)
    (hdigits : Digits.value (whole ++ fraction.getD []) = Digits.value d.digits * 10 ^ t)
    (hplace : d.point + (fraction.getD []).length = d.digits.length + t) (s : Bool) :
    d.Displays s := by
  have hpoint : d.point = d.exponent + 1 := rfl
  have hproper : (⟨s, whole, fraction, none⟩ : Numeral).Proper :=
    ⟨hwhole, fun ds hds => (hfraction ds hds).1, nofun⟩
  refine displays_of_chars hproper ?_ ⟨value_eq hdigits ?_, ?_, nofun, hfirst, ?_, nofun⟩
  · rw [hchars, Numeral.chars]
    simp [Numeral.part]
  · show (0 : ℤ) - (fraction.getD []).length + t = _
    omega
  · refine iff_of_true rfl ?_
    omega
  · intro ds hds
    obtain ⟨hds, hlast⟩ := hfraction ds hds
    exact ⟨hds.1, hlast⟩

/-- A whole number, to which zeros may have to be added. -/
theorem displays_whole (hd : d.Normal) (hk : d.digits.length ≤ d.point) (htop : d.point ≤ 21)
    (s : Bool) : d.Displays s := by
  have hrange : -6 < d.point ∧ d.point ≤ 21 := by omega
  obtain ⟨t, ht⟩ : ∃ t : ℕ, (d.point - d.digits.length).toNat = t := ⟨_, rfl⟩
  have hchars : d.displayChars = digitChars (d.digits ++ List.replicate t 0) ++ [] := by
    rw [displayChars, if_pos hrange, positionalChars, if_pos hk, ht, digitChars_append,
      digitChars_zeros]
    rfl
  have hwhole : Digits.Proper (d.digits ++ List.replicate t 0) :=
    ⟨List.append_ne_nil_of_left_ne_nil hd.proper.1 _,
      List.forall_mem_append.mpr ⟨hd.proper.2, Digits.lt_ten_of_mem_zeros⟩⟩
  have hfirst : (d.digits ++ List.replicate t 0).head? ≠ some 0 := by
    rw [List.head?_append_of_ne_nil _ hd.proper.1]
    exact hd.first
  refine displays_positional (t := t) _ none hrange hchars hwhole (.inr hfirst) nofun ?_ ?_ s
  · rw [Option.getD_none, List.append_nil, Digits.value_append_zeros]
  · rw [Option.getD_none, List.length_nil]
    omega

/-- Digits on both sides of the point. -/
theorem displays_split (hd : d.Normal) (hk : d.point < d.digits.length) (hlow : 0 < d.point)
    (htop : d.point ≤ 21) (s : Bool) : d.Displays s := by
  have hrange : -6 < d.point ∧ d.point ≤ 21 := by omega
  obtain ⟨k, hk'⟩ : ∃ k : ℕ, d.point.toNat = k := ⟨_, rfl⟩
  have hchars : d.displayChars = digitChars (d.digits.take k)
      ++ Numeral.part '.' (some (digitChars (d.digits.drop k))) := by
    rw [displayChars, if_pos hrange, positionalChars, if_neg (not_le.mpr hk), if_pos hlow, hk']
    rfl
  have htake : d.digits.take k ≠ [] := by
    rw [ne_eq, List.take_eq_nil_iff, not_or]
    exact ⟨by omega, hd.proper.1⟩
  have hdrop : d.digits.drop k ≠ [] := by
    rw [ne_eq, List.drop_eq_nil_iff]
    omega
  have hfirst : (d.digits.take k).head? ≠ some 0 := by
    rw [List.head?_take, if_neg (by omega)]
    exact hd.first
  have hlast : (d.digits.drop k).getLast? ≠ some 0 := by
    rw [List.getLast?_drop, if_neg (by omega)]
    exact hd.last
  refine displays_positional (t := 0) _ (some (d.digits.drop k)) hrange hchars
    ⟨htake, fun a ha => hd.proper.2 a (List.mem_of_mem_take ha)⟩ (.inr hfirst) ?_ ?_ ?_ s
  · rintro ds ⟨rfl⟩
    exact ⟨⟨hdrop, fun a ha => hd.proper.2 a (List.mem_of_mem_drop ha)⟩, hlast⟩
  · rw [Option.getD_some, List.take_append_drop, pow_zero, Nat.mul_one]
  · rw [Option.getD_some, List.length_drop]
    omega

/-- A number below one: zeros are between the point and the digits. -/
theorem displays_small (hd : d.Normal) (hlow : -6 < d.point) (htop : d.point ≤ 0) (s : Bool) :
    d.Displays s := by
  have hlength := hd.length_pos
  have hrange : -6 < d.point ∧ d.point ≤ 21 := by omega
  obtain ⟨z, hz⟩ : ∃ z : ℕ, (-d.point).toNat = z := ⟨_, rfl⟩
  have hchars : d.displayChars = digitChars [0]
      ++ Numeral.part '.' (some (digitChars (List.replicate z 0 ++ d.digits))) := by
    rw [displayChars, if_pos hrange, positionalChars, if_neg (by omega), if_neg (by omega), hz,
      digitChars_append, digitChars_zeros]
    rfl
  have hfraction : Digits.Proper (List.replicate z 0 ++ d.digits) :=
    ⟨List.append_ne_nil_of_right_ne_nil _ hd.proper.1,
      List.forall_mem_append.mpr ⟨Digits.lt_ten_of_mem_zeros, hd.proper.2⟩⟩
  have hlast : (List.replicate z 0 ++ d.digits).getLast? ≠ some 0 := by
    rw [List.getLast?_append_of_ne_nil _ hd.proper.1]
    exact hd.last
  refine displays_positional (t := 0) _ (some (List.replicate z 0 ++ d.digits)) hrange hchars
    ⟨by simp, by simp⟩ (.inl rfl) ?_ ?_ ?_ s
  · rintro ds ⟨rfl⟩
    exact ⟨hfraction, hlast⟩
  · -- the zero in front of the point is one more of the zeros behind it
    rw [Option.getD_some, pow_zero, Nat.mul_one]
    exact Digits.value_zeros_append (z + 1) d.digits
  · rw [Option.getD_some, List.length_append, List.length_replicate]
    omega

/-- There is a point behind the first digit if there are others. -/
theorem exists_fraction (a : ℕ) (rest : List ℕ) : ∃ fraction : Option (List ℕ),
    mantissaChars (a :: rest) = digitChars [a] ++ Numeral.part '.' (fraction.map digitChars) ∧
    fraction.getD [] = rest ∧ ∀ ds, fraction = some ds → ds ≠ [] := by
  cases rest with
  | nil => exact ⟨none, rfl, rfl, nofun⟩
  | cons b rest =>
    refine ⟨some (b :: rest), rfl, rfl, ?_⟩
    rintro ds ⟨rfl⟩
    exact List.cons_ne_nil b rest

/-- An exponent that is not zero is written with its sign. -/
theorem exists_exponent {k : ℤ} (hk : k ≠ 0) : ∃ e : Numeral.Exponent,
    e.chars = (if k < 0 then '-' else '+') :: natChars k.natAbs ∧ e.value = k ∧
    Digits.Proper e.digits ∧ e.digits.head? ≠ some 0 ∧ e.negative?.isSome = true := by
  have hpos : 0 < k.natAbs := Int.natAbs_pos.mpr hk
  refine ⟨⟨some (decide (k < 0)), (Nat.digits 10 k.natAbs).reverse⟩, ?_, ?_,
    Digits.proper_digits hpos, Digits.head?_digits hpos, rfl⟩
  · rw [Numeral.Exponent.chars, natChars, Digits.toDigits_eq hpos]
    by_cases hneg : k < 0 <;> simp [hneg]
  · rw [Numeral.Exponent.value, Digits.value_digits]
    by_cases hneg : k < 0
    · rw [if_pos (by simp [hneg])]
      omega
    · rw [if_neg (by simp [hneg])]
      omega

/-- The exponent is written, and the point is behind the first of several digits. -/
theorem displays_scaled (hd : d.Normal) (hfar : ¬ (-6 < d.point ∧ d.point ≤ 21)) (s : Bool) :
    d.Displays s := by
  have hpoint : d.point = d.exponent + 1 := rfl
  obtain ⟨a, rest, hdigits⟩ := List.exists_cons_of_ne_nil hd.proper.1
  obtain ⟨fraction, hmantissa, hrest, hne⟩ := exists_fraction a rest
  obtain ⟨e, hechars, hevalue, heproper, hefirst, hesign⟩ :=
    exists_exponent (k := d.exponent) (by omega)
  have hchars : d.displayChars
      = digitChars [a] ++ Numeral.part '.' (fraction.map digitChars) ++ 'e' :: e.chars := by
    rw [displayChars, if_neg hfar, hdigits, hmantissa, hechars]
  have hproper := hd.proper.2
  have hlast := hd.last
  rw [hdigits] at hproper hlast
  obtain ⟨ha, hothers⟩ := List.forall_mem_cons.mp hproper
  -- the digits of the fraction are the others, and so is their last one
  have hfraction : ∀ ds, fraction = some ds →
      Digits.Proper ds ∧ ds ≠ [] ∧ ds.getLast? ≠ some 0 := by
    rintro ds rfl
    obtain rfl : ds = rest := hrest
    have hds := hne ds rfl
    rw [← List.singleton_append, List.getLast?_append_of_ne_nil _ hds] at hlast
    exact ⟨⟨hds, hothers⟩, hds, hlast⟩
  refine displays_of_chars (n := ⟨s, [a], fraction, some e⟩)
    ⟨⟨by simp, by simpa using ha⟩, fun ds hds => (hfraction ds hds).1, ?_⟩ ?_
    ⟨value_eq (t := 0) ?_ ?_, ?_, ?_, .inr ?_, fun ds hds => (hfraction ds hds).2, ?_⟩
  · rintro _ ⟨rfl⟩
    exact heproper
  · rw [hchars, Numeral.chars]
    rfl
  · rw [Numeral.fractionDigits, hrest, hdigits, pow_zero, Nat.mul_one]
    rfl
  · simp [Numeral.fractionDigits, Numeral.scale, hrest, hevalue, hdigits]
  · simp
    omega
  · rintro _ ⟨rfl⟩
    exact hesign
  · have hfirst := hd.first
    rw [hdigits] at hfirst
    exact hfirst
  · rintro _ ⟨rfl⟩
    exact hefirst

/-- Whatever its digits and its exponent are, a decimal is displayed as a numeral for it. -/
theorem Normal.displays (hd : d.Normal) (s : Bool) : d.Displays s := by
  by_cases hnear : -6 < d.point ∧ d.point ≤ 21
  · by_cases hk : d.digits.length ≤ d.point
    · exact displays_whole hd hk hnear.2 s
    · by_cases hlow : 0 < d.point
      · exact displays_split hd (not_le.mp hk) hlow hnear.2 s
      · exact displays_small hd hnear.1 (not_lt.mp hlow) s
  · exact displays_scaled hd hnear s

end Decimal

end ModuleHost
