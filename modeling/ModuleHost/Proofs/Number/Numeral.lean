/-
Numbers in decimal notation.

A numeral is a text that denotes a rational number: digits, perhaps with a point between them, and
perhaps an exponent behind them.  It is read by what its characters are and not by how it came to be
written, so that a text denotes at most one number.

* `Digits.value` — digits as a number, the most significant one first;
* `Numeral`, `Numeral.value` — the parts of a numeral, and the number that it denotes;
* `Numeral.read?` — the numeral that a text is;
* `Numeral.Tidy` — no zero is written in vain;
* `Numeral.read?_chars` — a numeral is read as it was written.
-/
import Mathlib
import ModuleHost.Number.Layout
import ModuleHost.Proofs.Number.Quantity

namespace ModuleHost

open Decimal (digitChars)

/-! ### Digits -/

namespace Digits

/-- The number of these digits, the most significant one first. -/
def value (ds : List ℕ) : ℕ := Nat.ofDigits 10 ds.reverse

/-- One digit or more. -/
def Proper (ds : List ℕ) : Prop := ds ≠ [] ∧ ∀ d ∈ ds, d < 10

/-- The digits that characters are. -/
def read? (cs : List Char) : Option (List ℕ) :=
  if cs ≠ [] ∧ cs.all Char.isDigit then some (cs.map fun c => c.toNat - '0'.toNat) else none

variable {ds es : List ℕ} {c : Char} {n : ℕ}

theorem lt_ten_of_mem_zeros : ∀ d ∈ List.replicate n 0, d < 10 := by
  intro d hd
  rw [List.eq_of_mem_replicate hd]
  decide

theorem value_append (ds es : List ℕ) :
    value (ds ++ es) = value ds * 10 ^ es.length + value es := by
  rw [value, List.reverse_append, Nat.ofDigits_append, List.length_reverse, Nat.mul_comm,
    Nat.add_comm]
  rfl

theorem value_replicate_zero (n : ℕ) : value (List.replicate n 0) = 0 := by
  rw [value, List.reverse_replicate, Nat.ofDigits_replicate_zero]

/-- Zeros in front do not count. -/
theorem value_zeros_append (n : ℕ) (ds : List ℕ) : value (List.replicate n 0 ++ ds) = value ds := by
  rw [value_append, value_replicate_zero, Nat.zero_mul, Nat.zero_add]

/-- Zeros at the end are factors of ten. -/
theorem value_append_zeros (ds : List ℕ) (n : ℕ) :
    value (ds ++ List.replicate n 0) = value ds * 10 ^ n := by
  rw [value_append, value_replicate_zero, List.length_replicate, Nat.add_zero]

/-- A first digit that is not zero makes a number that is not zero. -/
theorem value_pos (hne : ds ≠ []) (hfirst : ds.head? ≠ some 0) : 0 < value ds := by
  obtain ⟨d, rest, rfl⟩ := List.exists_cons_of_ne_nil hne
  have hd : d ≠ 0 := fun h => hfirst (by rw [h]; rfl)
  have hsplit := value_append [d] rest
  have hvalue : value [d] = d := Nat.ofDigits_singleton
  rw [List.singleton_append, hvalue] at hsplit
  have hpos : 0 < d * 10 ^ rest.length := by positivity
  omega

theorem digitChars_ne_nil (h : ds ≠ []) : digitChars ds ≠ [] := mt List.map_eq_nil_iff.mp h

theorem isDigit_of_mem (h : ∀ d ∈ ds, d < 10) (hc : c ∈ digitChars ds) : c.isDigit = true := by
  obtain ⟨d, hd, rfl⟩ := List.mem_map.mp hc
  rw [Nat.isDigit_digitChar, decide_eq_true (h d hd)]

theorem not_mem_digitChars (h : ∀ d ∈ ds, d < 10) (hc : c.isDigit = false) :
    c ∉ digitChars ds := by
  intro hmem
  rw [isDigit_of_mem h hmem] at hc
  cases hc

/-- Digits are read as they were written. -/
theorem read?_digitChars (h : Proper ds) : read? (digitChars ds) = some ds := by
  have hdigits : digitChars ds ≠ [] ∧ (digitChars ds).all Char.isDigit = true :=
    ⟨digitChars_ne_nil h.1, List.all_eq_true.mpr fun c hc => isDigit_of_mem h.2 hc⟩
  have hback : ∀ d ∈ ds, ((fun c : Char => c.toNat - '0'.toNat) ∘ Nat.digitChar) d = d :=
    fun d hd => Nat.toNat_digitChar_sub_48_of_lt_ten (h.2 d hd)
  rw [read?, if_pos hdigits, digitChars, List.map_map, List.map_congr_left hback, List.map_id']

/-- The decimal notation of a number has its digits. -/
theorem toDigits_eq (hn : 0 < n) : Nat.toDigits 10 n = digitChars (Nat.digits 10 n).reverse := by
  induction n using Nat.strong_induction_on with
  | _ n ih =>
    rw [Nat.digits_def' (by decide) hn, List.reverse_cons, digitChars, List.map_append]
    by_cases hsmall : n < 10
    · have hlast : n / 10 = 0 := Nat.div_eq_of_lt hsmall
      rw [Nat.toDigits_of_lt_base hsmall, hlast, Nat.mod_eq_of_lt hsmall, Nat.digits_zero]
      rfl
    · rw [Nat.toDigits_of_base_le (by decide) (not_lt.mp hsmall),
        ih (n / 10) (by omega) (by omega)]
      rfl

theorem proper_digits (hn : 0 < n) : Proper (Nat.digits 10 n).reverse := by
  refine ⟨mt List.reverse_eq_nil_iff.mp (Nat.digits_ne_nil_iff_ne_zero.mpr hn.ne'), fun d hd => ?_⟩
  exact Nat.digits_lt_base (by decide) (List.mem_reverse.mp hd)

theorem value_digits (n : ℕ) : value (Nat.digits 10 n).reverse = n := by
  rw [value, List.reverse_reverse, Nat.ofDigits_digits]

theorem head?_digits (hn : 0 < n) : (Nat.digits 10 n).reverse.head? ≠ some 0 := by
  have hne : Nat.digits 10 n ≠ [] := Nat.digits_ne_nil_iff_ne_zero.mpr hn.ne'
  rw [List.head?_reverse, List.getLast?_eq_some_getLast hne]
  exact fun h => Nat.getLast_digit_ne_zero 10 hn.ne' (Option.some.inj h)

end Digits

/-! ### Numerals -/

/-- The exponent of a numeral: its sign, if it has one, and its digits. -/
structure Numeral.Exponent where
  negative? : Option Bool
  digits : List ℕ
  deriving DecidableEq

/-- A number in decimal notation: its sign, the digits before the point, those behind the point if
there is one, and its exponent if it has one. -/
structure Numeral where
  negative : Bool
  whole : List ℕ
  fraction : Option (List ℕ)
  exponent : Option Numeral.Exponent
  deriving DecidableEq

namespace Numeral

/-- The exponent as a number. -/
def Exponent.value (e : Exponent) : ℤ :=
  if e.negative? = some true then -(Digits.value e.digits : ℤ) else Digits.value e.digits

/-- The digits behind the point. -/
def fractionDigits (n : Numeral) : List ℕ := n.fraction.getD []

/-- The power of ten that the number is scaled by. -/
def scale (n : Numeral) : ℤ := (n.exponent.map Exponent.value).getD 0

/-- The number that is denoted: the digits before and behind the point are one number, and each
digit behind the point makes it a tenth. -/
def value (n : Numeral) : ℚ :=
  signFactor n.negative *
    (Digits.value (n.whole ++ n.fractionDigits) * 10 ^ (n.scale - n.fractionDigits.length))

/-- No zero is written in vain: before other digits of a whole number, at the end of the digits
behind a point, or before other digits of an exponent.  Behind a point there are digits. -/
structure Tidy (n : Numeral) : Prop where
  whole : n.whole = [0] ∨ n.whole.head? ≠ some 0
  fraction : ∀ ds, n.fraction = some ds → ds ≠ [] ∧ ds.getLast? ≠ some 0
  exponent : ∀ e, n.exponent = some e → e.digits.head? ≠ some 0

/-! ### Reading -/

/-- What is before a character, and what is behind it if it occurs. -/
def cutAt (c : Char) (cs : List Char) : List Char × Option (List Char) :=
  (cs.takeWhile (· ≠ c), (cs.dropWhile (· ≠ c)).tail?)

/-- Read an exponent. -/
def Exponent.read? : List Char → Option Exponent
  | '-' :: cs => (Digits.read? cs).map (⟨some true, ·⟩)
  | '+' :: cs => (Digits.read? cs).map (⟨some false, ·⟩)
  | cs => (Digits.read? cs).map (⟨none, ·⟩)

/-- Read a numeral behind its sign. -/
def readUnsigned? (negative : Bool) (cs : List Char) : Option Numeral := do
  let (significand, exponent) := cutAt 'e' cs
  let (whole, fraction) := cutAt '.' significand
  return ⟨negative, ← Digits.read? whole, ← fraction.mapM Digits.read?,
    ← exponent.mapM Exponent.read?⟩

/-- Read a numeral. -/
def read? : List Char → Option Numeral
  | '-' :: cs => readUnsigned? true cs
  | cs => readUnsigned? false cs

/-! ### Writing -/

/-- A part that is set off by a character, if it is there. -/
def part (c : Char) (cs : Option (List Char)) : List Char := cs.elim [] (c :: ·)

/-- The characters of an exponent. -/
def Exponent.chars (e : Exponent) : List Char :=
  (match e.negative? with
    | some true => ['-']
    | some false => ['+']
    | none => []) ++ digitChars e.digits

/-- The characters of a numeral. -/
def chars (n : Numeral) : List Char :=
  Double.signChars n.negative ++
    (digitChars n.whole ++ part '.' (n.fraction.map digitChars) ++
      part 'e' (n.exponent.map Exponent.chars))

/-- The parts of a numeral that are there have digits. -/
structure Proper (n : Numeral) : Prop where
  whole : Digits.Proper n.whole
  fraction : ∀ ds, n.fraction = some ds → Digits.Proper ds
  exponent : ∀ e, n.exponent = some e → Digits.Proper e.digits

variable {n : Numeral} {e : Exponent} {c : Char} {cs : List Char} {o : Option (List Char)}

theorem cutAt_append_part (hc : c ∉ cs) : cutAt c (cs ++ part c o) = (cs, o) := by
  have hall : ∀ x ∈ cs, decide (x ≠ c) = true := fun x hx =>
    decide_eq_true fun h => hc (h ▸ hx)
  rw [cutAt, List.takeWhile_append_of_pos hall, List.dropWhile_append_of_pos hall]
  cases o <;> simp [part]

/-- What begins with a digit does not begin with a sign. -/
theorem ne_cons_of_digits {ds : List ℕ} (hds : Digits.Proper ds) (hc : c.isDigit = false)
    (more cs : List Char) : digitChars ds ++ more ≠ c :: cs := by
  obtain ⟨d, rest, rfl⟩ := List.exists_cons_of_ne_nil hds.1
  intro h
  have hdigit : d.digitChar.isDigit = true :=
    Digits.isDigit_of_mem hds.2 (List.mem_cons_self ..)
  rw [(List.cons_eq_cons.mp h).1, hc] at hdigit
  cases hdigit

theorem Exponent.read?_chars (he : Digits.Proper e.digits) : read? e.chars = some e := by
  obtain ⟨sign, ds⟩ := e
  have hread : Digits.read? (digitChars ds) = some ds := Digits.read?_digitChars he
  have hstart (c : Char) (hc : c.isDigit = false) (cs : List Char) : digitChars ds ≠ c :: cs := by
    simpa using ne_cons_of_digits he hc [] cs
  match sign with
  | some true | some false => exact congrArg (Option.map _) hread
  | none =>
    show read? (digitChars ds) = _
    unfold read?
    split
    · exact absurd ‹_› (hstart '-' rfl _)
    · exact absurd ‹_› (hstart '+' rfl _)
    · rw [hread, Option.map_some]

/-- The exponent is behind the first `e`, and the fraction behind the first point. -/
theorem readUnsigned?_chars (hn : n.Proper) :
    readUnsigned? n.negative (digitChars n.whole ++ part '.' (n.fraction.map digitChars) ++
      part 'e' (n.exponent.map Exponent.chars)) = some n := by
  obtain ⟨negative, whole, fraction, exponent⟩ := n
  obtain ⟨hwhole, hfraction, hexponent⟩ := hn
  have hpoint : '.' ∉ digitChars whole := Digits.not_mem_digitChars hwhole.2 rfl
  have he : 'e' ∉ digitChars whole ++ part '.' (fraction.map digitChars) := by
    rw [List.mem_append, not_or]
    refine ⟨Digits.not_mem_digitChars hwhole.2 rfl, ?_⟩
    cases fraction with
    | none => exact List.not_mem_nil
    | some ds =>
      refine List.not_mem_cons_of_ne_of_not_mem (by decide) ?_
      exact Digits.not_mem_digitChars (hfraction ds rfl).2 rfl
  have hreadFraction : (fraction.map digitChars).mapM Digits.read? = some fraction := by
    cases fraction with
    | none => rfl
    | some ds => simp [Digits.read?_digitChars (hfraction ds rfl)]
  have hreadExponent : (exponent.map Exponent.chars).mapM Exponent.read? = some exponent := by
    cases exponent with
    | none => rfl
    | some e => simp [Exponent.read?_chars (hexponent e rfl)]
  simp only [readUnsigned?, cutAt_append_part he, cutAt_append_part hpoint,
    Digits.read?_digitChars hwhole, hreadFraction, hreadExponent]
  rfl

/-- A numeral is read as it was written. -/
theorem read?_chars (hn : n.Proper) : read? n.chars = some n := by
  have hread := readUnsigned?_chars hn
  rw [chars]
  cases hsign : n.negative with
  | true =>
    rw [hsign] at hread
    exact hread
  | false =>
    rw [hsign] at hread
    rw [Double.signChars, if_neg Bool.false_ne_true, List.nil_append]
    unfold read?
    split
    · rename_i hminus
      rw [List.append_assoc] at hminus
      exact absurd hminus (ne_cons_of_digits hn.whole rfl _ _)
    · exact hread

end Numeral

end ModuleHost
