/-
Displayed numbers.

The text of a finite number other than zero is a numeral that denotes the number's shortest decimal.
That decimal rounds to the number and to no other one, so different numbers have different texts.

* `Double.display_eq` — the text of a finite number;
* `Double.eq_of_display_eq` — the text tells which number it is;
* `numbers_are_laid_out` — the main theorem.
-/
import Mathlib
import ModuleHost.Proofs.Number.LaidOut
import ModuleHost.Proofs.Number.ShortestDigits

namespace ModuleHost

open Decimal FloatFormat

/-! ### The text of a number -/

namespace Double

variable {x y : Double} {s t : Bool} {m n : ℕ} {q p : ℤ}

theorem display_eq (hx : x.datum = .finite s m q) (hm : m ≠ 0) :
    x.display = String.ofList (signChars s ++ (shortest binary64 m q).displayChars) := by
  obtain ⟨k, rfl⟩ := Nat.exists_eq_succ_of_ne_zero hm
  rw [display, hx]
  rfl

theorem canonical_of_datum (hx : x.datum = .finite s m q) (hm : m ≠ 0) : binary64.Canonical m q :=
  canonical_of_unpack (by decide) hx hm

/-- A finite number is its sign, its significand and its exponent. -/
theorem eq_of_datum_eq (hx : x.datum = .finite s m q) (hy : y.datum = .finite s m q) : x = y := by
  have hlt (z : Double) : z.bits.toNat < 2 * binary64.signWord := z.bits.toNat_lt
  have hbits := eq_of_unpack_eq (hlt x) (hlt y) hx hy
  cases x
  cases y
  exact congrArg mk (UInt64.toNat_inj.mp hbits)

end Double

/-- A sign and a positive number are found again in their product. -/
theorem signFactor_mul_inj {s t : Bool} {a b : ℚ} (ha : 0 < a) (hb : 0 < b)
    (h : signFactor s * a = signFactor t * b) : s = t ∧ a = b := by
  cases s <;> cases t <;> simp [signFactor] at h ⊢ <;> linarith

namespace Decimal

/-- The text of a decimal tells its sign and its value. -/
theorem Normal.value_inj {d e : Decimal} {s t : Bool} (hd : d.Normal) (he : e.Normal)
    (h : Double.signChars s ++ d.displayChars = Double.signChars t ++ e.displayChars) :
    s = t ∧ d.value = e.value := by
  obtain ⟨n, hn, hshows⟩ := hd.displays s
  obtain ⟨n', hn', hshows'⟩ := he.displays t
  rw [h, hn'] at hn
  obtain rfl := Option.some.inj hn
  exact signFactor_mul_inj hd.value_pos he.value_pos (hshows.value.symm.trans hshows'.value)

end Decimal

namespace Double

/-- The text of a number tells which number it is. -/
theorem eq_of_display_eq {x y : Double} {s t : Bool} {m n : ℕ} {q p : ℤ}
    (hx : x.datum = .finite s m q) (hm : m ≠ 0) (hy : y.datum = .finite t n p) (hn : n ≠ 0)
    (h : x.display = y.display) : x = y := by
  have hcx := canonical_of_datum hx hm
  have hcy := canonical_of_datum hy hn
  rw [display_eq hx hm, display_eq hy hn, String.ofList_inj] at h
  obtain ⟨rfl, hvalue⟩ := (normal_shortest hcx).value_inj (normal_shortest hcy) h
  -- one decimal rounds to both
  obtain ⟨rfl, rfl⟩ := hcx.eq_of_holds hcy (holds_shortest hcx) (hvalue ▸ holds_shortest hcy)
  exact eq_of_datum_eq hx hy

/-- Neither zero, nor infinite, nor a NaN. -/
def FiniteNonzero (x : Double) : Prop := ∃ s m q, x.datum = .finite s m q ∧ m ≠ 0

end Double

/-! ### The main theorem -/

/-- Digits that all count are displayed, with whatever exponent and sign, as a numeral for exactly
that number: without an exponent from `10 ^ -6` up to `10 ^ 21` and with a signed one elsewhere, and
with no zero or point in vain.  The text of a finite number other than zero is that of its shortest
decimal, which is one of such digits and rounds to the number.  So different numbers have different
texts. -/
theorem numbers_are_laid_out :
    (∀ d : Decimal, d.Normal → ∀ s, ∃ n,
      Numeral.read? (Double.signChars s ++ d.displayChars) = some n ∧ n.Shows s d) ∧
    (∀ (x : Double) s m q, x.datum = .finite s m q → m ≠ 0 →
      x.display = String.ofList (Double.signChars s ++ (shortest binary64 m q).displayChars) ∧
      (shortest binary64 m q).Normal ∧
      (Interval.around binary64 m q).Holds (shortest binary64 m q).value) ∧
    ∀ x y : Double, x.FiniteNonzero → y.FiniteNonzero → x ≠ y → x.display ≠ y.display := by
  refine ⟨fun d hd s => hd.displays s, fun x s m q hx hm => ?_, fun x y hx hy hne h => hne ?_⟩
  · have hcanonical := Double.canonical_of_datum hx hm
    exact ⟨Double.display_eq hx hm, normal_shortest hcanonical, holds_shortest hcanonical⟩
  · obtain ⟨s, m, q, hx, hm⟩ := hx
    obtain ⟨t, n, p, hy, hn⟩ := hy
    exact Double.eq_of_display_eq hx hm hy hn h

/-- One, and the next number above it. -/
theorem numbers_are_laid_out_next :
    (∃ n, Numeral.read? "-1.25e-7".toList = some n ∧ n.Shows true ⟨[1, 2, 5], -7⟩) ∧
    (⟨0x3ff0000000000000⟩ : Double).display ≠ (⟨0x3ff0000000000001⟩ : Double).display := by
  obtain ⟨hlayout, -, hapart⟩ := numbers_are_laid_out
  have hnormal : (⟨[1, 2, 5], -7⟩ : Decimal).Normal := ⟨⟨by simp, by simp⟩, by simp, by simp⟩
  refine ⟨hlayout _ hnormal true, hapart _ _ ?_ ?_ (by decide)⟩
  · exact ⟨false, 2 ^ 52, -52, by decide, by decide⟩
  · exact ⟨false, 2 ^ 52 + 1, -52, by decide, by decide⟩

end ModuleHost
