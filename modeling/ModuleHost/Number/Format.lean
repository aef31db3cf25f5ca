/-
Binary floating-point formats, in exact arithmetic on natural numbers.

A word of a format is a natural number: a sign bit, a biased exponent field and
a fraction field.  `unpack` reads a word as a datum, `round` finds the word
nearest to a quotient:

* a finite datum is `± significand · 2 ^ exponent`, so every question about a
  number (its integer part, its order, its decimal text) is one about integers;
* `round` picks the nearest word and, of two equally near ones, the one with the
  even significand; a quotient at or beyond the overflow threshold gives infinity.

Design notes: words rather than machine floats keep every law about numbers
within reach of arithmetic.  `round` relies on the layout of words: stepping the
word by one steps the value to the next representable one, so a carry out of the
significand lands in the exponent field by itself.  Powers are `Nat.pow`, which
`Nat.pow_eq` turns into `^`, so that they do not depend on what else is imported.
-/
namespace ModuleHost

/-- The nearest integer to `n / d`, a tie going to the even neighbour. -/
def roundHalfEven (n d : Nat) : Nat :=
  let quotient := n / d
  let remainder := n % d
  if 2 * remainder < d ∨ (2 * remainder = d ∧ quotient % 2 = 0) then quotient else quotient + 1

/-- `⌊log₂ (n / d)⌋` for positive `n` and `d`. -/
def logQuotient (n d : Nat) : Int :=
  let guess : Int := (Nat.log2 n : Int) - (Nat.log2 d : Int)
  let below : Bool :=
    if 0 ≤ guess then n < d * Nat.pow 2 guess.toNat else n * Nat.pow 2 (-guess).toNat < d
  if below then guess - 1 else guess

/-- What a floating-point word stands for: a finite datum has the value
`± significand · 2 ^ exponent`. -/
inductive Datum where
  | nan
  | infinite (negative : Bool)
  | finite (negative : Bool) (significand : Nat) (exponent : Int)
  deriving DecidableEq, Repr

/-- A binary interchange format, given by the widths of its two fields. -/
structure FloatFormat where
  fractionBits : Nat
  exponentBits : Nat
  deriving DecidableEq, Repr

namespace FloatFormat

/-- The format of 64-bit words. -/
def binary64 : FloatFormat := ⟨52, 11⟩

/-- The format of 32-bit words. -/
def binary32 : FloatFormat := ⟨23, 8⟩

/-- The exponent field of infinities and NaNs. -/
def topField (f : FloatFormat) : Nat := Nat.pow 2 f.exponentBits - 1

/-- The exponent of the last significand bit of the smallest numbers. -/
def minExponent (f : FloatFormat) : Int :=
  2 - (Nat.pow 2 (f.exponentBits - 1) : Nat) - (f.fractionBits : Int)

/-- The word of positive infinity. -/
def infinityWord (f : FloatFormat) : Nat := f.topField * Nat.pow 2 f.fractionBits

/-- The word with only the sign bit set. -/
def signWord (f : FloatFormat) : Nat := Nat.pow 2 (f.fractionBits + f.exponentBits)

/-- Whether the sign bit of a word is set. -/
def negative (f : FloatFormat) (w : Nat) : Bool := w / f.signWord % 2 = 1

/-- The exponent field of a word. -/
def field (f : FloatFormat) (w : Nat) : Nat :=
  w / Nat.pow 2 f.fractionBits % Nat.pow 2 f.exponentBits

/-- The fraction field of a word. -/
def fraction (f : FloatFormat) (w : Nat) : Nat := w % Nat.pow 2 f.fractionBits

/-- The datum a word stands for. -/
def unpack (f : FloatFormat) (w : Nat) : Datum :=
  if f.field w = f.topField then
    if f.fraction w = 0 then .infinite (f.negative w) else .nan
  else if f.field w = 0 then
    .finite (f.negative w) (f.fraction w) f.minExponent
  else
    .finite (f.negative w) (Nat.pow 2 f.fractionBits + f.fraction w) (f.minExponent + f.field w - 1)

/-- The positive word nearest to `n / d`. -/
def round (f : FloatFormat) (n d : Nat) : Nat :=
  if n = 0 then 0
  else
    let exponent : Int := max (logQuotient n d - f.fractionBits) f.minExponent
    let significand :=
      if 0 ≤ exponent then roundHalfEven n (d * Nat.pow 2 exponent.toNat)
      else roundHalfEven (n * Nat.pow 2 (-exponent).toNat) d
    min ((exponent - f.minExponent).toNat * Nat.pow 2 f.fractionBits + significand) f.infinityWord

/-- Put a sign on a positive word. -/
def signed (f : FloatFormat) (negative : Bool) (w : Nat) : Nat :=
  if negative then f.signWord + w else w

/-- The word nearest to `± significand · 2 ^ exponent`. -/
def roundScaled (f : FloatFormat) (negative : Bool) (significand : Nat) (exponent : Int) : Nat :=
  f.signed negative <|
    if 0 ≤ exponent then f.round (significand * Nat.pow 2 exponent.toNat) 1
    else f.round significand (Nat.pow 2 (-exponent).toNat)

end FloatFormat

end ModuleHost
