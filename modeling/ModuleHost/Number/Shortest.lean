/-
The shortest decimal that reads back as a given number.

`Decimal.shortest m q` is, for the number `m · 2 ^ q` of a format, the decimal
with the fewest digits among those that round to the number; of two such
decimals the nearer is taken, and of two equally near ones the larger.

Design notes: the reals that round to a number form an interval, closed when the
significand is even, whose lower half is narrower at a power of two.  If a grid
of `k` digits has a point in the interval, then one of the two grid points that
enclose the number lies in it, so testing those two for `k = 1, 2, …, 17` suffices.
-/
import ModuleHost.Number.Format

namespace ModuleHost

/-- A positive decimal `d₁.d₂d₃… · 10 ^ exponent`, digits from the most significant on. -/
structure Decimal where
  digits : List Nat
  exponent : Int
  deriving DecidableEq, Repr

namespace Decimal

/-- The decimal digits of a natural number, from the most significant on. -/
def digitsOf (n : Nat) : List Nat := (Nat.toDigits 10 n).map fun c => c.toNat - '0'.toNat

/-- Digits without the zeros at their end. -/
def dropTrailingZeros (digits : List Nat) : List Nat :=
  (digits.reverse.dropWhile (· = 0)).reverse

/-- `⌊log₁₀ (n / d)⌋` for positive `n` and `d`. -/
def logQuotient (n d : Nat) : Int :=
  if d ≤ n then (Nat.toDigits 10 (n / d)).length - 1
  else
    let guess := (Nat.toDigits 10 (d / n)).length
    if d ≤ n * Nat.pow 10 (guess - 1) then -(guess - 1 : Nat) else -(guess : Int)

/-- The reals that round to a number: `low / unit` to `high / unit` around
`value / unit`, the ends belonging to it when `closed`. -/
structure Interval where
  value : Nat
  low : Nat
  high : Nat
  unit : Nat
  closed : Bool

/-- The interval of `m · 2 ^ q`, narrower below at a power of two. -/
def Interval.around (f : FloatFormat) (m : Nat) (q : Int) : Interval :=
  let narrow : Bool := m = Nat.pow 2 f.fractionBits ∧ f.minExponent < q
  let scale : Nat := Nat.pow 2 (q - 2).toNat
  { value := 4 * m * scale
    low := (4 * m - if narrow then 1 else 2) * scale
    high := (4 * m + 2) * scale
    unit := Nat.pow 2 (2 - q).toNat
    closed := m % 2 = 0 }

/-- Whether `point · 10 ^ place` lies in the interval. -/
def Interval.contains (i : Interval) (point : Nat) (place : Int) : Bool :=
  let scaled := point * i.unit * Nat.pow 10 place.toNat
  let shift := Nat.pow 10 (-place).toNat
  if i.closed then i.low * shift ≤ scaled ∧ scaled ≤ i.high * shift
  else i.low * shift < scaled ∧ scaled < i.high * shift

/-- The integer part of the number in units of `10 ^ place`. -/
def Interval.floorAt (i : Interval) (place : Int) : Nat :=
  i.value * Nat.pow 10 (-place).toNat / (i.unit * Nat.pow 10 place.toNat)

/-- Whether the number is at least as near to the grid point above `point` as to `point`. -/
def Interval.nearerAbove (i : Interval) (point : Nat) (place : Int) : Bool :=
  (2 * point + 1) * i.unit * Nat.pow 10 place.toNat ≤ 2 * i.value * Nat.pow 10 (-place).toNat

/-- The grid point of `10 ^ place` that stands for the number, if one reads back. -/
def Interval.pick? (i : Interval) (place : Int) : Option Nat :=
  let below := i.floorAt place
  match i.contains below place, i.contains (below + 1) place with
  | true, true => some (if i.nearerAbove below place then below + 1 else below)
  | true, false => some below
  | false, true => some (below + 1)
  | false, false => none

/-- The decimal with significand `point` in units of `10 ^ place`. -/
def ofGrid (point : Nat) (place : Int) : Decimal :=
  let digits := digitsOf point
  { digits := dropTrailingZeros digits, exponent := place + digits.length - 1 }

/-- Try grids of `k`, `k + 1`, … digits, at most `tries` of them. -/
def Interval.search (i : Interval) (top : Int) : (tries k : Nat) → Decimal
  | 0, k => ofGrid (i.floorAt (top - k)) (top - k)
  | tries + 1, k =>
    match i.pick? (top - k) with
    | some point => ofGrid point (top - k)
    | none => i.search top tries (k + 1)

/-- The shortest decimal that reads back as `m · 2 ^ q`, for a positive `m`. -/
def shortest (f : FloatFormat) (m : Nat) (q : Int) : Decimal :=
  let i := Interval.around f m q
  i.search (logQuotient i.value i.unit) 17 0

end Decimal

end ModuleHost
