/-
Binary64 arithmetic, one operation at a time.

An operation gives the number nearest to the exact result, a tie going to the even one.  A
comparison with a NaN fails.

* `Double.trunc` and `Double.floor` are the whole numbers next to a number, towards zero and below;
* `Double.add`, `Double.sub`, `Double.rem` and `Double.remEuclid` are sum, difference and the two
  remainders, with the sign of the dividend and without a sign;
* `Double.lt` and `Double.le` compare numbers;
* `Double.toWord` converts a number to an unsigned word and cuts it to the range of the word.
-/
import ModuleHost.Number.Double

namespace ModuleHost

/-- The number `± m · 2 ^ q` counted in units of `2 ^ low`, for a `low` that is not above `q`. -/
def unitsAt (low : Int) (negative : Bool) (m : Nat) (q : Int) : Int :=
  let units : Int := (m * Nat.pow 2 (q - low).toNat : Nat)
  if negative then -units else units

namespace Datum

/-- The datum with the opposite sign. -/
def neg : Datum → Datum
  | nan => nan
  | infinite s => infinite !s
  | finite s m q => finite (!s) m q

/-- The datum without its sign. -/
def abs : Datum → Datum
  | nan => nan
  | infinite _ => infinite false
  | finite _ m q => finite false m q

end Datum

namespace Double

/-- Whether the number is neither an infinity nor a NaN. -/
def isFinite (x : Double) : Bool :=
  match x.datum with
  | .finite .. => true
  | _ => false

/-- The whole number next to the number on the side of zero. -/
def trunc (x : Double) : Double :=
  match x.datum with
  | .finite s m q => if 0 ≤ q then x else ofScaled s (m / Nat.pow 2 (-q).toNat) 0
  | _ => x

/-- The greatest whole number that is not above the number. -/
def floor (x : Double) : Double :=
  match x.datum with
  | .finite s m q =>
    if 0 ≤ q then x
    else ofScaled s ((if s then -(m : Int) else m) / (Nat.pow 2 (-q).toNat : Nat)).natAbs 0
  | _ => x

/-- The number nearest to the sum of two data. -/
def ofSum : Datum → Datum → Double
  | .nan, _ | _, .nan => nan
  | .infinite s, .infinite t => if s = t then infinity s else nan
  | .infinite s, _ | _, .infinite s => infinity s
  | .finite s m p, .finite t n q =>
    let low := min p q
    let sum := unitsAt low s m p + unitsAt low t n q
    if sum = 0 then (if s && t then negZero else zero)
    else ofScaled (sum < 0) sum.natAbs low

/-- Sum of two numbers. -/
def add (x y : Double) : Double := ofSum x.datum y.datum

/-- Difference of two numbers. -/
def sub (x y : Double) : Double := ofSum x.datum y.datum.neg

/-- What is left of a number after its whole multiples of another one; it has the sign of the
number. -/
def rem (x y : Double) : Double :=
  match x.datum, y.datum with
  | .nan, _ | _, .nan | .infinite _, _ => nan
  | .finite .., .infinite _ => x
  | .finite s m p, .finite _ n q =>
    let low := min p q
    if n = 0 then nan
    else ofScaled s ((m * Nat.pow 2 (p - low).toNat) % (n * Nat.pow 2 (q - low).toNat)) low

/-- Whether a number is below another one. -/
def lt (x y : Double) : Bool :=
  match x.datum, y.datum with
  | .nan, _ | _, .nan => false
  | .infinite s, .infinite t => s && !t
  | .infinite s, .finite .. => s
  | .finite .., .infinite t => !t
  | .finite s m p, .finite t n q => unitsAt (min p q) s m p < unitsAt (min p q) t n q

/-- Whether a number is below another one or the same. -/
def le (x y : Double) : Bool := x.lt y || x.same y

/-- What is left of a number after whole multiples of another one, from zero on. -/
def remEuclid (x y : Double) : Double :=
  let r := x.rem y
  if r.lt zero then ofSum r.datum y.datum.abs else r

/-- The integer part as a word of `width` bits, the nearest word if it is out of range; a NaN gives
zero. -/
def toWord (width : Nat) (x : Double) : Nat :=
  match x.datum with
  | .nan => 0
  | .infinite s => if s then 0 else Nat.pow 2 width - 1
  | .finite .. => min (x.truncate.getD 0).toNat (Nat.pow 2 width - 1)

end Double

end ModuleHost
