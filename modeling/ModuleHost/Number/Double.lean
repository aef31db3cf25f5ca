/-
Numbers: binary64 (`Double`) and binary32 (`Single`) words and the operations a
host needs on them.

* `Double.same` is numeric equality: a NaN equals nothing, the two zeros are equal;
* `Double.truncate` is the integer part, of finite numbers only;
* `Double.toSingle` and `Single.toDouble` convert between the formats; a NaN keeps
  its sign and the top of its payload and becomes quiet.

Design notes: equality of words (`=`) tells NaN payloads and the two zeros apart
and is what copying preserves; `same` is what comparison sees.
-/
import ModuleHost.Number.Format

namespace ModuleHost

/-- A binary64 number, held as its word. -/
structure Double where
  bits : UInt64
  deriving DecidableEq, Repr, Inhabited

/-- A binary32 number, held as its word. -/
structure Single where
  bits : UInt32
  deriving DecidableEq, Repr, Inhabited

namespace Double

open FloatFormat

/-- The datum of a number. -/
def datum (x : Double) : Datum := binary64.unpack x.bits.toNat

/-- Read a word given as a natural number. -/
def ofWord (w : Nat) : Double := ⟨UInt64.ofNat w⟩

/-- The number nearest to `± significand · 2 ^ exponent`. -/
def ofScaled (negative : Bool) (significand : Nat) (exponent : Int) : Double :=
  ofWord (binary64.roundScaled negative significand exponent)

/-- The number nearest to an integer; zero is positive. -/
def ofInt (n : Int) : Double := ofScaled (n < 0) n.natAbs 0

/-- The number nearest to a natural number. -/
def ofNat (n : Nat) : Double := ofScaled false n 0

/-- Positive zero. -/
def zero : Double := ⟨0⟩

/-- Negative zero. -/
def negZero : Double := ⟨0x8000000000000000⟩

/-- The quiet NaN with an empty payload. -/
def nan : Double := ⟨0x7ff8000000000000⟩

/-- An infinity of the given sign. -/
def infinity (negative : Bool) : Double := ofWord (binary64.signed negative binary64.infinityWord)

/-- Whether the number is a NaN. -/
def isNaN (x : Double) : Bool := x.datum = .nan

/-- Whether the number is one of the two zeros. -/
def isZero (x : Double) : Bool :=
  match x.datum with
  | .finite _ 0 _ => true
  | _ => false

/-- Numeric equality: a NaN equals nothing, and the two zeros are equal. -/
def same (x y : Double) : Bool :=
  !x.isNaN && !y.isNaN && (x.bits = y.bits || (x.isZero && y.isZero))

/-- The integer part of a finite number. -/
def truncate (x : Double) : Option Int :=
  match x.datum with
  | .finite negative m q =>
    let magnitude : Nat := if 0 ≤ q then m * Nat.pow 2 q.toNat else m / Nat.pow 2 (-q).toNat
    some (if negative then -(magnitude : Int) else magnitude)
  | _ => none

/-- A finite number that is a whole number, as that integer. -/
def toInt? (x : Double) : Option Int :=
  match x.datum with
  | .finite negative m q =>
    let whole : Option Nat :=
      if 0 ≤ q then some (m * Nat.pow 2 q.toNat)
      else if m % Nat.pow 2 (-q).toNat = 0 then some (m / Nat.pow 2 (-q).toNat) else none
    whole.map fun n => if negative then -(n : Int) else n
  | _ => none

/-- Quotient by a positive integer, rounded to nearest with ties to even. -/
def divNat (x : Double) (k : Nat) : Double :=
  match x.datum with
  | .nan => nan
  | .infinite s => infinity s
  | .finite s m q =>
    ofWord <| binary64.signed s <|
      if 0 ≤ q then binary64.round (m * Nat.pow 2 q.toNat) k
      else binary64.round m (k * Nat.pow 2 (-q).toNat)

/-- The nearest binary32 number. -/
def toSingle (x : Double) : Single :=
  match x.datum with
  | .nan =>
    let w := x.bits.toNat
    let payload := binary64.fraction w / Nat.pow 2 29 % Nat.pow 2 22
    let word := binary32.infinityWord + Nat.pow 2 22 + payload
    ⟨UInt32.ofNat (binary32.signed (binary64.negative w) word)⟩
  | .infinite s => ⟨UInt32.ofNat (binary32.signed s binary32.infinityWord)⟩
  | .finite s m q => ⟨UInt32.ofNat (binary32.roundScaled s m q)⟩

end Double

namespace Single

open FloatFormat

/-- The datum of a number. -/
def datum (x : Single) : Datum := binary32.unpack x.bits.toNat

/-- Whether the number is a NaN. -/
def isNaN (x : Single) : Bool := x.datum = .nan

/-- The same number in binary64. -/
def toDouble (x : Single) : Double :=
  match x.datum with
  | .nan =>
    let w := x.bits.toNat
    let payload := binary32.fraction w % Nat.pow 2 22
    Double.ofWord <| binary64.signed (binary32.negative w)
      (binary64.infinityWord + Nat.pow 2 51 + payload * Nat.pow 2 29)
  | .infinite s => Double.infinity s
  | .finite s m q => Double.ofScaled s m q

end Single

end ModuleHost
