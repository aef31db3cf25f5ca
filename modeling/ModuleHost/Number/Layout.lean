/-
Two ways to write a number.

* `Double.display`: positional notation while the decimal point stands at most 21
  digits after and fewer than 6 digits before the first digit, else an exponent
  with an explicit sign; integers have no point, both zeros are `0`, and the words
  `NaN` and `Infinity` stand for the rest.
* `Double.literal`: positional with at least one digit after the point from
  `10 ^ -4` up to `10 ^ 16`, else an exponent without a plus sign; the sign of zero
  is kept.

Both write the shortest digits that read back.
-/
import ModuleHost.Number.Double
import ModuleHost.Number.Shortest

namespace ModuleHost

namespace Decimal

/-- Digits as characters. -/
def digitChars (digits : List Nat) : List Char := digits.map Nat.digitChar

/-- A run of zeros. -/
def zeros (n : Nat) : List Char := List.replicate n '0'

/-- An integer in decimal notation. -/
def natChars (n : Nat) : List Char := Nat.toDigits 10 n

/-- Where the decimal point stands, counted from before the first digit. -/
def point (d : Decimal) : Int := d.exponent + 1

/-- The significand of an exponent form: a point follows the first of several digits. -/
def mantissaChars : List Nat → List Char
  | [] => []
  | [d] => digitChars [d]
  | d :: rest => digitChars [d] ++ '.' :: digitChars rest

/-- Positional notation with the point inside or after the digits; `padded` asks for a
digit after the point of a whole number. -/
def positionalChars (d : Decimal) (padded : Bool) : List Char :=
  let k := d.digits.length
  if (k : Int) ≤ d.point then
    digitChars d.digits ++ zeros (d.point - k).toNat ++ (if padded then ['.', '0'] else [])
  else if 0 < d.point then
    digitChars (d.digits.take d.point.toNat) ++ '.' :: digitChars (d.digits.drop d.point.toNat)
  else
    '0' :: '.' :: zeros (-d.point).toNat ++ digitChars d.digits

/-- The layout of `Double.display`. -/
def displayChars (d : Decimal) : List Char :=
  if -6 < d.point ∧ d.point ≤ 21 then d.positionalChars false
  else
    mantissaChars d.digits ++ 'e' :: (if d.exponent < 0 then '-' else '+') ::
      natChars d.exponent.natAbs

/-- The layout of `Double.literal`. -/
def literalChars (d : Decimal) : List Char :=
  if -4 ≤ d.exponent ∧ d.exponent < 16 then d.positionalChars true
  else
    mantissaChars d.digits ++ 'e' :: (if d.exponent < 0 then ['-'] else []) ++
      natChars d.exponent.natAbs

end Decimal

namespace Double

/-- A minus sign for negative numbers. -/
def signChars (negative : Bool) : List Char := if negative then ['-'] else []

/-- The text of a number as a module sees it. -/
def display (x : Double) : String :=
  match x.datum with
  | .nan => "NaN"
  | .infinite negative => if negative then "-Infinity" else "Infinity"
  | .finite _ 0 _ => "0"
  | .finite negative m q =>
    String.ofList (signChars negative ++ (Decimal.shortest .binary64 m q).displayChars)

/-- The text of a number as a literal that tells whole numbers, signs of zero and
special values apart. -/
def literal (x : Double) : String :=
  match x.datum with
  | .nan => "NaN"
  | .infinite negative => if negative then "-inf" else "inf"
  | .finite negative 0 _ => if negative then "-0.0" else "0.0"
  | .finite negative m q =>
    String.ofList (signChars negative ++ (Decimal.shortest .binary64 m q).literalChars)

end Double

end ModuleHost
