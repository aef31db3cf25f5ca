/-
Numbers as bytes.

* `leBytes` and `ofLeBytes` are the little-endian form of a word of given width;
* `Element.word` converts a number to the word that a typed array stores: integers
  modulo two to the width, clamped ones to the nearest byte with ties to even;
* `Element.number` reads such a word back;
* `Scalar` is the type of a data view access, in either byte order.
-/
import ModuleHost.Number.Arithmetic
import ModuleHost.Value.Kind

namespace ModuleHost

/-- The `width` low bytes of a number, the least significant first. -/
def leBytes : (width n : Nat) → List UInt8
  | 0, _ => []
  | width + 1, n => UInt8.ofNat n :: leBytes width (n / 256)

/-- The number of these bytes, the least significant first. -/
def ofLeBytes : List UInt8 → Nat
  | [] => 0
  | b :: rest => b.toNat + 256 * ofLeBytes rest

/-- The bytes of a word, the least significant first, in the order of a machine; or the other way
round. -/
def inOrder (littleEndian : Bool) (bytes : List UInt8) : List UInt8 :=
  if littleEndian then bytes else bytes.reverse

/-- The bytes of so many words of `width` bytes, each the least significant first, in the order of
a machine; or the other way round. -/
def swapWords (littleEndian : Bool) (width : Nat) : (count : Nat) → List UInt8 → List UInt8
  | 0, bytes => bytes
  | count + 1, bytes =>
    inOrder littleEndian (bytes.take width) ++ swapWords littleEndian width count (bytes.drop width)

/-- The signed reading of a word of `width` bytes. -/
def signedWord (width n : Nat) : Int := Int.bmod n (Nat.pow 2 (8 * width))

namespace Double

/-- The integer part modulo `2 ^ 32`; infinities and NaNs give zero. -/
def wrapped (x : Double) : Nat :=
  if !x.isFinite then 0
  else (x.trunc.remEuclid (ofNat (Nat.pow 2 32))).toWord 32

/-- The whole number nearest to a number that is not negative, a tie going to the even one. -/
def nearest (x : Double) : Double :=
  let floor := x.floor
  let difference := x.sub floor
  let half := ofScaled false 1 (-1)
  if half.lt difference then floor.add (ofNat 1)
  else if difference.lt half || (floor.rem (ofNat 2)).same zero then floor
  else floor.add (ofNat 1)

/-- The nearest integer in `0 … 255`, a tie going to the even one; a NaN gives zero. -/
def clamped (x : Double) : Nat :=
  if x.isNaN || x.le zero then 0
  else if (ofNat 255).le x then 255
  else x.nearest.toWord 8

end Double

namespace Element

/-- The word that stores a number. -/
def word (e : Element) (x : Double) : Nat :=
  match e with
  | uint8Clamped => x.clamped
  | float32 => x.toSingle.bits.toNat
  | float64 => x.bits.toNat
  | e => x.wrapped % Nat.pow 2 (8 * e.width)

/-- The number that a word stores. -/
def number (e : Element) (w : Nat) : Double :=
  match e with
  | float32 => (Single.mk (UInt32.ofNat w)).toDouble
  | float64 => Double.ofWord w
  | e => if e.isSigned then Double.ofInt (signedWord e.width w) else Double.ofNat w

/-- The bytes that store a number on a machine of the given byte order. -/
def encode (littleEndian : Bool) (e : Element) (x : Double) : List UInt8 :=
  inOrder littleEndian (leBytes e.width (e.word x))

/-- The number that bytes store on a machine of the given byte order. -/
def decode (littleEndian : Bool) (e : Element) (bytes : List UInt8) : Double :=
  e.number (ofLeBytes (inOrder littleEndian bytes))

end Element

/-- Type of a value read or written through a data view. -/
inductive Scalar where
  | int8 | uint8 | int16 | uint16 | int32 | uint32 | bigInt64 | bigUint64 | float32 | float64
  deriving DecidableEq, Repr

namespace Scalar

/-- Every scalar type. -/
def all : List Scalar :=
  [int8, uint8, int16, uint16, int32, uint32, bigInt64, bigUint64, float32, float64]

/-- Width in bytes. -/
def width : Scalar → Nat
  | int8 | uint8 => 1
  | int16 | uint16 => 2
  | int32 | uint32 | float32 => 4
  | bigInt64 | bigUint64 | float64 => 8

/-- Whether the values are signed integers. -/
def isSigned : Scalar → Bool
  | int8 | int16 | int32 | bigInt64 => true
  | _ => false

/-- The bytes of a word in the given byte order. -/
def encode (t : Scalar) (littleEndian : Bool) (w : Nat) : List UInt8 :=
  inOrder littleEndian (leBytes t.width w)

/-- The word of bytes in the given byte order. -/
def decode (littleEndian : Bool) (bytes : List UInt8) : Nat :=
  ofLeBytes (inOrder littleEndian bytes)

/-- The integer that a word of this type stands for. -/
def integer (t : Scalar) (w : Nat) : Int := if t.isSigned then signedWord t.width w else w

end Scalar

end ModuleHost
