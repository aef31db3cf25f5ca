/-
Decoding bytes as UTF-8.

`Utf8.decode` reads every well-formed sequence as its character and replaces each
maximal part of an ill-formed one by a single replacement character: a lead byte
with as many continuation bytes as could still begin a well-formed sequence.
-/
namespace ModuleHost

namespace Utf8

/-- What may follow a lead byte: the number of continuation bytes and the range of the
first of them.  Overlong forms, surrogates and values above `0x10ffff` are excluded by
that range; other bytes lead nothing. -/
def lead? (b : UInt8) : Option (Nat × UInt8 × UInt8) :=
  if 0xc2 ≤ b && b ≤ 0xdf then some (1, 0x80, 0xbf)
  else if b = 0xe0 then some (2, 0xa0, 0xbf)
  else if b = 0xed then some (2, 0x80, 0x9f)
  else if 0xe1 ≤ b && b ≤ 0xef then some (2, 0x80, 0xbf)
  else if b = 0xf0 then some (3, 0x90, 0xbf)
  else if 0xf1 ≤ b && b ≤ 0xf3 then some (3, 0x80, 0xbf)
  else if b = 0xf4 then some (3, 0x80, 0x8f)
  else none

/-- The payload of a lead byte followed by `count` continuation bytes. -/
def leadPayload (b : UInt8) (count : Nat) : Nat := b.toNat % Nat.pow 2 (6 - count)

/-- A sequence that has begun: bytes still wanted, range of the next one, value so far. -/
structure Pending where
  wanted : Nat
  low : UInt8
  high : UInt8
  value : Nat

/-- Begin a new sequence with a byte. -/
def begin (b : UInt8) : List Char × Option Pending :=
  if b < 0x80 then ([Char.ofNat b.toNat], none)
  else
    match lead? b with
    | some (wanted, low, high) => ([], some ⟨wanted, low, high, leadPayload b wanted⟩)
    | none => (['\ufffd'], none)

/-- Add one byte to a sequence; a byte that does not fit ends it and begins the next. -/
def step : Option Pending → UInt8 → List Char × Option Pending
  | none, b => begin b
  | some p, b =>
    if p.low ≤ b && b ≤ p.high then
      let value := p.value * 64 + b.toNat % 64
      if p.wanted = 1 then ([Char.ofNat value], none)
      else ([], some ⟨p.wanted - 1, 0x80, 0xbf, value⟩)
    else
      let (chars, next) := begin b
      ('\ufffd' :: chars, next)

/-- Decode from the middle of a sequence. -/
def decodeFrom : Option Pending → List UInt8 → List Char
  | none, [] => []
  | some _, [] => ['\ufffd']
  | state, b :: rest =>
    let (chars, next) := step state b
    chars ++ decodeFrom next rest

/-- Decode bytes, replacing what is ill-formed. -/
def decode (bytes : List UInt8) : String := String.ofList (decodeFrom none bytes)

/-- The bytes of a string. -/
def encode (s : String) : List UInt8 := s.toUTF8.toList

end Utf8

end ModuleHost
