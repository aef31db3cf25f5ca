/-
Text as a module sees it: a sequence of 16-bit code units.

Unpaired surrogates are kept; only the conversion to a `String` replaces them, one
replacement character for each, so positions do not move.

* `Text.ofString` and `Text.toString` are the UTF-16 encoding of a string and the
  lossy decoding of a text;
* `Text.compare` is the order by code units, in which a proper initial part is smaller.
-/
namespace ModuleHost

/-- A sequence of UTF-16 code units. -/
@[ext]
structure Text where
  units : List UInt16
  deriving DecidableEq, Repr, Inhabited

namespace Text

/-- The first of the two units of a supplementary character. -/
def isHighSurrogate (u : UInt16) : Bool := 0xd800 ≤ u && u < 0xdc00

/-- The second of the two units of a supplementary character. -/
def isLowSurrogate (u : UInt16) : Bool := 0xdc00 ≤ u && u < 0xe000

/-- The code point that two surrogates stand for. -/
def joinSurrogates (high low : UInt16) : Nat :=
  0x10000 + (high.toNat - 0xd800) * 0x400 + (low.toNat - 0xdc00)

/-- The units of a code point; values above `0x10ffff` are not code points. -/
def unitsOf (point : Nat) : List UInt16 :=
  if point < 0x10000 then [UInt16.ofNat point]
  else
    let v := point - 0x10000
    [UInt16.ofNat (0xd800 + v / 0x400), UInt16.ofNat (0xdc00 + v % 0x400)]

/-- The text without units. -/
def empty : Text := ⟨[]⟩

/-- Length in code units. -/
def length (s : Text) : Nat := s.units.length

/-- Whether there are no units. -/
def isEmpty (s : Text) : Bool := s.units.isEmpty

/-- The text of one code unit. -/
def singleton (u : UInt16) : Text := ⟨[u]⟩

/-- The unit at a position. -/
def unit? (s : Text) (i : Nat) : Option UInt16 := s.units[i]?

/-- One text after the other; the other one itself if one of them is empty. -/
def append (s t : Text) : Text :=
  if t.isEmpty then s
  else if s.isEmpty then t
  else ⟨s.units ++ t.units⟩

instance : Append Text := ⟨append⟩

theorem units_append (s t : Text) : (s ++ t).units = s.units ++ t.units := by
  show (append s t).units = _
  obtain ⟨units⟩ := s
  obtain ⟨units'⟩ := t
  cases units <;> cases units' <;> simp [append, isEmpty]

/-- The units from `start` up to `stop`, both cut to the length; the text itself if these are all
of its units. -/
def slice (s : Text) (start stop : Nat) : Text :=
  let stop := min stop s.length
  let start := min start stop
  if start = 0 ∧ stop = s.length then s
  else ⟨(s.units.drop start).take (stop - start)⟩

theorem units_slice (s : Text) (start stop : Nat) :
    (s.slice start stop).units = (s.units.take stop).drop start := by
  have hstop : s.units.take (min stop s.length) = s.units.take stop := by
    rw [List.take_eq_take_iff, length]
    omega
  have hstart : (s.units.take stop).drop (min start (min stop s.length))
      = (s.units.take stop).drop start := by
    rw [List.drop_eq_drop_iff, List.length_take, length]
    omega
  rw [← hstart, ← hstop, slice]
  split
  next hall =>
    obtain ⟨hfirst, hlast⟩ := hall
    rw [hfirst, hlast, length, List.take_length, List.drop_zero]
  next => rw [List.drop_take]

/-- UTF-16 encoding. -/
def ofString (s : String) : Text := ⟨s.toList.flatMap fun c => unitsOf c.toNat⟩

/-- The characters of a run of units, unpaired surrogates replaced. -/
def charsOf : List UInt16 → List Char
  | [] => []
  | [u] => [if isHighSurrogate u || isLowSurrogate u then '\ufffd' else Char.ofNat u.toNat]
  | u :: v :: rest =>
    if isHighSurrogate u then
      if isLowSurrogate v then Char.ofNat (joinSurrogates u v) :: charsOf rest
      else '\ufffd' :: charsOf (v :: rest)
    else if isLowSurrogate u then '\ufffd' :: charsOf (v :: rest)
    else Char.ofNat u.toNat :: charsOf (v :: rest)

/-- The string of a text, unpaired surrogates replaced. -/
def toString (s : Text) : String := String.ofList (charsOf s.units)

/-- Whether no unit is an unpaired surrogate. -/
def isWellFormed (s : Text) : Bool := ofString s.toString = s

/-- Order by code units. -/
def compareUnits : List UInt16 → List UInt16 → Ordering
  | [], [] => .eq
  | [], _ :: _ => .lt
  | _ :: _, [] => .gt
  | a :: s, b :: t => if a < b then .lt else if b < a then .gt else compareUnits s t

/-- Order by code units. -/
def compare (s t : Text) : Ordering := compareUnits s.units t.units

end Text

end ModuleHost
