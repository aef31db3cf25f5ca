/-
Calls of the string builtins.

A builtin that is called with strings and words returns a value or is refused.  Either way the
outcome is the same in every world, and the world stays as it is.  What each call comes to is said
here once; a module sees the builtins through such calls only.

* `TextBuiltin.Returns`, `TextBuiltin.Refuses` — the two outcomes;
* `TextBuiltin.unsigned_word`, `TextBuiltin.unsigned_add`, `TextBuiltin.unsigned_sub` — words as
  unsigned numbers;
* `TextBuiltin.between_eq` — a part of a string, whatever the two indices are.
-/
import Mathlib
import ModuleHost.Session.Linking
import ModuleHost.Session.HostCalls
import ModuleHost.Proofs.Text.Points

namespace ModuleHost

namespace TextBuiltin

/-! ### Words -/

section Words

variable {i j : Int32} {m n : ℕ}

theorem unsigned_lt (i : Int32) : unsigned i < 2 ^ 32 := i.toUInt32.toNat_lt

theorem unsigned_word (hn : n < 2 ^ 32) : unsigned (word n) = n := by
  rw [unsigned, word, Int32.toUInt32_ofNat', UInt32.toNat_ofNat_of_lt' hn]

theorem unsigned_injective (h : unsigned i = unsigned j) : i = j :=
  congrArg Int32.ofUInt32 (UInt32.toNat_inj.mp h)

theorem word_unsigned (i : Int32) : word (unsigned i) = i :=
  unsigned_injective (unsigned_word (unsigned_lt i))

theorem unsigned_add (h : unsigned i + unsigned j < 2 ^ 32) :
    unsigned (i + j) = unsigned i + unsigned j := by
  rw [unsigned, Int32.toUInt32_add, UInt32.toNat_add]
  exact Nat.mod_eq_of_lt h

theorem unsigned_sub (h : unsigned j ≤ unsigned i) :
    unsigned (i - j) = unsigned i - unsigned j := by
  rw [unsigned, Int32.toUInt32_sub]
  exact UInt32.toNat_sub_of_le _ _ (UInt32.le_iff_toNat_le.mpr h)

theorem word_add (hmn : m + n < 2 ^ 32) : word (m + n) = word m + word n := by
  have hm := unsigned_word (n := m) (by omega)
  have hn := unsigned_word (n := n) (by omega)
  refine unsigned_injective ?_
  rw [unsigned_add (by omega), hm, hn, unsigned_word hmn]

theorem toInt_eq (i : Int32) : i.toInt = Int.bmod (unsigned i) (2 ^ 32) :=
  BitVec.toInt_eq_toNat_bmod i.toBitVec

/-- A negative word is a large unsigned number. -/
theorem neg_iff (i : Int32) : i < 0 ↔ 2 ^ 31 ≤ unsigned i := by
  have hi := unsigned_lt i
  rw [Int32.lt_iff_toInt_lt, toInt_eq, Int32.toInt_zero, Int.bmod_def]
  split <;> omega

end Words

/-! ### Outcomes of calls -/

/-- A string, as an argument or a result. -/
def string (s : Text) : Val := .ref (.host (.string s))

/-- A call returns a value, whatever the world, which stays as it is. -/
def Returns (b : TextBuiltin) (args : List Val) (v : Val) : Prop :=
  ∀ {γ : Type}, (b.run args : Act γ (List Val)) = pure [v]

/-- A call is refused, whatever the world, which stays as it is. -/
def Refuses (b : TextBuiltin) (args : List Val) (e : ConversionError) : Prop :=
  ∀ {γ : Type}, (b.run args : Act γ (List Val)) = throw (.marshal e)

variable {b : TextBuiltin} {args : List Val} {v v' : Val} {e : ConversionError}
variable {s : Text} {i p : Int32} {u : UInt16} {n : ℕ}

theorem nonempty_world : Nonempty (World Unit) :=
  ⟨⟨Session.new (.standard .default ⟨[]⟩ true) ⟨true⟩ none, ⟨⟩⟩⟩

/-- A call has one outcome. -/
theorem Returns.unique (h : b.Returns args v) (h' : b.Returns args v') : v = v' := by
  obtain ⟨w⟩ := nonempty_world
  have hrun := congrFun (h.symm.trans h') w
  injection hrun with hvalues
  exact List.head_eq_of_cons_eq hvalues

theorem Returns.not_refuses (h : b.Returns args v) : ¬ b.Refuses args e := by
  intro h'
  obtain ⟨w⟩ := nonempty_world
  have hrun := congrFun (h.symm.trans h') w
  cases hrun

theorem returns_length (s : Text) : length.Returns [string s] (.i32 (word s.length)) := rfl

theorem returns_concat (s t : Text) :
    concat.Returns [string s, string t] (string (s ++ t)) := rfl

theorem returns_substring (s : Text) (start stop : Int32) :
    substring.Returns [string s, .i32 start, .i32 stop] (string (between s start stop)) := rfl

/-- A word that is computed is returned. -/
theorem wordResult_of_ok {γ α : Type} {r : Except ConversionError α} {a : α} (h : r = .ok a)
    (f : α → Int32) :
    HostCall.wordResult (do return f (← Act.orFail r)) = (pure [.i32 (f a)] : Act γ (List Val)) := by
  rw [h]
  rfl

/-- What cannot be computed is refused. -/
theorem wordResult_of_error {γ α : Type} {r : Except ConversionError α} (h : r = .error e)
    (f : α → Int32) :
    HostCall.wordResult (do return f (← Act.orFail r))
      = (throw (.marshal e) : Act γ (List Val)) := by
  rw [h]
  rfl

/-! ### Units -/

theorem returns_charCodeAt (hu : s.unit? (unsigned i) = some u) :
    charCodeAt.Returns [string s, .i32 i] (.i32 (word u.toNat)) := by
  have hunit : unitAt s i = .ok u := by rw [unitAt, hu]
  intro γ
  exact wordResult_of_ok hunit fun u => word u.toNat

theorem refuses_charCodeAt (hi : s.length ≤ unsigned i) :
    charCodeAt.Refuses [string s, .i32 i] (.outOfBounds (unsigned i) 1 s.length) := by
  have hunit : unitAt s i = .error (.outOfBounds (unsigned i) 1 s.length) := by
    rw [unitAt, Text.unit?, List.getElem?_eq_none hi]
  intro γ
  exact wordResult_of_error hunit fun u => word u.toNat

/-- A part of a string is cut out in the same way whatever the two indices are. -/
theorem between_eq (s : Text) (start stop : Int32) :
    between s start stop = s.slice (unsigned start) (unsigned stop) := by
  unfold between
  split
  · rename_i hnone
    have hunits : (s.slice (unsigned start) (unsigned stop)).units = [] := by
      rw [Text.units_slice]
      refine List.drop_eq_nil_of_le ?_
      rw [List.length_take]
      have hlength : s.length = s.units.length := rfl
      omega
    exact Text.ext hunits.symm
  · rfl

/-! ### Code points -/

/-- Reading at an index is reading the first code point of what begins there. -/
theorem pointAt_eq (s : Text) (i : Int32) :
    pointAt s i = match Text.points (s.units.drop (unsigned i)) with
      | [] => .error (.outOfBounds (unsigned i) 1 s.length)
      | p :: _ => .ok p := by
  have hfirst : s.unit? (unsigned i) = (s.units.drop (unsigned i)).head? := by
    rw [Text.unit?, List.head?_drop]
  have hsecond : s.unit? (unsigned i + 1) = (s.units.drop (unsigned i)).tail.head? := by
    rw [Text.unit?, List.tail_drop, List.head?_drop]
  unfold pointAt unitAt
  rw [hfirst, hsecond]
  match s.units.drop (unsigned i) with
  | [] => rfl
  | [u] => rfl
  | u :: v :: rest =>
    show (if Text.isHighSurrogate u && Text.isLowSurrogate v then _ else _) = _
    rw [Text.points]
    split <;> rfl

theorem returns_codePointAt (rest : List ℕ)
    (hn : Text.points (s.units.drop (unsigned i)) = n :: rest) :
    codePointAt.Returns [string s, .i32 i] (.i32 (word n)) := by
  have hpoint : pointAt s i = .ok n := by rw [pointAt_eq, hn]
  intro γ
  exact wordResult_of_ok hpoint word

theorem refuses_codePointAt (hi : s.length ≤ unsigned i) :
    codePointAt.Refuses [string s, .i32 i] (.outOfBounds (unsigned i) 1 s.length) := by
  have hpoint : pointAt s i = .error (.outOfBounds (unsigned i) 1 s.length) := by
    rw [pointAt_eq, List.drop_eq_nil_of_le hi]
    rfl
  intro γ
  exact wordResult_of_error hpoint word

theorem returns_fromCodePoint (hp : unsigned p ≤ 0x10ffff) :
    fromCodePoint.Returns [.i32 p] (string ⟨Text.unitsOf (unsigned p)⟩) := by
  intro γ
  have htext : codePointText p = .ok ⟨Text.unitsOf (unsigned p)⟩ := if_neg (not_lt.mpr hp)
  show HostCall.refResult (do Act.give (.string (← Act.orFail (codePointText p)))) = _
  rw [htext]
  rfl

theorem refuses_fromCodePoint (hp : 0x10ffff < unsigned p) :
    fromCodePoint.Refuses [.i32 p] (.outOfBounds (unsigned p) 1 0x110000) := by
  intro γ
  have htext : codePointText p = .error (.outOfBounds (unsigned p) 1 0x110000) := if_pos hp
  show HostCall.refResult (do Act.give (.string (← Act.orFail (codePointText p)))) = _
  rw [htext]
  rfl

end TextBuiltin

end ModuleHost
