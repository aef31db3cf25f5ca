/-
Strings are put together and cut apart unit by unit.

A module sees its strings through the string builtins only: it asks for a length, for the unit at an
index, for two strings as one and for a part of a string.  Indices are words, read as unsigned
numbers, so a negative one is beyond every string.

* `TextBuiltin.ShowAlike` — two strings show the same unit;
* `TextBuiltin.Joins` — a string shows the units of two others, one after the other;
* `TextBuiltin.Cuts` — a string shows the units of another one between two indices;
* `strings_are_cut_and_joined` — the main theorem.
-/
import Mathlib
import ModuleHost.Proofs.Text.Calls

namespace ModuleHost

namespace TextBuiltin

variable {a b c s t : Text} {i j start stop : Int32}

/-! ### What a module is shown -/

/-- Two strings show the same unit, each at an index of its own. -/
def ShowAlike (s : Text) (i : Int32) (t : Text) (j : Int32) : Prop :=
  ∃ u, charCodeAt.Returns [string s, .i32 i] u ∧ charCodeAt.Returns [string t, .i32 j] u

/-- A string shows nothing at an index. -/
def ShowsNothing (s : Text) (i : Int32) : Prop :=
  charCodeAt.Refuses [string s, .i32 i] (.outOfBounds (unsigned i) 1 s.length)

/-- A string shows the units of two others, one after the other. -/
structure Joins (a b c : Text) : Prop where
  length : c.length = a.length + b.length
  /-- The lengths that a module is told add up, too. -/
  word_length : word c.length = word a.length + word b.length
  first : ∀ i, unsigned i < a.length → ShowAlike c i a i
  second : ∀ i, a.length ≤ unsigned i → unsigned i < a.length + b.length →
    ShowAlike c i b (i - word a.length)
  beyond : ∀ i, a.length + b.length ≤ unsigned i → ShowsNothing c i

/-- A string shows the units of another one between two indices. -/
structure Cuts (s : Text) (start stop : Int32) (t : Text) : Prop where
  length : t.length = min (unsigned stop) s.length - unsigned start
  unit : ∀ i, unsigned i < t.length → ShowAlike t i s (start + i)
  beyond : ∀ i, t.length ≤ unsigned i → ShowsNothing t i
  /-- Nothing is left of a string when the first index is not before the second one. -/
  empty : unsigned stop ≤ unsigned start ∨ s.length ≤ unsigned start → t = .empty

theorem showAlike_of_unit?_eq (hi : unsigned i < s.length)
    (h : s.unit? (unsigned i) = t.unit? (unsigned j)) : ShowAlike s i t j := by
  have hu : s.unit? (unsigned i) = some s.units[unsigned i] := List.getElem?_eq_getElem hi
  exact ⟨_, returns_charCodeAt hu, returns_charCodeAt (h ▸ hu)⟩

/-! ### Putting together -/

theorem length_append (a b : Text) : (a ++ b).length = a.length + b.length := by
  rw [Text.length, Text.units_append, List.length_append, Text.length, Text.length]

theorem joins_append (ha : a.length < 2 ^ 31) (hb : b.length < 2 ^ 31) : Joins a b (a ++ b) where
  length := length_append a b
  word_length := by
    rw [length_append]
    exact word_add (by omega)
  first i hi := by
    refine showAlike_of_unit?_eq ?_ ?_
    · rw [length_append]
      omega
    · rw [Text.unit?, Text.units_append, List.getElem?_append_left hi, Text.unit?]
  second i hlow hhigh := by
    have hword : unsigned (word a.length) = a.length := unsigned_word (by omega)
    have hindex : unsigned (i - word a.length) = unsigned i - a.length := by
      rw [unsigned_sub (by omega), hword]
    refine showAlike_of_unit?_eq ?_ ?_
    · rw [length_append]
      exact hhigh
    · rw [Text.unit?, Text.units_append, List.getElem?_append_right hlow, hindex]
      rfl
  beyond i hi := by
    refine refuses_charCodeAt ?_
    rw [length_append]
    exact hi

/-! ### Cutting apart -/

theorem length_slice (s : Text) (start stop : ℕ) :
    (s.slice start stop).length = min stop s.length - start := by
  rw [Text.length, Text.units_slice, List.length_drop, List.length_take, Text.length]

/-- A unit of a part is a unit of the whole. -/
theorem unit?_slice {start stop n : ℕ} (hn : n < (s.slice start stop).length) :
    (s.slice start stop).unit? n = s.unit? (start + n) := by
  rw [length_slice] at hn
  rw [Text.unit?, Text.units_slice, List.getElem?_drop, List.getElem?_take_of_lt (by omega), Text.unit?]

theorem cuts_between (hs : s.length < 2 ^ 31) (start stop : Int32) :
    Cuts s start stop (between s start stop) := by
  rw [between_eq]
  have hlength := length_slice s (unsigned start) (unsigned stop)
  refine ⟨hlength, ?_, fun i hi => refuses_charCodeAt hi, ?_⟩
  · intro i hi
    have hindex : unsigned (start + i) = unsigned start + unsigned i := unsigned_add (by omega)
    refine showAlike_of_unit?_eq hi ?_
    rw [unit?_slice hi, hindex]
  · intro hempty
    have hzero : (s.slice (unsigned start) (unsigned stop)).units = [] := by
      refine List.eq_nil_of_length_eq_zero ?_
      show (s.slice (unsigned start) (unsigned stop)).length = 0
      omega
    exact Text.ext hzero

/-- Beyond the end of a string it makes no difference where a part ends. -/
theorem slice_of_length_le {stop : ℕ} (h : s.length ≤ stop) (start : ℕ) :
    s.slice start stop = s.slice start s.length := by
  apply Text.ext
  rw [Text.units_slice, Text.units_slice, List.take_of_length_le h, Text.length, List.take_length]

theorem slice_append_slice (s : Text) (k : ℕ) : s.slice 0 k ++ s.slice k s.length = s := by
  apply Text.ext
  rw [Text.units_append, Text.units_slice, Text.units_slice, List.drop_zero, Text.length,
    List.take_length, List.take_append_drop]

end TextBuiltin

/-! ### The main theorem -/

open TextBuiltin

/-- The string builtins agree with each other.  The length that a module is told is that of the
string.  Two strings that are put together show their units one after the other and nothing beyond
them.  A part of a string shows the units between two indices, whatever words these are; a negative
second index stands for the end of the string.  And a string that is cut in two anywhere is put
together again from the two parts. -/
theorem strings_are_cut_and_joined {a b s : Text} (ha : a.length < 2 ^ 31) (hb : b.length < 2 ^ 31)
    (hs : s.length < 2 ^ 31) :
    (∀ t : Text, t.length < 2 ^ 32 → length.Returns [string t] (.i32 (word t.length)) ∧
      unsigned (word t.length) = t.length) ∧
    (∃ c, concat.Returns [string a, string b] (string c) ∧ Joins a b c) ∧
    (∀ start stop, ∃ t, substring.Returns [string s, .i32 start, .i32 stop] (string t) ∧
      Cuts s start stop t) ∧
    (∀ start stop v, stop < 0 → (substring.Returns [string s, .i32 start, .i32 stop] v ↔
      substring.Returns [string s, .i32 start, .i32 (word s.length)] v)) ∧
    ∀ k, ∃ x y,
      substring.Returns [string s, .i32 0, .i32 k] x ∧
      substring.Returns [string s, .i32 k, .i32 (word s.length)] y ∧
      concat.Returns [x, y] (string s) := by
  have hword : unsigned (word s.length) = s.length := unsigned_word (by omega)
  refine ⟨fun t ht => ⟨returns_length t, unsigned_word ht⟩,
    ⟨a ++ b, returns_concat a b, joins_append ha hb⟩,
    fun start stop => ⟨_, returns_substring s start stop, cuts_between hs start stop⟩, ?_, ?_⟩
  · intro start stop v hstop
    have hsame : between s start stop = between s start (word s.length) := by
      rw [neg_iff] at hstop
      rw [between_eq, between_eq, hword]
      exact slice_of_length_le (by omega) _
    have hstart : substring.Returns [string s, .i32 start, .i32 stop]
        (string (between s start (word s.length))) := hsame ▸ returns_substring s start stop
    have hend : substring.Returns [string s, .i32 start, .i32 (word s.length)]
        (string (between s start (word s.length))) := returns_substring s start (word s.length)
    constructor
    · intro h
      rw [h.unique hstart]
      exact hend
    · intro h
      rw [h.unique hend]
      exact hstart
  · intro k
    refine ⟨_, _, returns_substring s 0 k, returns_substring s k (word s.length), ?_⟩
    have hwhole : between s 0 k ++ between s k (word s.length) = s := by
      rw [between_eq, between_eq, hword]
      exact slice_append_slice s (unsigned k)
    have hjoined : concat.Returns [string (between s 0 k), string (between s k (word s.length))]
        (string (between s 0 k ++ between s k (word s.length))) := returns_concat _ _
    rwa [hwhole] at hjoined

/-- A string that ends in an unpaired surrogate. -/
def cutShort : Text := ⟨[0x6c, 0x6f, 0xd83d]⟩

theorem strings_are_cut_and_joined_cutShort :
    cutShort.length < 2 ^ 31 ∧ (Text.singleton 0xde00).length < 2 ^ 31 ∧
    (∃ c, concat.Returns [string cutShort, string (.singleton 0xde00)] (string c) ∧
      ShowAlike c 3 (.singleton 0xde00) 0) ∧
    (∃ t, substring.Returns [string cutShort, .i32 1, .i32 (-1)] (string t) ∧ t.length = 2 ∧
      ShowAlike t 1 cutShort 2) ∧
    ∃ x y, substring.Returns [string cutShort, .i32 0, .i32 2] x ∧
      substring.Returns [string cutShort, .i32 2, .i32 3] y ∧
      concat.Returns [x, y] (string cutShort) := by
  have hshort : cutShort.length < 2 ^ 31 := by decide
  have hsingle : (Text.singleton 0xde00).length < 2 ^ 31 := by decide
  obtain ⟨-, ⟨c, hc, hjoins⟩, hparts, -, hwhole⟩ :=
    strings_are_cut_and_joined hshort hsingle hshort
  obtain ⟨t, ht, hcuts⟩ := hparts 1 (-1)
  have hlength : t.length = 2 := hcuts.length
  exact ⟨hshort, hsingle, ⟨c, hc, hjoins.second 3 (by decide) (by decide)⟩,
    ⟨t, ht, hlength, hcuts.unit 1 (by rw [hlength]; decide)⟩, hwhole 2⟩

end ModuleHost
