/-
A string is walked code point by code point.

A module walks a string by asking for the code point at an index and going on behind it, by two
units when the code point is a supplementary one and by one unit otherwise.  It puts a string
together from code points by concatenating the strings of the single ones.  The one undoes the
other: walking meets every code point of a string, unpaired surrogates too, and a list of code
points is found again in its string unless two surrogates in it have become a pair.

* `TextBuiltin.Walk` — the code points that are read from one index to another one;
* `TextBuiltin.Visits` — the walk from the first unit to the end of a string;
* `TextBuiltin.Writes` — a string is put together from code points;
* `strings_are_walked` — the main theorem.

Design notes: an index is a word, so a string can be walked as far as words reach.  What is said of
lists whose strings are longer than that is that the code points within reach are read.
-/
import Mathlib
import ModuleHost.Proofs.Text.Calls

namespace ModuleHost

namespace TextBuiltin

/-! ### Walking and writing -/

/-- How far the next code point is. -/
def stride (p : Int32) : Int32 := if 0x10000 ≤ unsigned p then 2 else 1

/-- The code points that are read from one index to another one. -/
inductive Walk (s : Text) : Int32 → List Int32 → Int32 → Prop where
  | stop (i : Int32) : Walk s i [] i
  | step {i j p : Int32} {ps : List Int32} :
    codePointAt.Returns [string s, .i32 i] (.i32 p) → Walk s (i + stride p) ps j →
    Walk s i (p :: ps) j

/-- A walk from the first unit of a string to its end. -/
def Visits (s : Text) (ps : List Int32) : Prop :=
  ∃ n, length.Returns [string s] (.i32 n) ∧ Walk s 0 ps n

/-- A string is put together from code points. -/
inductive Writes : List Int32 → Text → Prop where
  | nil : Writes [] .empty
  | cons {p : Int32} {ps : List Int32} {first rest s : Text} :
    fromCodePoint.Returns [.i32 p] (string first) → Writes ps rest →
    concat.Returns [string first, string rest] (string s) → Writes (p :: ps) s

variable {s t : Text} {i j p : Int32} {ps qs : List Int32} {us : List UInt16} {n : ℕ} {k : List ℕ}

/-! ### Writing -/

theorem string_injective (h : string s = string t) : s = t := by
  injection h with href
  injection href with hvalue
  injection hvalue

theorem fromCodePoint_returns_iff :
    fromCodePoint.Returns [.i32 p] (string t) ↔
      unsigned p ≤ 0x10ffff ∧ t = ⟨Text.unitsOf (unsigned p)⟩ := by
  constructor
  · intro h
    have hp : unsigned p ≤ 0x10ffff := by
      by_contra hp
      exact h.not_refuses (refuses_fromCodePoint (not_le.mp hp))
    exact ⟨hp, string_injective (h.unique (returns_fromCodePoint hp))⟩
  · rintro ⟨hp, rfl⟩
    exact returns_fromCodePoint hp

/-- The string of code points consists of their units. -/
theorem writes_iff :
    Writes ps s ↔
      (∀ p ∈ ps, unsigned p ≤ 0x10ffff) ∧ s.units = Text.written (ps.map unsigned) := by
  induction ps generalizing s with
  | nil =>
    constructor
    · rintro ⟨⟩
      exact ⟨nofun, rfl⟩
    · rintro ⟨-, hs⟩
      obtain rfl : s = .empty := Text.ext hs
      exact .nil
  | cons p ps ih =>
    rw [List.forall_mem_cons, List.map_cons, Text.written_cons]
    constructor
    · rintro (_ | ⟨hfirst, hrest, hs⟩)
      obtain ⟨hp, rfl⟩ := fromCodePoint_returns_iff.mp hfirst
      obtain ⟨hps, hunits⟩ := ih.mp hrest
      obtain rfl := string_injective (hs.unique (returns_concat _ _))
      refine ⟨⟨hp, hps⟩, ?_⟩
      rw [Text.units_append, ← hunits]
    · rintro ⟨⟨hp, hps⟩, hs⟩
      have hrest : Writes ps ⟨Text.written (ps.map unsigned)⟩ := ih.mpr ⟨hps, rfl⟩
      obtain rfl : s = ⟨Text.unitsOf (unsigned p)⟩ ++ ⟨Text.written (ps.map unsigned)⟩ :=
        Text.ext (hs.trans (Text.units_append _ _).symm)
      exact .cons (returns_fromCodePoint hp) hrest (returns_concat _ _)

/-! ### Walking -/

/-- The next code point is as far as the units of this one reach. -/
theorem stride_word (hn : n ≤ 0x10ffff) : stride (word n) = word (Text.unitsOf n).length := by
  rw [stride, unsigned_word (by omega), Text.length_unitsOf]
  by_cases hlow : n < 0x10000
  · rw [if_neg (by omega), if_pos hlow]
    rfl
  · rw [if_pos (by omega), if_neg hlow]
    rfl

/-- Reading on from a position meets the code points of what begins there.  By induction on the code
points: behind the first one begins what the others are read from. -/
theorem walk_points {k l : List ℕ} (hpoints : Text.points (s.units.drop n) = k ++ l)
    (hreach : n + (Text.written k).length < 2 ^ 32) :
    Walk s (word n) (k.map word) (word (n + (Text.written k).length)) := by
  induction k generalizing n with
  | nil => exact .stop _
  | cons p k ih =>
    have hp : p ≤ 0x10ffff := by
      refine Text.points_le (s.units.drop n) p ?_
      rw [hpoints]
      exact List.mem_cons_self
    rw [Text.written_cons, List.length_append, ← Nat.add_assoc] at hreach ⊢
    have hread : codePointAt.Returns [string s, .i32 (word n)] (.i32 (word p)) := by
      refine returns_codePointAt (k ++ l) ?_
      rw [unsigned_word (by omega)]
      exact hpoints
    refine .step hread ?_
    rw [stride_word hp, ← word_add (by omega)]
    refine ih ?_ hreach
    rw [← List.drop_drop]
    exact Text.points_drop hpoints

/-- A walk that ends where nothing is read any more is the only one. -/
theorem Walk.unique (h : Walk s i ps j) (h' : Walk s i qs j)
    (hend : ∀ v, ¬ codePointAt.Returns [string s, .i32 j] v) : ps = qs := by
  induction h generalizing qs with
  | stop i =>
    cases h' with
    | stop => rfl
    | step hread => exact (hend _ hread).elim
  | step hread hrest ih =>
    cases h' with
    | stop => exact (hend _ hread).elim
    | step hread' hrest' =>
      injection hread.unique hread' with hpoint
      subst hpoint
      rw [ih hrest' hend]

theorem not_returns_codePointAt (hi : s.length ≤ unsigned i) (v : Val) :
    ¬ codePointAt.Returns [string s, .i32 i] v :=
  fun h => h.not_refuses (refuses_codePointAt hi)

theorem map_word_unsigned (ps : List Int32) : (ps.map unsigned).map word = ps := by
  rw [List.map_map]
  exact (List.map_congr_left fun p _ => word_unsigned p).trans (List.map_id ps)

/-- A string is written from the code points that it is read as. -/
theorem writes_points (s : Text) : Writes ((Text.points s.units).map word) s := by
  have hword : ∀ p ∈ Text.points s.units, unsigned (word p) = p := by
    intro p hp
    have hle := Text.points_le s.units p hp
    exact unsigned_word (by omega)
  have hpoints : ((Text.points s.units).map word).map unsigned = Text.points s.units := by
    rw [List.map_map]
    exact (List.map_congr_left hword).trans (List.map_id _)
  refine writes_iff.mpr ⟨?_, ?_⟩
  · refine List.forall_mem_map.mpr fun p hp => ?_
    rw [hword p hp]
    exact Text.points_le s.units p hp
  · rw [hpoints, Text.written_points]

/-- Every string is walked in one way, to its end. -/
theorem visits_iff (hs : s.length < 2 ^ 32) :
    Visits s qs ↔ qs = (Text.points s.units).map word := by
  have hend : ∀ v, ¬ codePointAt.Returns [string s, .i32 (word s.length)] v := by
    refine not_returns_codePointAt ?_
    rw [unsigned_word hs]
  have hwalk : Walk s 0 ((Text.points s.units).map word) (word s.length) := by
    have hlength : 0 + (Text.written (Text.points s.units)).length = s.length := by
      rw [Text.written_points, Nat.zero_add, Text.length]
    have hfrom := walk_points (s := s) (n := 0) (k := Text.points s.units) (l := [])
      (List.append_nil _).symm (by omega)
    rwa [hlength] at hfrom
  constructor
  · rintro ⟨n, hn, hvisit⟩
    obtain rfl : n = word s.length := by
      injection hn.unique (returns_length s)
    exact hvisit.unique hwalk hend
  · rintro rfl
    exact ⟨word s.length, returns_length s, hwalk⟩

/-- Code points that are written one after the other without becoming others. -/
def KeepApart (ps : List Int32) : Prop :=
  ps.IsChain fun p q => ¬ Text.Meet (unsigned p) (unsigned q)

/-- What was written is read as it was. -/
theorem points_of_writes (h : Writes ps s) (hapart : KeepApart ps) :
    Text.points s.units = ps.map unsigned := by
  obtain ⟨hps, hunits⟩ := writes_iff.mp h
  rw [hunits]
  refine Text.points_written (List.forall_mem_map.mpr hps) ?_
  rw [List.isChain_map]
  exact hapart

/-- A list that was written is read as far as words reach. -/
theorem walk_of_writes {before after : List Int32} (h : Writes (before ++ after) s)
    (hapart : KeepApart (before ++ after)) (ht : Writes before t) (hreach : t.length < 2 ^ 32) :
    Walk s 0 before (word t.length) := by
  have hpoints : Text.points (s.units.drop 0) = before.map unsigned ++ after.map unsigned := by
    rw [List.drop_zero, points_of_writes h hapart, List.map_append]
  have hlength : 0 + (Text.written (before.map unsigned)).length = t.length := by
    rw [← (writes_iff.mp ht).2, Nat.zero_add, Text.length]
  have hwalk := walk_points hpoints (by omega)
  rwa [map_word_unsigned, hlength] at hwalk

end TextBuiltin

/-! ### The main theorem -/

open TextBuiltin

/-- Every string whose length is a word is walked to its end in exactly one way, and the code points
that are read there are what the string is written from.  A list of code points without a high
surrogate directly before a low one is written as some string, and then it is what the walk through
that string reads; in a string that is too long for that, whatever is within reach is read.  A
string is made for exactly the code points up to `0x10ffff`. -/
theorem strings_are_walked :
    (∀ s : Text, s.length < 2 ^ 32 → ∃ ps, Writes ps s ∧ ∀ qs, Visits s qs ↔ qs = ps) ∧
    (∀ ps : List Int32, (∀ p ∈ ps, unsigned p ≤ 0x10ffff) → KeepApart ps →
      ∃ s, Writes ps s ∧ (s.length < 2 ^ 32 → ∀ qs, Visits s qs ↔ qs = ps) ∧
        ∀ before after t, ps = before ++ after → Writes before t → t.length < 2 ^ 32 →
          Walk s 0 before (word t.length)) ∧
    ∀ p : Int32,
      ((∃ t, fromCodePoint.Returns [.i32 p] (string t)) ↔ unsigned p ≤ 0x10ffff) ∧
      (fromCodePoint.Refuses [.i32 p] (.outOfBounds (unsigned p) 1 0x110000) ↔
        0x10ffff < unsigned p) := by
  refine ⟨?_, ?_, ?_⟩
  · intro s hs
    exact ⟨_, writes_points s, fun qs => visits_iff hs⟩
  · intro ps hps hapart
    have hwrites : Writes ps ⟨Text.written (ps.map unsigned)⟩ := writes_iff.mpr ⟨hps, rfl⟩
    refine ⟨_, hwrites, ?_, ?_⟩
    · intro hs qs
      rw [visits_iff hs, points_of_writes hwrites hapart, map_word_unsigned]
    · rintro before after t rfl ht hreach
      exact walk_of_writes hwrites hapart ht hreach
  · intro p
    constructor
    · simp [fromCodePoint_returns_iff]
    · constructor
      · intro h
        by_contra hp
        have hreturns : fromCodePoint.Returns [.i32 p] (string ⟨Text.unitsOf (unsigned p)⟩) :=
          returns_fromCodePoint (not_lt.mp hp)
        exact hreturns.not_refuses h
      · exact refuses_fromCodePoint

/-- A smiling face, written as a pair, between surrogates that are in the wrong order. -/
def faced : List Int32 := [0xdc00, 0x1f600, 0xd800]

theorem strings_are_walked_faced :
    ((∀ p ∈ faced, unsigned p ≤ 0x10ffff) ∧ KeepApart faced) ∧
    (∃ s, Writes faced s ∧ s.length = 4 ∧ ∀ qs, Visits s qs ↔ qs = faced) ∧
    ∃ ps, Writes ps ⟨[0xd83d, 0xde00, 0xd83d]⟩ ∧ Visits ⟨[0xd83d, 0xde00, 0xd83d]⟩ ps := by
  have hunsigned : faced.map unsigned = [0xdc00, 0x1f600, 0xd800] := rfl
  have hpoints : ∀ p ∈ faced, unsigned p ≤ 0x10ffff := by
    have h : ∀ n ∈ faced.map unsigned, n ≤ 0x10ffff := by rw [hunsigned]; simp
    exact fun p hp => h _ (List.mem_map_of_mem hp)
  have hapart : KeepApart faced := by
    refine (List.isChain_map (R := fun p q => ¬ Text.Meet p q) unsigned).mp ?_
    rw [hunsigned]
    simp [Text.Meet]
  obtain ⟨hread, hwritten, -⟩ := strings_are_walked
  obtain ⟨s, hs, hvisits, -⟩ := hwritten faced hpoints hapart
  obtain ⟨ps, hps, hvisited⟩ := hread ⟨[0xd83d, 0xde00, 0xd83d]⟩ (by decide)
  have hlength : s.length = 4 := by
    rw [Text.length, (writes_iff.mp hs).2, hunsigned]
    rfl
  exact ⟨⟨hpoints, hapart⟩, ⟨s, hs, hlength, hvisits (by omega)⟩, ps, hps, (hvisited ps).mpr rfl⟩

end ModuleHost
