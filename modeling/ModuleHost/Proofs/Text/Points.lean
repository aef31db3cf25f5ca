/-
Code points of a text.

A text is read as code points from the front: two surrogates that make a pair are one, and every
other unit is one by itself, an unpaired surrogate too.  Writing the code points again gives back
the text.  The characters of a text are its code points with unpaired surrogates replaced, which is
why no position moves.

* `Text.points`, `Text.written` — reading units as code points, and writing code points;
* `Text.written_points` — what was read is written as it was;
* `Text.points_written` — what was written is read as it was, unless two surrogates meet;
* `Text.toString_ofString` — a string survives as a text;
* `Text.isWellFormed_iff`, `Text.length_ofString_toString` — what the way through a string changes.
-/
import Mathlib
import ModuleHost.Text.Units

namespace ModuleHost

namespace Text

/-- The code points of a run of units. -/
def points : List UInt16 → List ℕ
  | [] => []
  | [u] => [u.toNat]
  | u :: v :: rest =>
    if isHighSurrogate u && isLowSurrogate v then joinSurrogates u v :: points rest
    else u.toNat :: points (v :: rest)

/-- The units of code points. -/
def written (ps : List ℕ) : List UInt16 := ps.flatMap unitsOf

/-- A code point that is a surrogate. -/
def IsSurrogate (p : ℕ) : Prop := 0xd800 ≤ p ∧ p < 0xe000

/-- A high and a low surrogate, whose units would be read as one code point. -/
def Meet (p q : ℕ) : Prop := (0xd800 ≤ p ∧ p < 0xdc00) ∧ 0xdc00 ≤ q ∧ q < 0xe000

instance : DecidablePred IsSurrogate := fun _ => inferInstanceAs (Decidable (_ ∧ _))

instance : DecidableRel Meet := fun _ _ => inferInstanceAs (Decidable (_ ∧ _))

variable {u v : UInt16} {us : List UInt16} {p : ℕ} {ps : List ℕ}

/-! ### Surrogates -/

theorem isHighSurrogate_iff : isHighSurrogate u = true ↔ 0xd800 ≤ u.toNat ∧ u.toNat < 0xdc00 := by
  simp [isHighSurrogate, UInt16.le_iff_toNat_le, UInt16.lt_iff_toNat_lt]

theorem isLowSurrogate_iff : isLowSurrogate u = true ↔ 0xdc00 ≤ u.toNat ∧ u.toNat < 0xe000 := by
  simp [isLowSurrogate, UInt16.le_iff_toNat_le, UInt16.lt_iff_toNat_lt]

theorem isSurrogate_toNat :
    IsSurrogate u.toNat ↔ isHighSurrogate u = true ∨ isLowSurrogate u = true := by
  rw [isHighSurrogate_iff, isLowSurrogate_iff, IsSurrogate]
  omega

theorem joinSurrogates_bounds (hu : isHighSurrogate u = true) (hv : isLowSurrogate v = true) :
    0x10000 ≤ joinSurrogates u v ∧ joinSurrogates u v ≤ 0x10ffff := by
  rw [isHighSurrogate_iff] at hu
  rw [isLowSurrogate_iff] at hv
  unfold joinSurrogates
  omega

theorem not_isSurrogate_joinSurrogates (hu : isHighSurrogate u = true)
    (hv : isLowSurrogate v = true) : ¬ IsSurrogate (joinSurrogates u v) := by
  have hbounds := joinSurrogates_bounds hu hv
  unfold IsSurrogate
  omega

/-! ### The units of one code point -/

theorem unitsOf_toNat (u : UInt16) : unitsOf u.toNat = [u] := by
  have hu : u.toNat < 0x10000 := u.toNat_lt
  rw [unitsOf, if_pos hu, UInt16.ofNat_toNat]

/-- A pair of surrogates is read as the code point that it is written for. -/
theorem unitsOf_joinSurrogates (hu : isHighSurrogate u = true) (hv : isLowSurrogate v = true) :
    unitsOf (joinSurrogates u v) = [u, v] := by
  obtain ⟨hlow, -⟩ := joinSurrogates_bounds hu hv
  rw [isHighSurrogate_iff] at hu
  rw [isLowSurrogate_iff] at hv
  have hhigh : 0xd800 + (joinSurrogates u v - 0x10000) / 0x400 = u.toNat := by
    unfold joinSurrogates
    omega
  have hrest : 0xdc00 + (joinSurrogates u v - 0x10000) % 0x400 = v.toNat := by
    unfold joinSurrogates
    omega
  rw [unitsOf, if_neg (not_lt.mpr hlow)]
  simp only [hhigh, hrest, UInt16.ofNat_toNat]

/-- A supplementary code point is written as a pair of surrogates. -/
theorem exists_pair (hlow : 0x10000 ≤ p) (hhigh : p ≤ 0x10ffff) :
    ∃ u v, isHighSurrogate u = true ∧ isLowSurrogate v = true ∧ joinSurrogates u v = p := by
  have hsize : UInt16.size = 0x10000 := rfl
  have hunit : ∀ n < UInt16.size, ∃ u : UInt16, u.toNat = n :=
    fun n hn => ⟨.ofNat n, UInt16.toNat_ofNat_of_lt' hn⟩
  obtain ⟨u, hu⟩ := hunit (0xd800 + (p - 0x10000) / 0x400) (by omega)
  obtain ⟨v, hv⟩ := hunit (0xdc00 + (p - 0x10000) % 0x400) (by omega)
  have hhi : isHighSurrogate u = true := isHighSurrogate_iff.mpr (by omega)
  have hlo : isLowSurrogate v = true := isLowSurrogate_iff.mpr (by omega)
  refine ⟨u, v, hhi, hlo, ?_⟩
  unfold joinSurrogates
  omega

theorem length_unitsOf (p : ℕ) : (unitsOf p).length = if p < 0x10000 then 1 else 2 := by
  unfold unitsOf
  split <;> rfl

/-! ### Reading and writing -/

/-- Whether a unit is read together with the next one. -/
def Pairs (u : UInt16) (us : List UInt16) : Prop :=
  isHighSurrogate u = true ∧ ∃ v, us.head? = some v ∧ isLowSurrogate v = true

theorem points_pair (hu : isHighSurrogate u = true) (hv : isLowSurrogate v = true)
    (us : List UInt16) : points (u :: v :: us) = joinSurrogates u v :: points us := by
  simp [points, hu, hv]

theorem points_single (h : ¬ Pairs u us) : points (u :: us) = u.toNat :: points us := by
  cases us with
  | nil => rfl
  | cons v rest =>
    have hpair : ¬ (isHighSurrogate u && isLowSurrogate v) = true := by
      intro hboth
      rw [Bool.and_eq_true] at hboth
      exact h ⟨hboth.1, v, rfl, hboth.2⟩
    rw [points, if_neg hpair]

/-- Reading from the front, in the two ways to read the first code point. -/
theorem points_cases (u : UInt16) (us : List UInt16) :
    (∃ v rest, us = v :: rest ∧ isHighSurrogate u = true ∧ isLowSurrogate v = true) ∨
      ¬ Pairs u us := by
  by_cases h : Pairs u us
  · obtain ⟨hu, v, hv, hlow⟩ := h
    obtain ⟨rest, rfl⟩ := List.head?_eq_some_iff.mp hv
    exact .inl ⟨v, rest, rfl, hu, hlow⟩
  · exact .inr h

/-- To prove something of all runs of units, read them. -/
theorem points_induction {motive : List UInt16 → Prop} (nil : motive [])
    (pair : ∀ u v rest, isHighSurrogate u = true → isLowSurrogate v = true → motive rest →
      motive (u :: v :: rest))
    (single : ∀ u rest, ¬ Pairs u rest → motive rest → motive (u :: rest)) :
    ∀ us, motive us := by
  intro us
  induction hn : us.length using Nat.strong_induction_on generalizing us with
  | _ n ih =>
    subst hn
    cases us with
    | nil => exact nil
    | cons u us =>
      obtain ⟨v, rest, rfl, hu, hv⟩ | hsingle := points_cases u us
      · exact pair u v rest hu hv (ih _ (by simp) rest rfl)
      · exact single u us hsingle (ih _ (by simp) us rfl)

@[simp]
theorem written_nil : written [] = [] := rfl

theorem written_cons (p : ℕ) (ps : List ℕ) : written (p :: ps) = unitsOf p ++ written ps :=
  List.flatMap_cons

/-- What was read is written as it was. -/
theorem written_points (us : List UInt16) : written (points us) = us := by
  induction us using points_induction with
  | nil => rfl
  | pair u v rest hu hv ih =>
    rw [points_pair hu hv, written_cons, unitsOf_joinSurrogates hu hv, ih]
    rfl
  | single u rest hsingle ih =>
    rw [points_single hsingle, written_cons, unitsOf_toNat, ih]
    rfl

theorem points_le (us : List UInt16) : ∀ p ∈ points us, p ≤ 0x10ffff := by
  induction us using points_induction with
  | nil => exact nofun
  | pair u v rest hu hv ih =>
    rw [points_pair hu hv]
    exact List.forall_mem_cons.mpr ⟨(joinSurrogates_bounds hu hv).2, ih⟩
  | single u rest hsingle ih =>
    have hu : u.toNat < 0x10000 := u.toNat_lt
    rw [points_single hsingle]
    exact List.forall_mem_cons.mpr ⟨by omega, ih⟩

/-- Behind the first code point begins what the others are read from. -/
theorem points_drop (h : points us = p :: ps) : points (us.drop (unitsOf p).length) = ps := by
  cases us with
  | nil => cases h
  | cons u us =>
    obtain ⟨v, rest, rfl, hu, hv⟩ | hsingle := points_cases u us
    · rw [points_pair hu hv] at h
      obtain ⟨rfl, hps⟩ := List.cons_eq_cons.mp h
      rw [unitsOf_joinSurrogates hu hv]
      exact hps
    · rw [points_single hsingle] at h
      obtain ⟨rfl, hps⟩ := List.cons_eq_cons.mp h
      rw [unitsOf_toNat]
      exact hps

/-- A low surrogate in front was written for itself. -/
theorem low_of_head?_written (hps : ∀ p ∈ ps, p ≤ 0x10ffff) (hv : (written ps).head? = some v)
    (hlow : isLowSurrogate v = true) : ps.head? = some v.toNat := by
  cases ps with
  | nil => cases hv
  | cons p ps =>
    rw [written_cons] at hv
    by_cases hp : p < 0x10000
    · rw [unitsOf, if_pos hp] at hv
      cases hv
      rw [List.head?_cons, UInt16.toNat_ofNat_of_lt' hp]
    · -- a pair begins with a high surrogate
      obtain ⟨u, w, hu, hw, rfl⟩ := exists_pair (not_lt.mp hp) (hps p List.mem_cons_self)
      rw [unitsOf_joinSurrogates hu hw] at hv
      cases hv
      rw [isHighSurrogate_iff] at hu
      rw [isLowSurrogate_iff] at hlow
      omega

/-- What was written is read as it was, unless a high surrogate meets a low one. -/
theorem points_written (hps : ∀ p ∈ ps, p ≤ 0x10ffff) (hapart : ps.IsChain (¬ Meet · ·)) :
    points (written ps) = ps := by
  induction ps with
  | nil => rfl
  | cons p ps ih =>
    obtain ⟨hp, hrest⟩ := List.forall_mem_cons.mp hps
    have htail := ih hrest hapart.tail
    rw [written_cons]
    by_cases hlow : p < 0x10000
    · have hunit : (UInt16.ofNat p).toNat = p := UInt16.toNat_ofNat_of_lt' hlow
      have hsingle : ¬ Pairs (UInt16.ofNat p) (written ps) := by
        rintro ⟨hu, v, hv, hvlow⟩
        obtain ⟨rest, rfl⟩ := List.head?_eq_some_iff.mp (low_of_head?_written hrest hv hvlow)
        rw [isHighSurrogate_iff, hunit] at hu
        exact hapart.rel ⟨hu, isLowSurrogate_iff.mp hvlow⟩
      rw [unitsOf, if_pos hlow, List.singleton_append, points_single hsingle, hunit, htail]
    · obtain ⟨u, v, hu, hv, rfl⟩ := exists_pair (not_lt.mp hlow) hp
      rw [unitsOf_joinSurrogates hu hv]
      show points (u :: v :: written ps) = _
      rw [points_pair hu hv, htail]

/-- Without surrogates nothing can meet. -/
theorem points_written_of_not_isSurrogate (hps : ∀ p ∈ ps, p ≤ 0x10ffff)
    (hplain : ∀ p ∈ ps, ¬ IsSurrogate p) : points (written ps) = ps := by
  refine points_written hps (List.Pairwise.isChain (List.pairwise_of_forall_mem_list ?_))
  intro p hp q _ hmeet
  refine hplain p hp ?_
  unfold Meet at hmeet
  unfold IsSurrogate
  omega

/-! ### Characters -/

/-- The character that stands for a code point. -/
def charOf (p : ℕ) : Char := if IsSurrogate p then '\ufffd' else Char.ofNat p

/-- The characters of a run of units are those of its code points. -/
theorem charsOf_eq (us : List UInt16) : charsOf us = (points us).map charOf := by
  induction us using points_induction with
  | nil => rfl
  | pair u v rest hu hv ih =>
    rw [points_pair hu hv, List.map_cons, ← ih, charsOf, if_pos hu, if_pos hv, charOf,
      if_neg (not_isSurrogate_joinSurrogates hu hv)]
  | single u rest hsingle ih =>
    rw [points_single hsingle, List.map_cons, ← ih]
    have hchar : charOf u.toNat = if isHighSurrogate u || isLowSurrogate u then '\ufffd'
        else Char.ofNat u.toNat := by
      rw [charOf]
      refine if_congr ?_ rfl rfl
      rw [isSurrogate_toNat, Bool.or_eq_true]
    rw [hchar]
    cases rest with
    | nil => rfl
    | cons v rest =>
      by_cases hu : isHighSurrogate u = true
      · have hv : ¬ isLowSurrogate v = true := fun hv => hsingle ⟨hu, v, rfl, hv⟩
        simp [charsOf, hu, hv]
      · by_cases hv : isLowSurrogate u = true
        · simp [charsOf, hu, hv]
        · simp [charsOf, hu, hv]

/-- What a string keeps of a code point. -/
def replaced (p : ℕ) : ℕ := if IsSurrogate p then 0xfffd else p

theorem replaced_eq_self_iff : replaced p = p ↔ ¬ IsSurrogate p := by
  by_cases hp : IsSurrogate p
  · have hne : 0xfffd ≠ p := fun h => absurd hp (h ▸ by decide)
    simp [replaced, hp, hne]
  · simp [replaced, hp]

theorem not_isSurrogate_replaced (p : ℕ) : ¬ IsSurrogate (replaced p) := by
  unfold replaced
  split
  · decide
  · assumption

theorem toNat_charOf (hp : p ≤ 0x10ffff) :
    (charOf p).toNat = replaced p := by
  unfold charOf replaced
  split
  · rfl
  · rename_i hne
    unfold IsSurrogate at hne
    have hvalid : p.isValidChar := by
      unfold Nat.isValidChar
      omega
    rw [Char.ofNat, dif_pos hvalid]
    rfl

/-- A character is a code point and no surrogate. -/
theorem toNat_bounds (c : Char) : c.toNat ≤ 0x10ffff ∧ ¬ IsSurrogate c.toNat := by
  have hvalid := c.valid
  unfold UInt32.isValidChar Nat.isValidChar at hvalid
  unfold IsSurrogate
  show c.val.toNat ≤ 0x10ffff ∧ ¬ (0xd800 ≤ c.val.toNat ∧ c.val.toNat < 0xe000)
  omega

theorem charOf_toNat (c : Char) : charOf c.toNat = c := by
  rw [charOf, if_neg (toNat_bounds c).2, Char.ofNat_toNat]

theorem units_ofString (x : String) : (ofString x).units = written (x.toList.map Char.toNat) := by
  rw [written, List.flatMap_map]
  rfl

/-- A string survives as a text. -/
theorem toString_ofString (x : String) : (ofString x).toString = x := by
  have hpoints : points (ofString x).units = x.toList.map Char.toNat := by
    rw [units_ofString]
    refine points_written_of_not_isSurrogate ?_ ?_
    · exact List.forall_mem_map.mpr fun c _ => (toNat_bounds c).1
    · exact List.forall_mem_map.mpr fun c _ => (toNat_bounds c).2
  have hchars : charOf ∘ Char.toNat = id := funext charOf_toNat
  rw [toString, charsOf_eq, hpoints, List.map_map, hchars, List.map_id, String.ofList_toList]

/-- The units of a text that went through a string. -/
theorem units_ofString_toString (s : Text) :
    (ofString s.toString).units = written ((points s.units).map replaced) := by
  rw [units_ofString, toString, String.toList_ofList, charsOf_eq, List.map_map]
  refine congrArg written (List.map_congr_left fun p hp => ?_)
  exact toNat_charOf (points_le s.units p hp)

theorem length_written_map_replaced (ps : List ℕ) :
    (written (ps.map replaced)).length = (written ps).length := by
  induction ps with
  | nil => rfl
  | cons p ps ih =>
    have hunits : (unitsOf (replaced p)).length = (unitsOf p).length := by
      by_cases hp : IsSurrogate p
      · rw [replaced, if_pos hp, length_unitsOf, length_unitsOf, if_pos (by decide), if_pos]
        exact hp.2.trans (by decide)
      · rw [replaced_eq_self_iff.mpr hp]
    rw [List.map_cons, written_cons, written_cons, List.length_append, List.length_append, hunits,
      ih]

/-- No position moves. -/
theorem length_ofString_toString (s : Text) : (ofString s.toString).length = s.length := by
  rw [length, units_ofString_toString, length_written_map_replaced, written_points, length]

/-- A text is well formed if none of its code points is a surrogate. -/
theorem isWellFormed_iff (s : Text) :
    s.isWellFormed = true ↔ ∀ p ∈ points s.units, ¬ IsSurrogate p := by
  have hreplaced : s.isWellFormed = true ↔ written ((points s.units).map replaced) = s.units := by
    rw [isWellFormed, decide_eq_true_eq, ← units_ofString_toString]
    exact ⟨congrArg units, Text.ext⟩
  have hsame : (points s.units).map replaced = points s.units
      ↔ ∀ p ∈ points s.units, ¬ IsSurrogate p := by
    have hmap := List.map_eq_map_iff (f := replaced) (g := id) (l := points s.units)
    rw [List.map_id] at hmap
    exact hmap.trans (forall₂_congr fun p _ => replaced_eq_self_iff)
  rw [hreplaced, ← hsame]
  constructor
  · intro h
    have hle : ∀ p ∈ (points s.units).map replaced, p ≤ 0x10ffff :=
      List.forall_mem_map.mpr fun p hp => by
        rw [← toNat_charOf (points_le _ p hp)]
        exact (toNat_bounds _).1
    have hplain : ∀ p ∈ (points s.units).map replaced, ¬ IsSurrogate p :=
      List.forall_mem_map.mpr fun p _ => not_isSurrogate_replaced p
    -- what was replaced is read as it is, so it is what the text was read as
    have hread := points_written_of_not_isSurrogate hle hplain
    rw [h] at hread
    exact hread.symm
  · intro h
    rw [h, written_points]

end Text

end ModuleHost
