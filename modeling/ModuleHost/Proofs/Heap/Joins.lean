/-
Texts of arrays and of their elements.

An array that is not inside itself is printed as its elements are, with commas in between.  It is a
string that is put together, and a string has no unpaired surrogates: those of an element that is a
text are replaced, while the same text is printed as it is when it is not in an array.

* `Text.joined` — texts with commas in between;
* `Heap.printed` — what an element adds;
* `Heap.display_array` — the text of an array, put together from texts;
* `arrays_are_joined` — the main theorem.
-/
import Mathlib
import ModuleHost.Proofs.Heap.Pool
import ModuleHost.Proofs.Heap.Texts
import ModuleHost.Proofs.Text.Points

namespace ModuleHost

/-! ### Texts with commas in between -/

namespace Text

/-- Texts with commas in between. -/
def joined (ts : List Text) : Text := ⟨[0x2c].intercalate (ts.map units)⟩

variable {t t' : Text} {ts : List Text}

@[simp]
theorem joined_nil : joined [] = empty := by
  rw [joined, List.map_nil, List.intercalate_nil, empty]

@[simp]
theorem joined_singleton (t : Text) : joined [t] = t := by
  rw [joined, List.map_singleton, List.intercalate_singleton]

theorem units_joined_cons (hts : ts ≠ []) :
    (joined (t :: ts)).units = t.units ++ 0x2c :: (joined ts).units := by
  obtain ⟨t', rest, rfl⟩ := List.exists_cons_of_ne_nil hts
  show [0x2c].intercalate (t.units :: t'.units :: rest.map units) = _
  rw [List.intercalate_cons_cons, List.append_assoc]
  rfl

theorem units_ofString_append (x y : String) :
    (ofString (x ++ y)).units = (ofString x).units ++ (ofString y).units := by
  rw [ofString, String.toList_append, List.flatMap_append]
  rfl

/-- Strings may be joined before or after they are made texts. -/
theorem ofString_intercalate (xs : List String) :
    ofString (",".intercalate xs) = joined (xs.map ofString) := by
  induction xs with
  | nil => simp [ofString, empty]
  | cons x xs ih =>
    by_cases hxs : xs = []
    · simp [hxs]
    · have hcomma : (ofString ",").units = [0x2c] := rfl
      apply Text.ext
      rw [String.intercalate_cons_of_ne_nil hxs, List.map_cons,
        units_joined_cons (mt List.map_eq_nil_iff.mp hxs), units_ofString_append,
        units_ofString_append, ih, hcomma, List.append_assoc, List.singleton_append]

/-- Texts of the same lengths are told apart when they are joined. -/
theorem joined_map_inj {α : Type} {f g : α → Text} {l : List α}
    (hlength : ∀ a ∈ l, (f a).length = (g a).length) :
    joined (l.map f) = joined (l.map g) ↔ ∀ a ∈ l, f a = g a := by
  refine ⟨fun h => ?_, fun h => congrArg joined (List.map_congr_left h)⟩
  induction l with
  | nil => exact nofun
  | cons a l ih =>
    obtain ⟨ha, hrest⟩ := List.forall_mem_cons.mp hlength
    by_cases hl : l = []
    · simpa [hl] using h
    · have hne (k : α → Text) : l.map k ≠ [] := mt List.map_eq_nil_iff.mp hl
      have hunits := congrArg units h
      rw [List.map_cons, List.map_cons, units_joined_cons (hne f), units_joined_cons (hne g)]
        at hunits
      -- the first texts are of one length, so they end at the same comma
      obtain ⟨hfirst, hothers⟩ := List.append_inj hunits ha
      exact List.forall_mem_cons.mpr ⟨Text.ext hfirst,
        ih hrest (Text.ext (List.cons_eq_cons.mp hothers).2)⟩

end Text

namespace Heap

variable {h : Heap} {id t t' : ℕ} {v : Value}

/-! ### Arrays in arrays -/

theorem within_iff : h.displaying.Within t t' ↔ .array t' ∈ h.elements t := by
  constructor
  · rintro ⟨u, hu, hopened⟩
    obtain ⟨v, hv, hitem⟩ := List.mem_map.mp hu
    cases v with
    | undefined | null => cases hitem
    | array t₀ =>
      cases hitem
      cases hopened
      exact hv
    | _ =>
      cases hitem
      cases hopened
  · exact fun hmem => ⟨.array t', List.mem_map.mpr ⟨_, hmem, rfl⟩, rfl⟩

/-- Arrays that hold older ones only are not inside themselves. -/
theorem not_within_self (hold : ∀ t t', .array t' ∈ h.elements t → t' < t) (id : ℕ) :
    ¬ Relation.TransGen h.displaying.Within id id := by
  have hless {t t' : ℕ} (hin : Relation.TransGen h.displaying.Within t t') : t' < t := by
    induction hin with
    | single hin => exact hold _ _ (within_iff.mp hin)
    | tail _ hin ih => exact (hold _ _ (within_iff.mp hin)).trans ih
  exact fun hin => lt_irrefl id (hless hin)

/-! ### What an element adds -/

/-- What an element adds to the text of an array: its own text, and nothing if it is undefined or
null. -/
def printed (h : Heap) : Value → Text
  | .undefined | .null => .empty
  | v => h.display v

/-- Only a text that is an element loses something on the way through a string. -/
theorem ofString_printed :
    .ofString (h.printed v).toString = h.printed v
      ↔ ∀ s, v = .string s → ∀ p ∈ Text.points s.units, ¬ Text.IsSurrogate p := by
  cases v with
  | string s => simp [printed, display, ← Text.isWellFormed_iff, Text.isWellFormed]
  | undefined | null =>
    refine iff_of_true rfl fun s hs => ?_
    cases hs
  | _ =>
    refine iff_of_true (congrArg Text.ofString (Text.toString_ofString _)) fun s hs => ?_
    cases hs

/-- The text of an array that is not inside itself. -/
theorem display_array (ha : h.arrays.Sound)
    (hid : ¬ Relation.TransGen h.displaying.Within id id) :
    h.display (.array id)
      = Text.joined ((h.elements id).map fun v => .ofString (h.printed v).toString) := by
  have hcorrect := correct_displaying ha
  have hitems : Rendering.texts (h.displayWithin [id]) (h.displaying.items id)
      = (h.elements id).map fun v => (h.printed v).toString := by
    have hempty : Rendering.texts (h.displayWithin [id]) (h.displaying.items id)
        = Rendering.texts (h.displayWithin []) (h.displaying.items id) := by
      -- the array is reached from none of its elements, so they are written as they are outside it
      refine Rendering.texts_congr fun u hu => hcorrect.unaffected fun t ht hmem => hid ?_
      obtain rfl := List.mem_singleton.mp hmem
      exact ht.within hu
    rw [hempty, Rendering.texts, displaying, List.map_map]
    refine List.map_congr_left fun v _ => ?_
    cases v with
    | undefined | null | string => rfl
    | _ => exact (Text.toString_ofString _).symm
  show Text.ofString (h.displayWithin [] (.array id)) = _
  rw [hcorrect.full rfl List.not_mem_nil, hitems]
  exact (Text.ofString_intercalate _).trans (congrArg _ (List.map_map ..))

end Heap

/-! ### The main theorem -/

/-- An array that is not inside itself is printed as its elements with commas in between, each of
them as a string.  So it is printed as what its elements add exactly when none of them is a text
with an unpaired surrogate; and an array of one element is then printed as that element. -/
theorem arrays_are_joined {h : Heap} (ha : h.arrays.Sound) {id : ℕ}
    (hid : ¬ Relation.TransGen h.displaying.Within id id) :
    h.display (.array id)
      = Text.joined ((h.elements id).map fun v => .ofString (h.printed v).toString) ∧
    (h.display (.array id) = Text.joined ((h.elements id).map h.printed) ↔
      ∀ s, .string s ∈ h.elements id → ∀ p ∈ Text.points s.units, ¬ Text.IsSurrogate p) ∧
    ∀ v, h.elements id = [v] → (h.display (.array id) = h.printed v ↔
      ∀ s, v = .string s → ∀ p ∈ Text.points s.units, ¬ Text.IsSurrogate p) := by
  have htext := Heap.display_array ha hid
  refine ⟨htext, ?_, fun v hv => ?_⟩
  · rw [htext, Text.joined_map_inj fun v _ => Text.length_ofString_toString _]
    simp only [Heap.ofString_printed]
    exact ⟨fun hall s hs => hall _ hs s rfl, fun hall v hv s hs => hall s (hs ▸ hv)⟩
  · rw [htext, hv, List.map_singleton, Text.joined_singleton, Heap.ofString_printed]

/-- An array in an array, with elements of several kinds. -/
def nested : Heap :=
  { Heap.empty true with
    arrays := ((Pool.empty.alloc [.string (.ofString "x"), .null]).2.alloc
      [.bool true, .undefined, .array 0, .string (.ofString "é")]).2 }

theorem elements_nested (t : ℕ) :
    nested.elements t = if 1 = t then [.bool true, .undefined, .array 0, .string (.ofString "é")]
      else if 0 = t then [.string (.ofString "x"), .null] else [] := by
  rw [nested, Heap.elements, Pool.get?_alloc, Pool.get?_alloc, Pool.next_alloc]
  show Option.getD (if 1 = t then _ else if 0 = t then _ else none) [] = _
  split
  · rfl
  · split <;> rfl

theorem arrays_are_joined_nested :
    (nested.arrays.Sound ∧ ¬ Relation.TransGen nested.displaying.Within 1 1) ∧
    nested.display (.array 1)
      = Text.joined [.ofString "true", .empty, nested.display (.array 0), .ofString "é"] := by
  have ha : nested.arrays.Sound := Pool.sound_empty.alloc.alloc
  have hid : ¬ Relation.TransGen nested.displaying.Within 1 1 := by
    refine Heap.not_within_self (fun t t' hmem => ?_) 1
    rw [elements_nested] at hmem
    split at hmem
    · simp at hmem
      omega
    · split at hmem <;> simp at hmem
  refine ⟨⟨ha, hid⟩, (arrays_are_joined ha hid).2.1.mpr fun s hs => ?_⟩
  rw [elements_nested, if_pos rfl] at hs
  obtain rfl : s = .ofString "é" := by simpa using hs
  decide

/-- An array of one half of a pair. -/
def halved : Heap :=
  { Heap.empty true with arrays := (Pool.empty.alloc [.string ⟨[0xd83d]⟩]).2 }

/-- The text is printed as it is, and the array with a replacement character. -/
theorem array_replaces_surrogate :
    (halved.arrays.Sound ∧ ¬ Relation.TransGen halved.displaying.Within 0 0) ∧
    halved.elements 0 = [.string ⟨[0xd83d]⟩] ∧
    halved.display (.string ⟨[0xd83d]⟩) = ⟨[0xd83d]⟩ ∧
    halved.display (.array 0) = ⟨[0xfffd]⟩ ∧
    halved.display (.array 0) ≠ Text.joined ((halved.elements 0).map halved.printed) := by
  have helements : halved.elements 0 = [.string ⟨[0xd83d]⟩] := rfl
  have hdisplay : halved.display (.array 0) = ⟨[0xfffd]⟩ := by decide +kernel
  refine ⟨⟨Pool.sound_empty.alloc, ?_⟩, helements, rfl, hdisplay, ?_⟩
  · intro hid
    obtain ⟨t, hmem, -⟩ := Relation.TransGen.head'_iff.mp hid
    rw [Heap.within_iff, helements] at hmem
    simp at hmem
  · rw [hdisplay, helements]
    simp [Heap.printed, Heap.display]

end ModuleHost
