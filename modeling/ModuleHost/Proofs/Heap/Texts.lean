/-
Texts of arrays and objects that hold each other.

Both texts of a value, the one that is printed and the diagnostic one, are renderings: an array that
is printed is empty inside itself, and the diagnostic form of an array or object has `[...]` for a
body there.  Everything else is written in full wherever it occurs.

* `Heap.displaying`, `Heap.describing` — the two renderings;
* `Heap.displayIn_eq`, `Heap.describeIn_eq` — the texts are theirs;
* `cyclic_values_are_written` — the main theorem.
-/
import Mathlib
import ModuleHost.Value.Display
import ModuleHost.Proofs.Heap.Handles
import ModuleHost.Proofs.Value.Rendering

namespace ModuleHost

namespace Heap

variable {h : Heap} {id : ℕ}

/-! ### The two renderings -/

/-- Printing: arrays are joined, and undefined and null elements are left out. -/
def displaying (h : Heap) : Rendering ℕ where
  opens
    | .array id => some id
    | _ => none
  items id := (h.elements id).map fun v =>
    match v with
    | .undefined | .null => none
    | v => some v
  leaf := h.displayIn 0 []
  inside _ := ""
  join _ := ",".intercalate

/-- The diagnostic form, of arrays and objects. -/
def describing (h : Heap) : Rendering Target where
  opens
    | .array id => some (.array id)
    | .object id => some (.object id)
    | _ => none
  items
    | .array id => (h.elements id).map some
    | .object id => (h.properties id).map fun p => some p.2
    | _ => []
  leaf := h.describeIn 0 []
  inside
    | .array _ => "Array([...])"
    | _ => "Object([...])"
  join
    | .array _, texts => bracketed "Array([" texts "])"
    | .object id, texts =>
      bracketed "Object(\x7b"
        ((h.properties id).zipWith (fun p text => Quoted.string p.1.toString ++ ": " ++ text) texts)
        "\x7d)"
    | _, _ => ""

theorem displayIn_eq : ∀ (fuel : ℕ) (joining : List ℕ) (v : Value),
    h.displayIn fuel joining v = h.displaying.text fuel joining v := by
  intro fuel
  induction fuel with
  | zero =>
    intro joining v
    cases v <;> rfl
  | succ fuel ih =>
    intro joining v
    cases v with
    | array id =>
      show (if joining.contains id = true then "" else ",".intercalate _)
        = if id ∈ joining then "" else ",".intercalate _
      refine if_congr List.contains_iff_mem rfl (congrArg _ ?_)
      rw [Rendering.texts, displaying, List.map_map]
      refine List.map_congr_left fun v _ => ?_
      cases v <;> first | rfl | exact ih _ _
    | _ => rfl

theorem describeIn_eq : ∀ (fuel : ℕ) (writing : List Target) (v : Value),
    h.describeIn fuel writing v = h.describing.text fuel writing v := by
  intro fuel
  induction fuel with
  | zero =>
    intro writing v
    cases v <;> rfl
  | succ fuel ih =>
    intro writing v
    cases v with
    | array id =>
      show (if writing.contains (.array id) = true then _ else bracketed "Array([" _ "])")
        = if .array id ∈ writing then _ else bracketed "Array([" _ "])"
      refine if_congr List.contains_iff_mem rfl (congrArg (bracketed "Array([" · "])") ?_)
      rw [Rendering.texts, describing, List.map_map]
      exact List.map_congr_left fun v _ => ih _ v
    | object id =>
      show (if writing.contains (.object id) = true then _ else bracketed "Object(\x7b" _ "\x7d)")
        = if .object id ∈ writing then _ else bracketed "Object(\x7b" _ "\x7d)"
      refine if_congr List.contains_iff_mem rfl (congrArg (bracketed "Object(\x7b" · "\x7d)") ?_)
      rw [Rendering.texts, describing, List.map_map, List.zipWith_map_right, List.zipWith_self]
      exact List.map_congr_left fun p _ =>
        congrArg (Quoted.string p.1.toString ++ ": " ++ ·) (ih _ p.2)
    | _ => rfl

/-! ### Whatever holds items is alive -/

theorem elements_of_le (ha : h.arrays.Sound) (hid : h.arrays.next ≤ id) : h.elements id = [] := by
  have hdead : ∀ values, h.arrays.get? id ≠ some values := fun values hget =>
    absurd (ha.fresh (Pool.isLive_iff_get?.mpr ⟨values, hget⟩)) (not_lt.mpr hid)
  rw [elements, Option.eq_none_iff_forall_ne_some.mpr hdead]
  rfl

theorem properties_of_le (ho : h.objects.Sound) (hid : h.objects.next ≤ id) :
    h.properties id = [] := by
  have hdead : ∀ props, h.objects.get? id ≠ some props := fun props hget =>
    absurd (ho.fresh (Pool.isLive_iff_get?.mpr ⟨props, hget⟩)) (not_lt.mpr hid)
  rw [properties, Option.eq_none_iff_forall_ne_some.mpr hdead]
  rfl

theorem hasNodes_displaying (ha : h.arrays.Sound) :
    h.displaying.HasNodes (Finset.range h.arrays.next) := by
  intro id hid
  rw [Finset.mem_range, not_lt] at hid
  show (h.elements id).map _ = []
  rw [elements_of_le ha hid, List.map_nil]

/-- The arrays and objects of a heap. -/
def containers (h : Heap) : Finset Target :=
  (Finset.range h.arrays.next).image .array ∪ (Finset.range h.objects.next).image .object

theorem card_containers (h : Heap) : h.containers.card ≤ h.arrays.next + h.objects.next := by
  have harrays := Finset.card_image_le (s := Finset.range h.arrays.next) (f := Target.array)
  have hobjects := Finset.card_image_le (s := Finset.range h.objects.next) (f := Target.object)
  rw [Finset.card_range] at harrays hobjects
  exact (Finset.card_union_le _ _).trans (Nat.add_le_add harrays hobjects)

theorem hasNodes_describing (ha : h.arrays.Sound) (ho : h.objects.Sound) :
    h.describing.HasNodes h.containers := by
  intro t ht
  rw [containers, Finset.mem_union, not_or] at ht
  cases t with
  | array id =>
    have hid : h.arrays.next ≤ id := not_lt.mp fun hlt =>
      ht.1 (Finset.mem_image_of_mem _ (Finset.mem_range.mpr hlt))
    show (h.elements id).map some = []
    rw [elements_of_le ha hid, List.map_nil]
  | object id =>
    have hid : h.objects.next ≤ id := not_lt.mp fun hlt =>
      ht.2 (Finset.mem_image_of_mem _ (Finset.mem_range.mpr hlt))
    show (h.properties id).map _ = []
    rw [properties_of_le ho hid, List.map_nil]
  | _ => rfl

/-! ### The texts with a stack -/

/-- The printed text of a value inside arrays that are being joined, with fuel for a whole heap. -/
def displayWithin (h : Heap) : List ℕ → Value → String := h.displayIn (h.arrays.next + 1)

/-- The diagnostic form of a value inside arrays and objects that are being written, likewise. -/
def describeWithin (h : Heap) : List Target → Value → String :=
  h.describeIn (h.arrays.next + h.objects.next + 1)

theorem correct_displaying (ha : h.arrays.Sound) : h.displaying.Correct h.displayWithin := by
  have htext : h.displayWithin = h.displaying.text (h.arrays.next + 1) :=
    funext fun joining => funext fun v => displayIn_eq _ joining v
  rw [htext]
  refine Rendering.correct (hasNodes_displaying ha) ?_
  rw [Finset.card_range]
  exact Nat.lt_succ_self _

theorem correct_describing (ha : h.arrays.Sound) (ho : h.objects.Sound) :
    h.describing.Correct h.describeWithin := by
  have htext : h.describeWithin = h.describing.text (h.arrays.next + h.objects.next + 1) :=
    funext fun writing => funext fun v => describeIn_eq _ writing v
  rw [htext]
  exact Rendering.correct (hasNodes_describing ha ho) (Nat.lt_succ_of_le h.card_containers)

end Heap

/-! ### The main theorem -/

/-- Arrays and objects that hold each other in whatever way are written to the end, with the stack
left as it was: what is on it is cut short, everything else is written in full wherever it occurs,
and without cycles the texts are those of writing without a stack.  That is so of the printed text,
where an array inside itself is empty, and of the diagnostic form, where the body of an array or
object inside itself is `[...]`. -/
theorem cyclic_values_are_written {h : Heap} (ha : h.arrays.Sound) (ho : h.objects.Sound) :
    h.displaying.Correct h.displayWithin ∧
    (∀ v, (∃ s, v = .string s ∧ h.display v = s) ∨
      h.display v = .ofString (h.displayWithin [] v)) ∧
    (∀ joining, ∀ id ∈ joining, h.displayWithin joining (.array id) = "") ∧
    h.describing.Correct h.describeWithin ∧
    (∀ v, h.describe v = h.describeWithin [] v) ∧
    (∀ writing id, .array id ∈ writing → h.describeWithin writing (.array id) = "Array([...])") ∧
    ∀ writing id, .object id ∈ writing →
      h.describeWithin writing (.object id) = "Object([...])" := by
  have hdisplaying := Heap.correct_displaying ha
  have hdescribing := Heap.correct_describing ha ho
  refine ⟨hdisplaying, fun v => ?_, fun joining id hid => hdisplaying.inside rfl hid, hdescribing,
    fun v => rfl, fun writing id hid => hdescribing.inside rfl hid,
    fun writing id hid => hdescribing.inside rfl hid⟩
  cases v with
  | string s => exact .inl ⟨s, rfl, rfl⟩
  | _ => exact .inr rfl

/-- An array that holds itself and another array, which holds it as well. -/
def knotted : Pool (List Value) :=
  (((Pool.empty.alloc []).2.alloc []).2.set 0 [.bool true, .array 0, .array 1]).set 1
    [.array 0, .undefined, .bool false]

def knot : Heap := { Heap.empty true with arrays := knotted }

theorem cyclic_values_are_written_knot :
    (knot.arrays.Sound ∧ knot.objects.Sound) ∧
    (∃ enough, ∀ fuel ≥ enough,
      knot.displaying.run fuel (.array 0) [] = some ("true,,,,false", [])) ∧
    ∃ enough, ∀ fuel ≥ enough, knot.describing.run fuel (.array 1) []
      = some ("Array([Array([Bool(true), Array([...]), Array([...])]), Undefined, Bool(false)])",
        []) := by
  have ha : knotted.Sound := by
    unfold knotted
    exact Pool.sound_empty.alloc.alloc.set.set
  have ho : knot.objects.Sound := Pool.sound_empty
  obtain ⟨hdisplaying, -, -, hdescribing, -⟩ := cyclic_values_are_written ha ho
  exact ⟨⟨ha, ho⟩, hdisplaying.terminates [] (.array 0), hdescribing.terminates [] (.array 1)⟩

end ModuleHost
