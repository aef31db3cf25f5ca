/-
Objects are maps that keep their order.

An object starts without properties, and nothing but its own edits changes them, whatever else is
done in between and to what else.  So as long as it is alive, what it says is what its edits say.

* `Heap.LeavesObject` — what leaves the properties of an object alone;
* `Heap.properties_objectSet`, `Heap.properties_objectDelete` — what an edit does to them;
* `Desk.edits`, `Desk.properties_after` — the edits of an object in a run, and what they leave;
* `HostCall.AnswersFor` — what a module is told about an object;
* `objects_are_ordered_maps` — the main theorem.

Design notes: storing gives up what was stored before, and that may free the object itself if it was
the only one to hold on to itself.  So it is always said of an object that is alive afterwards.
-/
import Mathlib
import ModuleHost.Session.HostCalls
import ModuleHost.Proofs.Heap.Properties
import ModuleHost.Proofs.Watch.Reports

namespace ModuleHost

/-! ### Cells that are left alone -/

namespace Pool

variable {α : Type} {p q r : Pool α} {a b : α} {i j : ℕ}

/-- A cell is what it was as long as it is alive, or it is a fresh one with this content. -/
structure Leaves (i : ℕ) (a : α) (p q : Pool α) : Prop where
  next_le : p.next ≤ q.next
  get? : ∀ x, q.get? i = some x → p.get? i = some x ∨ p.next ≤ i ∧ x = a

theorem Leaves.refl : Leaves i a p p := ⟨le_rfl, fun _ => .inl⟩

theorem Leaves.trans (h₁ : Leaves i a p q) (h₂ : Leaves i a q r) : Leaves i a p r where
  next_le := h₁.next_le.trans h₂.next_le
  get? x hx := by
    obtain hx | ⟨hi, rfl⟩ := h₂.get? x hx
    · exact h₁.get? x hx
    · exact .inr ⟨h₁.next_le.trans hi, rfl⟩

theorem Leaves.retain : Leaves i a p (p.retain j) where
  next_le := le_of_eq next_retain.symm
  get? x hx := .inl (by rwa [get?_retain] at hx)

theorem Leaves.release : Leaves i a p (p.release j).2 where
  next_le := le_of_eq next_release.symm
  get? _ hx := .inl (get?_release_of_some hx)

theorem Leaves.alloc : Leaves i a p (p.alloc a).2 where
  next_le := Nat.le_succ _
  get? x hx := by
    rw [get?_alloc] at hx
    split at hx
    · rename_i hi
      exact .inr ⟨hi.le, (Option.some.inj hx).symm⟩
    · exact .inl hx

theorem Leaves.set (hji : j ≠ i) : Leaves i a p (p.set j b) where
  next_le := le_of_eq next_set.symm
  get? x hx := .inl (by rwa [get?_set, if_neg hji] at hx)

end Pool

namespace Heap

variable {h h' h'' : Heap} {o q : ℕ} {k l : Text} {v : Value} {t : Target}

/-- The properties of an object are what they were as long as it is alive, or it is a fresh one
without properties. -/
def LeavesObject (o : ℕ) (h h' : Heap) : Prop := h.objects.Leaves o [] h'.objects

namespace LeavesObject

theorem of_eq (he : h'.objects = h.objects) : LeavesObject o h h' := by
  rw [LeavesObject, he]
  exact .refl

theorem refl : LeavesObject o h h := .of_eq rfl

theorem trans (h₁ : LeavesObject o h h') (h₂ : LeavesObject o h' h'') : LeavesObject o h h'' :=
  Pool.Leaves.trans h₁ h₂

theorem retainTarget (t : Target) : LeavesObject o h (h.retainTarget t) := by
  rcases t with i | i | i | (i | ⟨k, i⟩) | i | i | i
  case object => exact Pool.Leaves.retain
  case function.wrapper => cases k <;> exact .of_eq rfl
  all_goals exact .of_eq rfl

theorem releaseTarget (t : Target) : LeavesObject o h (h.releaseTarget t).2 := by
  rcases t with i | i | i | (i | ⟨k, i⟩) | i | i | i
  case object => exact Pool.Leaves.release
  case function.wrapper => cases k <;> exact .of_eq rfl
  all_goals exact .of_eq rfl

theorem retain (v : Value) : LeavesObject o h (h.retain v) :=
  retain_keeps (fun t hs => hs.trans (.retainTarget t)) v .refl

theorem retainAll (vs : List Value) : LeavesObject o h (h.retainAll vs) :=
  retainAll_keeps (fun t hs => hs.trans (.retainTarget t)) vs .refl

theorem release (v : Value) : LeavesObject o h (h.release v) :=
  release_keeps (fun t hs => hs.trans (.releaseTarget t)) v .refl

theorem releaseAll (vs : List Value) : LeavesObject o h (h.releaseAll vs) :=
  releaseAll_keeps (fun t hs => hs.trans (.releaseTarget t)) vs .refl

theorem setElements (array : ℕ) (vs : List Value) :
    LeavesObject o h (h.setElements array vs) := .of_eq rfl

theorem setProperties (hqo : q ≠ o) (props : List (Text × Value)) :
    LeavesObject o h (h.setProperties q props) := Pool.Leaves.set hqo

theorem setWatchCells (r : ℕ) (cells : List WatchCell) :
    LeavesObject o h (h.setWatchCells r cells) := by
  unfold Heap.setWatchCells
  split <;> exact .of_eq rfl

theorem register (r : ℕ) (target held : Value) (token : Option Value) :
    LeavesObject o h ((h.register r target held token).toOption.getD h) := by
  rw [register_eq]
  cases WatchCell.of? target held token with
  | none => exact .refl
  | some c => exact (retain held).trans (.setWatchCells r _)

theorem unregister (r : ℕ) (token : Value) :
    LeavesObject o h (((h.unregister r token).toOption.map (·.2)).getD h) := by
  rw [unregister_eq]
  cases token.weak? with
  | none => exact .refl
  | some k => exact (setWatchCells r _).trans (.releaseAll _)

end LeavesObject

theorem properties_of_not_live (hl : h.objects.isLive o = false) : h.properties o = [] := by
  rw [properties, Pool.get?_eq_none_iff.mpr hl]
  rfl

theorem properties_fresh (hs : h.PoolsSound) (ho : h.objects.next ≤ o) : h.properties o = [] := by
  refine properties_of_not_live (Bool.eq_false_iff.mpr fun hl => ?_)
  have hlt := hs.objects.fresh hl
  omega

/-- What leaves an object alone leaves it its properties. -/
theorem LeavesObject.properties (hle : LeavesObject o h h') (hs : h.PoolsSound)
    (hl : h'.objects.isLive o = true) : h'.properties o = h.properties o := by
  obtain ⟨x, hx⟩ := Pool.isLive_iff_get?.mp hl
  obtain hg | ⟨ho, rfl⟩ := hle.get? x hx
  · rw [Heap.properties, Heap.properties, hx, hg]
  · rw [properties_fresh hs ho, Heap.properties, hx]
    rfl

/-! ### What an edit does -/

theorem objects_get?_of_releaseTarget {x : List (Text × Value)} (t : Target)
    (hx : (h.releaseTarget t).2.objects.get? o = some x) : h.objects.get? o = some x := by
  rcases t with i | i | i | (i | ⟨k, i⟩) | i | i | i
  case object => exact Pool.get?_release_of_some hx
  case function.wrapper => cases k <;> exact hx
  all_goals exact hx

theorem objects_get?_of_releaseAll {x : List (Text × Value)} (vs : List Value)
    (hx : (h.releaseAll vs).objects.get? o = some x) : h.objects.get? o = some x :=
  releaseAll_keeps (P := fun a => ∀ x, a.objects.get? o = some x → h.objects.get? o = some x)
    (fun t ha x hx => ha x (objects_get?_of_releaseTarget t hx)) vs (fun _ => id) x hx

/-- What is stored stays, and what is given up with it changes no object that is still alive. -/
theorem properties_releaseAll_setProperties {props : List (Text × Value)} (vs : List Value)
    (hl : ((h.setProperties o props).releaseAll vs).objects.isLive o = true) :
    ((h.setProperties o props).releaseAll vs).properties o = props := by
  obtain ⟨x, hx⟩ := Pool.isLive_iff_get?.mp hl
  have hset := objects_get?_of_releaseAll vs hx
  rw [setProperties, Pool.get?_set, if_pos rfl] at hset
  obtain ⟨-, -, hprops⟩ := Option.map_eq_some_iff.mp hset
  rw [properties, hx, ← hprops]
  rfl

theorem properties_objectSet (hl : (h.objectSet o k v).objects.isLive o = true) :
    (h.objectSet o k v).properties o = (Edit.set k v).apply (h.properties o) := by
  refine (properties_releaseAll_setProperties
    [(h.objectGet? o k).getD .undefined] (h := h.retain v) hl).trans ?_
  rw [properties_retain]
  rfl

/-- Storing makes nothing alive. -/
theorem isLive_of_objectSet (hl : (h.objectSet o k v).objects.isLive o = true) :
    h.objects.isLive o = true := by
  obtain ⟨x, hx⟩ := Pool.isLive_iff_get?.mp hl
  have hset := objects_get?_of_releaseAll [(h.objectGet? o k).getD .undefined]
    (h := (h.retain v).setProperties o (putKey ((h.retain v).properties o) k v)) hx
  have hstored : (h.retain v).objects.isLive o = true :=
    Pool.isLive_set.symm.trans (Pool.isLive_iff_get?.mpr ⟨x, hset⟩)
  exact (isLive_retainAll (t := .object o) [v]).symm.trans hstored

theorem properties_objectDelete (hl : (h.objectDelete o k).objects.isLive o = true) :
    (h.objectDelete o k).properties o = (Edit.delete k).apply (h.properties o) :=
  properties_releaseAll_setProperties _ hl

theorem objectKeys_objectSet (hl : (h.objectSet o k v).objects.isLive o = true) :
    (h.objectSet o k v).objectKeys o
      = if h.objectHas o k then h.objectKeys o else h.objectKeys o ++ [k] := by
  rw [objectKeys, properties_objectSet hl]
  exact (keysOf_putKey _ k v).trans (if_congr mem_keysOf_iff rfl rfl)

theorem objectKeys_objectDelete (hl : (h.objectDelete o k).objects.isLive o = true) :
    (h.objectDelete o k).objectKeys o = (h.objectKeys o).filter (· ≠ k) := by
  rw [objectKeys, properties_objectDelete hl]
  exact keysOf_filter _ k

/-- Another key keeps its value, and the other keys stay in their order. -/
structure OnlyChanges (h h' : Heap) (o : ℕ) (k : Text) : Prop where
  get? (l : Text) (hl : l ≠ k) : h'.objectGet? o l = h.objectGet? o l
  order : (h'.objectKeys o).filter (· ≠ k) = (h.objectKeys o).filter (· ≠ k)

theorem onlyChanges_of_apply {e : Edit} (he : h'.properties o = e.apply (h.properties o)) :
    OnlyChanges h h' o e.key where
  get? l hl := by
    rw [objectGet?, he, Edit.lookup_apply_of_ne hl]
    rfl
  order := by
    have hkeys := Edit.filter_keysOf_apply (h.properties o) e
    rw [← he] at hkeys
    exact hkeys

end Heap

/-! ### The edits of a run -/

/-- The move that makes an edit of an object. -/
def Edit.move (o : ℕ) : Edit → Move
  | set k v => .objectSet o k v
  | delete k => .objectDelete o k

/-- The edit of an object that a move is. -/
def Move.edit? (o : ℕ) : Move → Option Edit
  | objectSet q k v => if q = o then some (.set k v) else none
  | objectDelete q k => if q = o then some (.delete k) else none
  | _ => none

/-- The edit of an object that a move is, if the move is possible. -/
def Moment.edit? (o : ℕ) (m : Moment) : Option Edit := if m.allowed then m.move.edit? o else none

theorem Move.edit?_eq_some_iff {m : Move} {o : ℕ} {e : Edit} :
    m.edit? o = some e ↔ m = e.move o := by
  constructor
  · intro he
    cases m with
    | objectSet q k v | objectDelete q k =>
      obtain ⟨rfl, hedit⟩ := Option.ite_none_right_eq_some.mp he
      cases hedit
      rfl
    | _ => cases he
  · rintro rfl
    cases e <;> exact if_pos rfl

namespace Desk

variable {order : Bool} {d : Desk} {m : Move} {o : ℕ} {e : Edit}

/-- The edits of an object in a run, oldest first. -/
def edits (order : Bool) (o : ℕ) (moves : List Move) : List Edit :=
  ((Desk.empty order).moments moves).filterMap (·.edit? o)

theorem edits_append (order : Bool) (o : ℕ) (moves : List Move) (m : Move) :
    edits order o (moves ++ [m])
      = edits order o moves ++ ((Moment.mk ((empty order).after moves) m).edit? o).toList := by
  rw [edits, moments_append, List.filterMap_append, List.filterMap_cons]
  cases (Moment.mk ((empty order).after moves) m).edit? o <;> rfl

theorem eq_move_of_edit? (he : (Moment.mk d m).edit? o = some e) :
    d.allows m = true ∧ m = e.move o := by
  obtain ⟨hm, he⟩ := Option.ite_none_right_eq_some.mp he
  exact ⟨hm, Move.edit?_eq_some_iff.mp he⟩

/-- Only what is alive is edited. -/
theorem isLive_of_edit? (he : (Moment.mk d m).edit? o = some e) :
    d.heap.objects.isLive o = true := by
  obtain ⟨hm, rfl⟩ := eq_move_of_edit? he
  cases e <;> exact alive_of_allows hm List.mem_cons_self _ rfl

/-- An edit of an object does to its properties what it says. -/
theorem properties_act_of_edit? (he : (Moment.mk d m).edit? o = some e)
    (hl : (d.act m).heap.objects.isLive o = true) :
    (d.act m).heap.properties o = e.apply (d.heap.properties o) := by
  obtain ⟨hm, rfl⟩ := eq_move_of_edit? he
  rw [heap_act hm] at hl ⊢
  cases e with
  | set k v => exact Heap.properties_objectSet hl
  | delete k => exact Heap.properties_objectDelete hl

/-- Every other move leaves the object alone. -/
theorem leavesObject_act (he : (Moment.mk d m).edit? o = none) :
    Heap.LeavesObject o d.heap (d.act m).heap := by
  by_cases hm : d.allows m = true
  · have hedit : m.edit? o = none := by
      rwa [Moment.edit?, Moment.allowed, if_pos hm] at he
    rw [heap_act hm]
    cases m with
    | newArray values => exact (Heap.LeavesObject.retainAll values).trans (.of_eq rfl)
    | newObject => exact Pool.Leaves.alloc
    | newNative f => exact (Heap.LeavesObject.retainAll f.captured).trans (.of_eq rfl)
    | newRegistry cleanup => exact (Heap.LeavesObject.retain _).trans (.of_eq rfl)
    | wrap k w => cases k <;> exact .of_eq rfl
    | clone v => exact .retain v
    | drop v => exact .release v
    | arraySet array i v =>
      exact (Heap.LeavesObject.retain v).trans (.trans (.setElements array _) (.release _))
    | arrayPush array v => exact (Heap.LeavesObject.retain v).trans (.setElements array _)
    | objectSet q k v =>
      have hqo : q ≠ o := fun hqo => by simp [Move.edit?, hqo] at hedit
      exact (Heap.LeavesObject.retain v).trans (.trans (.setProperties hqo _) (.release _))
    | objectDelete q k =>
      have hqo : q ≠ o := fun hqo => by simp [Move.edit?, hqo] at hedit
      exact (Heap.LeavesObject.setProperties hqo _).trans (.releaseAll _)
    | register r target held token => exact .register r target held token
    | unregister r token => exact .unregister r token
    | collect r => exact .setWatchCells r _
    | _ => exact .of_eq rfl
  · rw [act_of_not_allows (by simpa using hm)]
    exact .refl

/-- By induction over runs: the properties of an object that is alive, or not made yet, are what
its edits leave. -/
theorem properties_after (moves : List Move)
    (ho : ((empty order).after moves).heap.objects.isLive o = true ∨
      ((empty order).after moves).heap.objects.next ≤ o) :
    ((empty order).after moves).heap.properties o = edited (edits order o moves) := by
  induction moves using List.reverseRecOn with
  | nil => exact Heap.properties_of_not_live rfl
  | append_singleton moves m ih =>
    rw [edits_append]
    rw [after_append] at ho ⊢
    have hd := sound_after order moves
    have hages := (evolves_act ((empty order).after moves) m).ages.objects
    have hbefore : ((empty order).after moves).heap.objects.isLive o = true ∨
        ((empty order).after moves).heap.objects.next ≤ o := by
      obtain hl | hfresh := ho
      · by_cases hlt : o < ((empty order).after moves).heap.objects.next
        · exact .inl (hages.isLive hlt hl)
        · exact .inr (not_lt.mp hlt)
      · exact .inr (hages.next_le.trans hfresh)
    cases he : (Moment.mk ((empty order).after moves) m).edit? o with
    | none =>
      rw [Option.toList_none, List.append_nil, ← ih hbefore]
      obtain hl | hfresh := ho
      · exact (leavesObject_act he).properties hd.pools hl
      · rw [Heap.properties_fresh (hd.act m).pools hfresh,
          Heap.properties_fresh hd.pools (hages.next_le.trans hfresh)]
    | some e =>
      -- what has not been made cannot be edited
      have hl : (((empty order).after moves).act m).heap.objects.isLive o = true := by
        have hmade := hd.pools.objects.fresh (isLive_of_edit? he)
        have hlt := lt_of_lt_of_le hmade hages.next_le
        exact ho.resolve_right (not_le.mpr hlt)
      rw [Option.toList_some, edited_append, ← ih hbefore, properties_act_of_edit? he hl]

end Desk

/-! ### What a module is told -/

theorem Heap.properties_retainAll {h : Heap} (vs : List Value) (q : ℕ) :
    (h.retainAll vs).properties q = h.properties q := by
  induction vs generalizing h with
  | nil => rfl
  | cons v rest ih => exact ih.trans (properties_retain v q)

theorem Heap.elements_newArray {h : Heap} (vs : List Value) :
    (h.newArray vs).2.elements (h.newArray vs).1 = vs := by
  show (((h.retainAll vs).arrays.alloc vs).2.get? (h.retainAll vs).arrays.next).getD [] = vs
  rw [Pool.get?_alloc, if_pos rfl]
  rfl

namespace HostCall

/-- An object, as an argument. -/
def objectArg (o : ℕ) : Val := .ref (.host (.object o))

/-- A key, as an argument. -/
def keyArg (k : Text) : Val := .ref (.host (.string k))

/-- The world with another heap. -/
def withHeap {γ : Type} (w : World γ) (h : Heap) : World γ :=
  { w with session := { w.session with heap := h } }

/-- What a module is told of an object in a world: each function of the host table answers for what
the object's properties are, and changes them as it should. -/
structure AnswersFor {γ : Type} (m : Machine γ) (w : World γ) (o : ℕ) : Prop where
  has (k : Text) : run m .objectHas [objectArg o, keyArg k] w
    = .ok [.i32 (flag (w.session.heap.objectHas o k))] w
  get (k : Text) : ∃ w', run m .objectGet [objectArg o, keyArg k] w
      = .ok [.ref (.ofValue ((w.session.heap.objectGet? o k).getD .undefined))] w' ∧
    ∀ q, w'.session.heap.properties q = w.session.heap.properties q
  keys : ∃ a w', run m .objectKeys [objectArg o] w = .ok [.ref (.host (.array a))] w' ∧
    w'.session.heap.elements a = (w.session.heap.objectKeys o).map .string ∧
    ∀ q, w'.session.heap.properties q = w.session.heap.properties q
  set (k : Text) (v : Value) : run m .objectSet [objectArg o, keyArg k, .ref (.ofValue v)] w
    = .ok [] (withHeap w (w.session.heap.objectSet o k v))
  delete (k : Text) : run m .objectDelete [objectArg o, keyArg k] w
    = .ok [.i32 (flag (w.session.heap.objectHas o k))]
      (withHeap w (w.session.heap.objectDelete o k))

theorem answersFor {γ : Type} (m : Machine γ) (w : World γ) (o : ℕ) : AnswersFor m w o where
  has k := rfl
  get k := ⟨_, rfl, fun q => Heap.properties_retain _ q⟩
  keys := ⟨_, _, rfl, Heap.elements_newArray _, fun q => Heap.properties_retainAll _ q⟩
  set k v := by
    show noResult (do
      let v ← Act.orFail (Reference.ofValue v).value
      Act.modifyHeap (·.objectSet o k v)) w = _
    rw [Reference.value_ofValue]
    rfl
  delete k := rfl

end HostCall

/-! ### The main theorem -/

/-- Objects are maps that keep their order.  In whatever is done with host values, the keys of an
object that is alive are those that were set after they were last deleted, each of them once and in
the order in which they were made present, with the value that was set last.  So a key that is set
keeps its place or comes last if it was not present, and comes last if it was deleted before;
setting or deleting it changes neither the value of another key nor the order of the others.  What
a module is told about an object is just this, and when it deletes a key, whether it was there. -/
theorem objects_are_ordered_maps :
    (∀ (order : Bool) (moves : List Move) (o : ℕ),
      ((Desk.empty order).after moves).heap.objects.isLive o = true →
      let h := ((Desk.empty order).after moves).heap
      Records (Desk.edits order o moves) (h.objectKeys o) (h.objectHas o) (h.objectGet? o)) ∧
    (∀ (h : Heap) (o : ℕ) (k : Text) (v : Value), (h.objectSet o k v).objects.isLive o = true →
      (h.objectSet o k v).objectKeys o
        = (if h.objectHas o k then h.objectKeys o else h.objectKeys o ++ [k]) ∧
      h.OnlyChanges (h.objectSet o k v) o k) ∧
    (∀ (h : Heap) (o : ℕ) (k : Text), (h.objectDelete o k).objects.isLive o = true →
      (h.objectDelete o k).objectKeys o = (h.objectKeys o).filter (· ≠ k) ∧
      h.OnlyChanges (h.objectDelete o k) o k) ∧
    (∀ (h : Heap) (o : ℕ) (k : Text) (v : Value),
      ((h.objectDelete o k).objectSet o k v).objects.isLive o = true →
      ((h.objectDelete o k).objectSet o k v).objectKeys o
        = (h.objectKeys o).filter (· ≠ k) ++ [k]) ∧
    ∀ {γ : Type} (m : Machine γ) (w : World γ) (o : ℕ), HostCall.AnswersFor m w o := by
  refine ⟨fun order moves o hl => ?_, fun h o k v hl => ?_, fun h o k hl => ?_, fun h o k v hl => ?_,
    HostCall.answersFor⟩
  · have hrecorded := recordedBy_edited (Desk.edits order o moves)
    rw [← Desk.properties_after moves (.inl hl)] at hrecorded
    exact hrecorded
  · exact ⟨Heap.objectKeys_objectSet hl, Heap.onlyChanges_of_apply (Heap.properties_objectSet hl)⟩
  · exact ⟨Heap.objectKeys_objectDelete hl,
      Heap.onlyChanges_of_apply (Heap.properties_objectDelete hl)⟩
  · have hdeleted := Heap.isLive_of_objectSet hl
    have habsent : (h.objectDelete o k).objectHas o k = false := by
      rw [Heap.objectHas, Heap.objectGet?, Heap.properties_objectDelete hdeleted]
      exact congrArg Option.isSome ((lookup_filter _ k k).trans (if_pos rfl))
    rw [Heap.objectKeys_objectSet hl, habsent, Heap.objectKeys_objectDelete hdeleted]
    rfl

/-- Two keys. -/
def keyA : Text := ⟨[0x61]⟩

def keyB : Text := ⟨[0x62]⟩

/-- An object whose second key is replaced and whose first key is deleted and set again, while
another object holds it. -/
def reordering : List Move :=
  [.newObject, .objectSet 0 keyA (.bool true), .objectSet 0 keyB (.bool true), .newObject,
    .objectSet 1 keyA (.object 0), .objectSet 0 keyB (.bool false), .objectDelete 0 keyA,
    .objectSet 0 keyA .null]

/-- The key that was deleted comes last, and the one that was replaced does not; then they keep
their places, or change them. -/
theorem objects_are_ordered_maps_reordering :
    let h := ((Desk.empty true).after reordering).heap
    (h.objects.isLive 0 = true ∧
      Records [.set keyA (.bool true), .set keyB (.bool true), .set keyB (.bool false),
        .delete keyA, .set keyA .null] [keyB, keyA] (h.objectHas 0) (h.objectGet? 0)) ∧
    ((h.objectSet 0 keyB .null).objects.isLive 0 = true ∧
      (h.objectSet 0 keyB .null).objectKeys 0 = [keyB, keyA]) ∧
    ((h.objectDelete 0 keyB).objects.isLive 0 = true ∧
      (h.objectDelete 0 keyB).objectKeys 0 = [keyA]) ∧
    (((h.objectDelete 0 keyB).objectSet 0 keyB .null).objects.isLive 0 = true ∧
      ((h.objectDelete 0 keyB).objectSet 0 keyB .null).objectKeys 0 = [keyA, keyB]) := by
  intro h
  obtain ⟨hrecords, hset, hdelete, hagain, -⟩ := objects_are_ordered_maps
  have hkeys : h.objectKeys 0 = [keyB, keyA] := by decide +kernel
  have hhas : h.objectHas 0 keyB = true := by decide +kernel
  have hedits : Desk.edits true 0 reordering = [.set keyA (.bool true), .set keyB (.bool true),
      .set keyB (.bool false), .delete keyA, .set keyA .null] := by decide +kernel
  have hl : h.objects.isLive 0 = true := by decide +kernel
  have hlset : (h.objectSet 0 keyB .null).objects.isLive 0 = true := by decide +kernel
  have hldelete : (h.objectDelete 0 keyB).objects.isLive 0 = true := by decide +kernel
  have hlagain : ((h.objectDelete 0 keyB).objectSet 0 keyB .null).objects.isLive 0 = true := by
    decide +kernel
  refine ⟨⟨hl, ?_⟩, ⟨hlset, ?_⟩, ⟨hldelete, ?_⟩, hlagain, ?_⟩
  · have hrun := hrecords true reordering 0 hl
    rw [hedits] at hrun
    exact hkeys ▸ hrun
  · rw [(hset h 0 keyB .null hlset).1, hhas, hkeys]
    rfl
  · rw [(hdelete h 0 keyB hldelete).1, hkeys]
    decide
  · rw [hagain h 0 keyB .null hlagain, hkeys]
    decide

end ModuleHost
