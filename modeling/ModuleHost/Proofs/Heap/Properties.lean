/-
Properties in the order in which they came.

Two things are done to the properties of an object: a key is set, in its place or at the end, or it
is deleted.  What the properties are after any number of such edits can be told from the edits.  A
key is present if it was set after it was last deleted.  The first time that this was done has made
it present and gives it its place, and the last time gives it its value.

* `Edit`, `edited` — edits, and the properties that they leave;
* `kept` — the edits that set a key after it was last deleted;
* `Records`, `recordedBy_edited` — what properties say about the edits that they come from;
* `Edit.lookup_apply_of_ne`, `Edit.filter_keysOf_apply` — an edit leaves the other keys alone.
-/
import Mathlib
import ModuleHost.Heap.Containers

namespace ModuleHost

/-- What is done to the properties of an object. -/
inductive Edit where
  | set (key : Text) (v : Value)
  | delete (key : Text)
  deriving DecidableEq

namespace Edit

/-- The key that is set or deleted. -/
def key : Edit → Text
  | set k _ | delete k => k

/-- The properties after an edit. -/
def apply (props : List (Text × Value)) : Edit → List (Text × Value)
  | set k v => Heap.putKey props k v
  | delete k => props.filter (·.1 ≠ k)

end Edit

/-- The properties that edits leave of an object that had none. -/
def edited (es : List Edit) : List (Text × Value) := es.foldl Edit.apply []

/-- The keys of properties, in order. -/
def keysOf (props : List (Text × Value)) : List Text := props.map (·.1)

variable {es : List Edit} {e f : Edit} {props : List (Text × Value)} {k l m : Text}
  {v w : Value} {i : ℕ}

theorem edited_append (es : List Edit) (e : Edit) : edited (es ++ [e]) = e.apply (edited es) :=
  List.foldl_append

/-! ### Properties after one edit -/

theorem mem_keysOf_iff : k ∈ keysOf props ↔ (props.lookup k).isSome = true := by
  simp [keysOf, List.lookup_isSome_iff]

theorem keysOf_putKey (props : List (Text × Value)) (k : Text) (v : Value) :
    keysOf (Heap.putKey props k v)
      = if k ∈ keysOf props then keysOf props else keysOf props ++ [k] := by
  induction props with
  | nil => rfl
  | cons p rest ih =>
    obtain ⟨l, w⟩ := p
    by_cases hl : l = k
    · subst hl
      simp [Heap.putKey, keysOf]
    · have hmem : k ∈ keysOf ((l, w) :: rest) ↔ k ∈ keysOf rest := by
        simp [keysOf, Ne.symm hl]
      rw [Heap.putKey, if_neg hl, if_congr hmem rfl rfl]
      show l :: keysOf (Heap.putKey rest k v) = _
      rw [ih]
      split <;> rfl

theorem lookup_cons (k : Text) (v : Value) (props : List (Text × Value)) (l : Text) :
    ((k, v) :: props).lookup l = if l = k then some v else props.lookup l := by
  by_cases hl : l = k
  · rw [if_pos hl, hl, List.lookup_cons_self]
  · rw [if_neg hl, List.lookup_cons, beq_eq_false_iff_ne.mpr hl]

theorem lookup_putKey (props : List (Text × Value)) (k : Text) (v : Value) (l : Text) :
    (Heap.putKey props k v).lookup l = if l = k then some v else props.lookup l := by
  induction props with
  | nil => exact lookup_cons k v [] l
  | cons p rest ih =>
    obtain ⟨m, w⟩ := p
    by_cases hm : m = k
    · subst hm
      rw [Heap.putKey, if_pos rfl, lookup_cons, lookup_cons]
      split <;> rfl
    · rw [Heap.putKey, if_neg hm, lookup_cons, lookup_cons, ih]
      by_cases hl : l = m
      · rw [if_pos hl, if_neg (hl ▸ hm), if_pos hl]
      · rw [if_neg hl, if_neg hl]

theorem keysOf_filter (props : List (Text × Value)) (k : Text) :
    keysOf (props.filter (·.1 ≠ k)) = (keysOf props).filter (· ≠ k) := by
  rw [keysOf, keysOf, List.filter_map]
  rfl

theorem lookup_filter (props : List (Text × Value)) (k l : Text) :
    (props.filter (·.1 ≠ k)).lookup l = if l = k then none else props.lookup l := by
  induction props with
  | nil => exact (ite_self none).symm
  | cons p rest ih =>
    obtain ⟨m, w⟩ := p
    by_cases hm : m = k
    · subst hm
      rw [List.filter_cons_of_neg (by simp), ih, lookup_cons]
      split <;> rfl
    · rw [List.filter_cons_of_pos (by simpa using hm), lookup_cons, lookup_cons, ih]
      by_cases hl : l = m
      · rw [if_pos hl, if_neg (hl ▸ hm), if_pos hl]
      · rw [if_neg hl, if_neg hl]

namespace Edit

theorem lookup_apply_of_ne (hl : l ≠ e.key) : (e.apply props).lookup l = props.lookup l := by
  cases e with
  | set k v => exact (lookup_putKey props k v l).trans (if_neg hl)
  | delete k => exact (lookup_filter props k l).trans (if_neg hl)

/-- The other keys stay in their order. -/
theorem filter_keysOf_apply (props : List (Text × Value)) (e : Edit) :
    (keysOf (e.apply props)).filter (· ≠ e.key) = (keysOf props).filter (· ≠ e.key) := by
  cases e with
  | set k v =>
    rw [apply, keysOf_putKey]
    split
    · rfl
    · rw [List.filter_append]
      simp [key]
  | delete k =>
    rw [apply, keysOf_filter, List.filter_filter]
    exact List.filter_congr fun l _ => Bool.and_self _

end Edit

/-! ### When a key was set -/

/-- The edits, by their position, that set a key after it was last deleted. -/
def kept (es : List Edit) (k : Text) : Set ℕ :=
  {i | (∃ v, es[i]? = some (.set k v)) ∧ ∀ j, i < j → es[j]? ≠ some (.delete k)}

theorem getElem?_append_singleton :
    (es ++ [e])[i]? = some f ↔ es[i]? = some f ∨ i = es.length ∧ e = f := by
  obtain hi | rfl | hi := lt_trichotomy i es.length
  · rw [List.getElem?_append_left hi]
    exact (or_iff_left fun h => hi.ne h.1).symm
  · simp
  · simp [List.getElem?_eq_none, hi.le, hi.ne', Nat.succ_le_iff.mpr hi]

theorem lt_of_mem_kept (hi : i ∈ kept es k) : i < es.length := by
  obtain ⟨⟨v, hv⟩, -⟩ := hi
  exact (List.getElem?_eq_some_iff.mp hv).1

theorem mem_kept_append : i ∈ kept (es ++ [e]) k ↔
    (i ∈ kept es k ∧ e ≠ .delete k) ∨ i = es.length ∧ ∃ v, e = .set k v := by
  constructor
  · rintro ⟨⟨v, hset⟩, hlater⟩
    obtain hv | ⟨rfl, rfl⟩ := getElem?_append_singleton.mp hset
    · refine .inl ⟨⟨⟨v, hv⟩, fun j hj hd => ?_⟩, fun hd => ?_⟩
      · exact hlater j hj (getElem?_append_singleton.mpr (.inl hd))
      · have hi := (List.getElem?_eq_some_iff.mp hv).1
        exact hlater es.length hi (getElem?_append_singleton.mpr (.inr ⟨rfl, hd⟩))
    · exact .inr ⟨rfl, v, rfl⟩
  · rintro (⟨⟨⟨v, hv⟩, hlater⟩, hne⟩ | ⟨rfl, v, rfl⟩)
    · refine ⟨⟨v, getElem?_append_singleton.mpr (.inl hv)⟩, fun j hj hd => ?_⟩
      obtain hd | ⟨-, rfl⟩ := getElem?_append_singleton.mp hd
      · exact hlater j hj hd
      · exact hne rfl
    · refine ⟨⟨v, getElem?_append_singleton.mpr (.inr ⟨rfl, rfl⟩)⟩, fun j hj hd => ?_⟩
      obtain hd | ⟨rfl, -⟩ := getElem?_append_singleton.mp hd
      · exact absurd (List.getElem?_eq_some_iff.mp hd).1 hj.not_gt
      · exact lt_irrefl _ hj

theorem kept_nil (k : Text) : kept [] k = ∅ :=
  Set.eq_empty_of_forall_notMem fun _ hi => absurd (lt_of_mem_kept hi) (Nat.not_lt_zero _)

theorem kept_set (es : List Edit) (k : Text) (v : Value) :
    kept (es ++ [.set k v]) k = insert es.length (kept es k) := by
  ext i
  rw [mem_kept_append, Set.mem_insert_iff, or_comm]
  simp

theorem kept_delete (es : List Edit) (k : Text) : kept (es ++ [.delete k]) k = ∅ := by
  ext i
  rw [mem_kept_append]
  simp

theorem kept_of_ne (hl : l ≠ e.key) : kept (es ++ [e]) l = kept es l := by
  ext i
  rw [mem_kept_append]
  have hdelete : e ≠ .delete l := fun h => hl (h ▸ rfl)
  have hset : ¬ ∃ v, e = .set l v := fun ⟨v, h⟩ => hl (h ▸ rfl)
  simp [hdelete, hset]

/-! ### What the edits leave -/

/-- The last edit that set a key after it was last deleted gave it this value. -/
def Latest (es : List Edit) (k : Text) (v : Value) : Prop :=
  ∃ i, IsGreatest (kept es k) i ∧ es[i]? = some (.set k v)

/-- A key was made present before another one: the first edit that set it after it was last deleted
comes before the first such edit for the other key. -/
def Before (es : List Edit) (k l : Text) : Prop :=
  ∃ i j, IsLeast (kept es k) i ∧ IsLeast (kept es l) j ∧ i < j

theorem latest_of_ne (hl : l ≠ e.key) : Latest (es ++ [e]) l v ↔ Latest es l v := by
  unfold Latest
  rw [kept_of_ne hl]
  refine exists_congr fun i => and_congr_right fun hi => ?_
  rw [List.getElem?_append_left (lt_of_mem_kept hi.1)]

theorem latest_set : Latest (es ++ [.set k v]) k w ↔ v = w := by
  have hgreatest : IsGreatest (kept (es ++ [.set k v]) k) es.length := by
    rw [kept_set]
    refine ⟨Set.mem_insert _ _, fun i hi => ?_⟩
    obtain rfl | hi := Set.mem_insert_iff.mp hi
    · exact le_rfl
    · exact (lt_of_mem_kept hi).le
  constructor
  · rintro ⟨i, hi, hset⟩
    rw [hi.unique hgreatest, List.getElem?_concat_length] at hset
    cases hset
    rfl
  · rintro rfl
    exact ⟨es.length, hgreatest, List.getElem?_concat_length⟩

theorem not_latest_delete : ¬ Latest (es ++ [.delete k]) k v := by
  rintro ⟨i, hi, -⟩
  rw [kept_delete] at hi
  exact hi.1

theorem Before.of_ne (hk : k ≠ e.key) (hl : l ≠ e.key) (h : Before es k l) :
    Before (es ++ [e]) k l := by
  unfold Before
  rwa [kept_of_ne hk, kept_of_ne hl]

/-- To set a key once more does not change when it was made present. -/
theorem isLeast_kept_set (k : Text) (v : Value) (hi : IsLeast (kept es l) i) :
    IsLeast (kept (es ++ [.set k v]) l) i := by
  by_cases hl : l = k
  · subst hl
    have hmin := hi.insert es.length
    rwa [min_eq_right (lt_of_mem_kept hi.1).le, ← kept_set es l v] at hmin
  · rwa [kept_of_ne hl]

theorem Before.set (h : Before es l m) (k : Text) (v : Value) :
    Before (es ++ [.set k v]) l m := by
  obtain ⟨i, j, hi, hj, hij⟩ := h
  exact ⟨i, j, isLeast_kept_set k v hi, isLeast_kept_set k v hj, hij⟩

/-- A key that is made present comes after those that are. -/
theorem before_set (hl : (kept es l).Nonempty) (hk : kept es k = ∅) (v : Value) :
    Before (es ++ [.set k v]) l k := by
  have hleast : IsLeast (kept es l) (sInf (kept es l)) :=
    ⟨Nat.sInf_mem hl, fun i hi => Nat.sInf_le hi⟩
  refine ⟨_, es.length, isLeast_kept_set k v hleast, ?_, lt_of_mem_kept hleast.1⟩
  rw [kept_set, hk, insert_empty_eq]
  exact isLeast_singleton

/-- What can be seen of properties says about the edits that they come from: every key is listed
once and is one that was set after it was last deleted, its value is the latest one, and the keys
are in the order in which they were made present. -/
structure Records (es : List Edit) (keys : List Text) (has : Text → Bool)
    (get? : Text → Option Value) : Prop where
  nodup : keys.Nodup
  mem_iff (k : Text) : k ∈ keys ↔ has k = true
  has_iff (k : Text) : has k = true ↔ (kept es k).Nonempty
  get?_iff (k : Text) (v : Value) : get? k = some v ↔ Latest es k v
  ordered : keys.Pairwise (Before es)

/-- Properties record edits. -/
def RecordedBy (es : List Edit) (props : List (Text × Value)) : Prop :=
  Records es (keysOf props) (fun k => (props.lookup k).isSome) fun k => props.lookup k

theorem recordedBy_nil : RecordedBy [] [] where
  nodup := List.nodup_nil
  mem_iff k := mem_keysOf_iff
  has_iff k := by simp [kept_nil]
  get?_iff k v := by simp [Latest]
  ordered := List.Pairwise.nil

theorem RecordedBy.set (h : RecordedBy es props) (k : Text) (v : Value) :
    RecordedBy (es ++ [.set k v]) (Heap.putKey props k v) where
  nodup := by
    rw [keysOf_putKey]
    split
    · exact h.nodup
    · rename_i hk
      refine List.nodup_append.mpr ⟨h.nodup, List.nodup_singleton k, fun l hl m hm heq => ?_⟩
      exact hk ((heq.trans (List.mem_singleton.mp hm)) ▸ hl)
  mem_iff l := mem_keysOf_iff
  has_iff l := by
    rw [lookup_putKey]
    by_cases hl : l = k
    · subst hl
      rw [if_pos rfl, kept_set]
      exact iff_of_true rfl (Set.insert_nonempty _ _)
    · rw [if_neg hl, kept_of_ne hl]
      exact h.has_iff l
  get?_iff l w := by
    rw [lookup_putKey]
    by_cases hl : l = k
    · subst hl
      rw [if_pos rfl, Option.some_inj, latest_set]
    · rw [if_neg hl, latest_of_ne hl]
      exact h.get?_iff l w
  ordered := by
    have hkept := h.ordered.imp fun hlm => Before.set hlm k v
    rw [keysOf_putKey]
    split
    · exact hkept
    · rename_i hk
      have hempty : kept es k = ∅ := by
        rw [← Set.not_nonempty_iff_eq_empty, ← h.has_iff, ← h.mem_iff]
        exact hk
      refine List.pairwise_append.mpr ⟨hkept, List.pairwise_singleton _ _, fun l hl m hm => ?_⟩
      obtain rfl := List.mem_singleton.mp hm
      exact before_set ((h.has_iff l).mp ((h.mem_iff l).mp hl)) hempty v

theorem RecordedBy.delete (h : RecordedBy es props) (k : Text) :
    RecordedBy (es ++ [.delete k]) (props.filter (·.1 ≠ k)) where
  nodup := by
    rw [keysOf_filter]
    exact h.nodup.filter _
  mem_iff l := mem_keysOf_iff
  has_iff l := by
    rw [lookup_filter]
    by_cases hl : l = k
    · subst hl
      rw [if_pos rfl, kept_delete]
      exact iff_of_false Bool.false_ne_true Set.not_nonempty_empty
    · rw [if_neg hl, kept_of_ne hl]
      exact h.has_iff l
  get?_iff l v := by
    rw [lookup_filter]
    by_cases hl : l = k
    · subst hl
      rw [if_pos rfl]
      exact iff_of_false nofun not_latest_delete
    · rw [if_neg hl, latest_of_ne hl]
      exact h.get?_iff l v
  ordered := by
    rw [keysOf_filter]
    refine (h.ordered.filter _).imp_of_mem fun hl hm hlm => ?_
    have hne {l : Text} (hl : l ∈ (keysOf props).filter (· ≠ k)) : l ≠ k := by
      simpa using (List.mem_filter.mp hl).2
    exact hlm.of_ne (hne hl) (hne hm)

/-- What edits leave records them. -/
theorem recordedBy_edited (es : List Edit) : RecordedBy es (edited es) := by
  induction es using List.reverseRecOn with
  | nil => exact recordedBy_nil
  | append_singleton es e ih =>
    rw [edited_append]
    cases e with
    | set k v => exact ih.set k v
    | delete k => exact ih.delete k

end ModuleHost
