/-
What a pool holds.

`Pool.contents` is the list of the contents of all live cells.  In which order the cells are
kept does not matter to anybody, so its laws are up to permutation: the content of one cell is
split off (`contents_perm`), and then an operation only changes that part.
-/
import Mathlib
import ModuleHost.Proofs.Heap.Pool

namespace ModuleHost

namespace Pool

variable {α : Type} {p q : Pool α} {id i : ℕ} {a b : α} {c : Cell α}

/-- The contents of the live cells. -/
def contents (p : Pool α) : List α := p.cells.toList.map (·.2.content)

/-- The contents of the live cells other than one. -/
def others (p : Pool α) (id : ℕ) : List α :=
  (p.cells.toList.filter (·.1 ≠ id)).map (·.2.content)

theorem mem_toList_iff {e : ℕ × Cell α} : e ∈ p.cells.toList ↔ p.cell? e.1 = some e.2 :=
  Std.TreeMap.mem_toList_iff_getElem?_eq_some

theorem nodup_toList : p.cells.toList.Nodup := by
  have hkeys : p.cells.toList.Pairwise fun a b => ¬ compare a.1 b.1 = .eq :=
    Std.TreeMap.distinct_keys_toList
  refine hkeys.imp fun {a b} hab heq => hab ?_
  rw [heq, compare_eq_iff_eq]

/-- Pools with the same cells hold the same. -/
theorem toList_perm (h : ∀ i, p.cell? i = q.cell? i) : p.cells.toList.Perm q.cells.toList := by
  refine (List.perm_ext_iff_of_nodup nodup_toList nodup_toList).mpr fun e => ?_
  rw [mem_toList_iff, mem_toList_iff, h]

theorem contents_put : (p.put id c).contents.Perm (c.content :: p.others id) := by
  have h : (p.cells.insert id c).toList.Perm
      ((id, c) :: p.cells.toList.filter fun e => ¬ (id == e.1) = true) :=
    Std.TreeMap.toList_insert_perm
  have hfilter : (p.cells.toList.filter fun e => ¬ (id == e.1) = true)
      = p.cells.toList.filter (·.1 ≠ id) := by
    refine List.filter_congr fun e _ => ?_
    by_cases he : id = e.1
    · simp [he]
    · simp [he, Ne.symm he]
  rw [hfilter] at h
  exact h.map (·.2.content)

/-- The content of a live cell is split off. -/
theorem contents_perm (h : p.get? id = some a) : p.contents.Perm (a :: p.others id) := by
  obtain ⟨c, hc, rfl⟩ := Option.map_eq_some_iff.mp h
  have hsame : ∀ i, p.cell? i = (p.put id c).cell? i := by
    intro i
    rw [cell?_put]
    split
    · rename_i hi
      rw [← hi, hc]
    · rfl
  exact ((toList_perm hsame).map _).trans contents_put

theorem others_of_not_live (h : p.isLive id = false) : p.others id = p.contents := by
  have hfilter : p.cells.toList.filter (·.1 ≠ id) = p.cells.toList := by
    refine List.filter_eq_self.mpr fun e he => ?_
    rw [mem_toList_iff] at he
    refine decide_eq_true fun hid => ?_
    rw [isLive, ← hid, he] at h
    exact absurd h (by simp)
  rw [others, hfilter, contents]

/-! ### The contents after each operation -/

theorem contents_alloc (hp : p.Sound) : (p.alloc a).2.contents.Perm (a :: p.contents) := by
  rw [← others_of_not_live hp.not_live_next]
  exact contents_put

theorem contents_retain : (p.retain id).contents.Perm p.contents := by
  unfold retain
  cases h : p.cell? id with
  | none => exact .refl _
  | some c =>
    have hget : p.get? id = some c.content := by rw [get?, h]; rfl
    exact contents_put.trans (contents_perm hget).symm

theorem contents_set (h : p.isLive id = true) : (p.set id b).contents.Perm (b :: p.others id) := by
  obtain ⟨c, hc⟩ := Option.isSome_iff_exists.mp h
  unfold set
  rw [hc]
  exact contents_put

/-- The content of a freed cell comes back, everything else stays. -/
theorem contents_release :
    ((p.release id).1.toList ++ (p.release id).2.contents).Perm p.contents := by
  unfold release
  cases h : p.cell? id with
  | none => exact .refl _
  | some c =>
    have hget : p.get? id = some c.content := by rw [get?, h]; rfl
    by_cases hc : c.count ≤ 1
    -- the last handle: the cell is erased and its content handed out
    · let rest : Pool α := { p with cells := p.cells.erase id }
      have herase : rest.cells.toList.Perm (p.cells.toList.filter (·.1 ≠ id)) := by
        refine (List.perm_ext_iff_of_nodup nodup_toList (nodup_toList.filter _)).mpr fun e => ?_
        rw [List.mem_filter, mem_toList_iff, mem_toList_iff, cell?_erase]
        by_cases he : id = e.1
        · simp [he]
        · simp [he, Ne.symm he]
      simp only [hc, if_true]
      exact ((herase.map _).cons _).trans (contents_perm hget).symm
    · simp only [hc, if_false]
      exact contents_put.trans (contents_perm hget).symm

/-- What is held by the content of a freed cell comes back, everything else stays. -/
theorem flatMap_contents_release {β : Type} (p : Pool α) (id : ℕ) (g : α → List β) :
    (((p.release id).1.map g).getD [] ++ (p.release id).2.contents.flatMap g).Perm
      (p.contents.flatMap g) := by
  have h : ((p.release id).1.toList ++ (p.release id).2.contents).Perm p.contents :=
    contents_release
  have hfreed : ((p.release id).1.map g).getD [] = (p.release id).1.toList.flatMap g := by
    cases (p.release id).1 with
    | none => rfl
    | some a => simp
  rw [hfreed, ← List.flatMap_append]
  exact h.flatMap_right g

/-- A replaced content gives way to the new one. -/
theorem flatMap_contents_set {β : Type} (g : α → List β) (h : p.get? id = some a) (b : α) :
    ((p.set id b).contents.flatMap g ++ g a).Perm (p.contents.flatMap g ++ g b) := by
  have hlive : p.isLive id = true := isLive_iff_get?.mpr ⟨a, h⟩
  have hafter : ((p.set id b).contents.flatMap g).Perm (g b ++ (p.others id).flatMap g) :=
    (contents_set hlive).flatMap_right g
  have hbefore : (p.contents.flatMap g).Perm (g a ++ (p.others id).flatMap g) :=
    (contents_perm h).flatMap_right g
  refine (hafter.append_right _).trans (List.Perm.trans ?_ (hbefore.append_right _).symm)
  rw [List.append_assoc]
  exact List.perm_append_comm.trans (List.perm_append_comm.append_right _)

/-- The measure of a pool is that of its contents. -/
theorem total_eq (measure : α → ℕ) : p.total measure = (p.contents.map measure).sum := by
  have hfold : ∀ (l : List (ℕ × Cell α)) (n : ℕ),
      l.foldl (fun sum e => sum + measure e.2.content) n
        = n + ((l.map (·.2.content)).map measure).sum := by
    intro l
    induction l with
    | nil => exact fun n => rfl
    | cons e rest ih =>
      intro n
      rw [List.foldl_cons, ih, List.map_cons, List.map_cons, List.sum_cons, Nat.add_assoc]
  rw [total, Std.TreeMap.foldl_eq_foldl_toList, hfold, Nat.zero_add, contents]

end Pool

end ModuleHost
