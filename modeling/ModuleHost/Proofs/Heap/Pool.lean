/-
Look-up laws of pools.

A pool is known by `Pool.cell?`: every operation is described by what it does to the
look-up of each number, and nothing else about the tree of cells is used later.

* `Pool.Sound` — live numbers have been handed out, and a live cell has a handle;
  all operations keep it;
* `Pool.isLive_iff` — in a sound pool the live cells are those with a handle.
-/
import Mathlib
import ModuleHost.Heap.Pool

namespace ModuleHost

namespace Pool

variable {α : Type} {p : Pool α} {id i : Nat} {a : α} {c : Cell α}

/-! ### The look-up after each operation -/

theorem cell?_empty : (empty : Pool α).cell? i = none := by
  simp [empty, cell?]

theorem cell?_put : (p.put id c).cell? i = if id = i then some c else p.cell? i := by
  simp only [put, cell?, Std.TreeMap.getElem?_insert, compare_eq_iff_eq]

theorem cell?_alloc :
    (p.alloc a).2.cell? i = if p.next = i then some ⟨1, a⟩ else p.cell? i := by
  have h : (p.alloc a).2.cell? i = (p.put p.next ⟨1, a⟩).cell? i := rfl
  rw [h, cell?_put]

theorem cell?_set :
    (p.set id a).cell? i
      = if id = i then (p.cell? i).map fun c => { c with content := a } else p.cell? i := by
  unfold set
  by_cases hi : id = i
  · subst hi
    cases h : p.cell? id with
    | none => simp [h]
    | some c => simp [cell?_put]
  · cases h : p.cell? id with
    | none => simp [hi]
    | some c => simp [cell?_put, hi]

theorem cell?_retain :
    (p.retain id).cell? i
      = if id = i then (p.cell? i).map fun c => { c with count := c.count + 1 }
        else p.cell? i := by
  unfold retain
  by_cases hi : id = i
  · subst hi
    cases h : p.cell? id with
    | none => simp [h]
    | some c => simp [cell?_put]
  · cases h : p.cell? id with
    | none => simp [hi]
    | some c => simp [cell?_put, hi]

theorem cell?_erase :
    ({ p with cells := p.cells.erase id } : Pool α).cell? i
      = if id = i then none else p.cell? i := by
  simp only [cell?, Std.TreeMap.getElem?_erase, compare_eq_iff_eq]

/-- What is left of a cell that gives up a handle. -/
def dropOne (c : Cell α) : Option (Cell α) :=
  if c.count ≤ 1 then none else some { c with count := c.count - 1 }

theorem cell?_release :
    (p.release id).2.cell? i
      = if id = i then (p.cell? i).bind dropOne else p.cell? i := by
  unfold release
  cases h : p.cell? id with
  | none =>
    by_cases hi : id = i
    · subst hi
      simp [h]
    · simp [hi]
  | some c =>
    by_cases hc : c.count ≤ 1
    · simp only [if_pos hc]
      rw [cell?_erase]
      by_cases hi : id = i
      · subst hi
        simp [h, dropOne, hc]
      · rw [if_neg hi, if_neg hi]
    · by_cases hi : id = i
      · subst hi
        simp [hc, cell?_put, h, dropOne]
      · simp [hc, cell?_put, hi]

theorem release_fst :
    (p.release id).1
      = (p.cell? id).bind fun c => if c.count ≤ 1 then some c.content else none := by
  unfold release
  cases h : p.cell? id with
  | none => rfl
  | some c =>
    by_cases hc : c.count ≤ 1
    · simp [hc]
    · simp [hc]

@[simp] theorem next_set : (p.set id a).next = p.next := by
  unfold set
  split <;> rfl

@[simp] theorem next_retain : (p.retain id).next = p.next := by
  unfold retain
  split <;> rfl

@[simp] theorem next_release : (p.release id).2.next = p.next := by
  unfold release
  split
  · split <;> rfl
  · rfl

@[simp] theorem next_alloc : (p.alloc a).2.next = p.next + 1 := rfl

@[simp] theorem alloc_fst : (p.alloc a).1 = p.next := rfl

/-! ### Content, handles and life -/

theorem isLive_iff_get? : p.isLive i = true ↔ ∃ a, p.get? i = some a := by
  rw [isLive, get?, Option.isSome_iff_exists]
  simp

theorem get?_eq_none_iff : p.get? i = none ↔ p.isLive i = false := by
  simp [isLive, get?]

theorem get?_alloc : (p.alloc a).2.get? i = if p.next = i then some a else p.get? i := by
  rw [get?, cell?_alloc]
  split <;> rfl

theorem get?_retain : (p.retain id).get? i = p.get? i := by
  rw [get?, get?, cell?_retain]
  split
  · rw [Option.map_map]
    rfl
  · rfl

theorem get?_set :
    (p.set id a).get? i = if id = i then (p.get? i).map fun _ => a else p.get? i := by
  rw [get?, get?, cell?_set]
  split
  · rw [Option.map_map, Option.map_map]
    rfl
  · rfl

theorem get?_release_of_some (h : (p.release id).2.get? i = some a) : p.get? i = some a := by
  rw [get?, cell?_release] at h
  split at h
  · cases hc : p.cell? i with
    | none => simp [hc] at h
    | some c =>
      rw [hc, Option.bind_some, dropOne] at h
      rw [get?, hc]
      split at h
      · simp at h
      · simpa using h
  · exact h

theorem isLive_alloc : (p.alloc a).2.isLive i = (decide (p.next = i) || p.isLive i) := by
  rw [isLive, cell?_alloc]
  by_cases h : p.next = i
  · simp [h]
  · simp [h, isLive]

theorem isLive_retain : (p.retain id).isLive i = p.isLive i := by
  rw [isLive, isLive, cell?_retain]
  split <;> simp

theorem isLive_set : (p.set id a).isLive i = p.isLive i := by
  rw [isLive, isLive, cell?_set]
  split <;> simp

theorem isLive_of_release (h : (p.release id).2.isLive i = true) : p.isLive i = true := by
  obtain ⟨a, ha⟩ := isLive_iff_get?.mp h
  exact isLive_iff_get?.mpr ⟨a, get?_release_of_some ha⟩

theorem count_alloc : (p.alloc a).2.count i = if p.next = i then 1 else p.count i := by
  rw [count, cell?_alloc]
  split <;> rfl

theorem count_retain :
    (p.retain id).count i = p.count i + if id = i ∧ p.isLive i = true then 1 else 0 := by
  rw [count, count, cell?_retain, isLive]
  by_cases hi : id = i
  · cases h : p.cell? i with
    | none => simp [hi]
    | some c => simp [hi]
  · simp [hi]

theorem count_set : (p.set id a).count i = p.count i := by
  rw [count, count, cell?_set]
  split
  · rw [Option.map_map]
    rfl
  · rfl

theorem count_release : (p.release id).2.count i = p.count i - if id = i then 1 else 0 := by
  rw [count, count, cell?_release]
  by_cases hi : id = i
  · cases h : p.cell? i with
    | none => simp [hi]
    | some c =>
      by_cases hc : c.count ≤ 1
      · simp only [hi, if_true, Option.bind_some, dropOne, if_pos hc, Option.map_none,
          Option.map_some, Option.getD_none, Option.getD_some]
        omega
      · simp [hi, dropOne, hc]
  · simp [hi]

/-! ### Sound pools -/

/-- Live numbers have been handed out, and a live cell has a handle. -/
structure Sound (p : Pool α) : Prop where
  fresh : ∀ {i}, p.isLive i = true → i < p.next
  positive : ∀ {i}, p.isLive i = true → 0 < p.count i

theorem sound_empty : (empty : Pool α).Sound where
  fresh h := by simp [isLive, cell?_empty] at h
  positive h := by simp [isLive, cell?_empty] at h

theorem count_eq_zero (h : p.isLive i = false) : p.count i = 0 := by
  rw [isLive, Option.isSome_eq_false_iff, Option.isNone_iff_eq_none] at h
  simp [count, h]

theorem Sound.isLive_iff (hp : p.Sound) : p.isLive i = true ↔ 0 < p.count i := by
  constructor
  · exact hp.positive
  · intro h
    by_contra hl
    rw [count_eq_zero (by simpa using hl)] at h
    exact absurd h (Nat.lt_irrefl 0)

theorem Sound.not_live_next (hp : p.Sound) : p.isLive p.next = false := by
  by_contra h
  exact absurd (hp.fresh (by simpa using h)) (Nat.lt_irrefl _)

theorem Sound.alloc (hp : p.Sound) : (p.alloc a).2.Sound where
  fresh {i} h := by
    rw [isLive_alloc, Bool.or_eq_true, decide_eq_true_eq] at h
    rw [next_alloc]
    rcases h with h | h
    · omega
    · have := hp.fresh h
      omega
  positive {i} h := by
    rw [isLive_alloc, Bool.or_eq_true, decide_eq_true_eq] at h
    rw [count_alloc]
    split
    · exact Nat.one_pos
    · exact hp.positive (h.resolve_left (by assumption))

theorem Sound.set (hp : p.Sound) : (p.set id a).Sound where
  fresh h := by
    rw [next_set]
    exact hp.fresh (by rwa [isLive_set] at h)
  positive h := by
    rw [count_set]
    exact hp.positive (by rwa [isLive_set] at h)

theorem Sound.retain (hp : p.Sound) : (p.retain id).Sound where
  fresh h := by
    rw [next_retain]
    exact hp.fresh (by rwa [isLive_retain] at h)
  positive h := by
    rw [isLive_retain] at h
    have := hp.positive h
    rw [count_retain]
    omega

theorem Sound.release (hp : p.Sound) : (p.release id).2.Sound where
  fresh h := by
    rw [next_release]
    exact hp.fresh (isLive_of_release h)
  positive {i} h := by
    rw [isLive, cell?_release] at h
    rw [count, cell?_release]
    by_cases hi : id = i
    · rw [if_pos hi] at h ⊢
      cases hc : p.cell? i with
      | none => simp [hc] at h
      | some c =>
        rw [hc, Option.bind_some, dropOne] at h
        rw [Option.bind_some, dropOne]
        split at h
        · simp at h
        · rename_i hn
          rw [if_neg hn, Option.map_some, Option.getD_some]
          show 0 < c.count - 1
          omega
    · rw [if_neg hi] at h ⊢
      exact hp.positive h

theorem Sound.isLive_release (hp : p.Sound) :
    (p.release id).2.isLive i = true ↔ p.isLive i = true ∧ (id = i → 1 < p.count i) := by
  rw [hp.release.isLive_iff, count_release, hp.isLive_iff]
  by_cases hi : id = i
  · simp only [hi, if_true, true_implies]
    omega
  · simp [hi]

/-- A handle that is given up frees its cell exactly when it was the only one. -/
theorem Sound.release_fst_eq (hp : p.Sound) :
    (p.release id).1 = if p.count id = 1 then p.get? id else none := by
  rw [release_fst]
  cases h : p.cell? id with
  | none => simp [count, h]
  | some c =>
    have hc : p.count id = c.count := by simp [count, h]
    have hpos : 0 < p.count id := hp.positive (by simp [isLive, h])
    rw [hc] at hpos ⊢
    by_cases h1 : c.count = 1
    · simp [h1, get?, h]
    · have : ¬ c.count ≤ 1 := by omega
      simp [h1, this]

end Pool

end ModuleHost
