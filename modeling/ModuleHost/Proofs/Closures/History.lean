/-
Releases over whole histories of a table of wrappers.

A history lists what was done to a table and what came of it, newest first.  Handles and
debts are read off the history alone: `handles past id` counts the handles on a wrapper,
`IsWrapped past c` says that some wrapper of the closure still has one, and `Owed past c`
that the closure has been wrapped since it was last taken.

* `Explains` — how a history determines the table it has led to; every operation keeps it;
* `takeOrphans_exact` — after every history, the closures that are taken are exactly those
  that are owed and not wrapped, each once.  So a closure that was passed over is taken as
  soon as its last wrapper is gone, and the order of drops does not matter.
-/
import Mathlib
import ModuleHost.Proofs.Closures.Table

namespace ModuleHost

namespace Closures

/-- What can be done with a table of wrappers. -/
inductive Op where
  /-- Wrap a closure at an arity. -/
  | wrap (w : Wrapper)
  /-- Take one more handle on a wrapper. -/
  | clone (id : Nat)
  /-- Give up a handle on a wrapper. -/
  | drop (id : Nat)
  /-- Take the closures without wrappers. -/
  | take
  deriving DecidableEq, Repr

/-- An operation together with its answer. -/
inductive Deed where
  | wrapped (w : Wrapper) (id : Nat)
  | cloned (id : Nat)
  | dropped (id : Nat)
  | took (closures : List Int32)
  deriving DecidableEq, Repr

/-- Do something with a table. -/
def act (t : Closures) : Op → Deed × Closures
  | .wrap w => (.wrapped w (t.wrap w).1, (t.wrap w).2)
  | .clone id => (.cloned id, t.retain id)
  | .drop id => (.dropped id, t.release id)
  | .take => (.took t.takeOrphans.1, t.takeOrphans.2)

/-- A table and its history, newest first. -/
structure Run where
  table : Closures
  past : List Deed
  deriving Repr

/-- One more operation. -/
def Run.step (r : Run) (op : Op) : Run := ⟨(r.table.act op).2, (r.table.act op).1 :: r.past⟩

/-- All operations from the empty table on. -/
def Run.of (ops : List Op) : Run := ops.foldl Run.step ⟨empty, []⟩

/-! ### What a history says -/

/-- Handles on a wrapper: one from each time it was handed out or cloned, less those given up.
Only a holder of a handle can clone it. -/
def handles : List Deed → Nat → Nat
  | [], _ => 0
  | .wrapped _ i :: past, id => handles past id + if i = id then 1 else 0
  | .cloned i :: past, id => handles past id + if i = id ∧ 0 < handles past id then 1 else 0
  | .dropped i :: past, id => handles past id - if i = id then 1 else 0
  | .took _ :: past, id => handles past id

/-- Some wrapper of a closure, at any arity, has a handle. -/
def IsWrapped (past : List Deed) (c : Int32) : Prop :=
  ∃ w id, .wrapped w id ∈ past ∧ w.closure = c ∧ 0 < handles past id

/-- A closure has been wrapped since it was last taken. -/
def Owed : List Deed → Int32 → Prop
  | [], _ => False
  | .wrapped w _ :: past, c => w.closure = c ∨ Owed past c
  | .cloned _ :: past, c => Owed past c
  | .dropped _ :: past, c => Owed past c
  | .took closures :: past, c => c ∉ closures ∧ Owed past c

/-- How a history determines the table it has led to. -/
structure Explains (past : List Deed) (t : Closures) : Prop where
  sound : t.Sound
  handles : ∀ id, t.wrappers.count id = handles past id
  known : ∀ {id w}, t.wrappers.get? id = some w → .wrapped w id ∈ past
  same : ∀ {w id w'}, .wrapped w id ∈ past → t.wrappers.get? id = some w' → w' = w
  handedOut : ∀ {w id}, .wrapped w id ∈ past → id < t.wrappers.next
  owed : ∀ c, Owed past c ↔ t.Lists c

variable {past : List Deed} {t : Closures} {c : Int32}

theorem explains_empty : Explains [] empty where
  sound := sound_empty
  handles id := by simp [empty, Pool.count, Pool.cell?_empty, Closures.handles]
  known h := by simp [empty, Pool.get?, Pool.cell?_empty] at h
  same h := absurd h (List.not_mem_nil)
  handedOut h := absurd h (List.not_mem_nil)
  owed c := by
    rw [Owed, false_iff]
    rintro ⟨w, id, h, -⟩
    exact absurd h (List.not_mem_nil)

theorem Explains.isWrapped_iff (h : Explains past t) : IsWrapped past c ↔ t.HasWrapper c := by
  constructor
  · rintro ⟨w, id, hmem, hc, hpos⟩
    rw [← h.handles, ← h.sound.pool.isLive_iff] at hpos
    obtain ⟨w', hw'⟩ := Pool.isLive_iff_get?.mp hpos
    exact ⟨id, w', hw', by rw [h.same hmem hw', hc]⟩
  · rintro ⟨id, w, hw, hc⟩
    refine ⟨w, id, h.known hw, hc, ?_⟩
    rw [← h.handles, ← h.sound.pool.isLive_iff]
    exact Pool.isLive_iff_get?.mpr ⟨w, hw⟩

/-! ### Every operation is explained -/

theorem Explains.wrap (h : Explains past t) (w : Wrapper) :
    Explains (.wrapped w (t.wrap w).1 :: past) (t.wrap w).2 := by
  have howed : ∀ c, Owed (.wrapped w (t.wrap w).1 :: past) c ↔ (t.wrap w).2.Lists c := by
    intro c
    rw [h.sound.lists_wrap, Owed, h.owed]
  have hsound : (t.wrap w).2.Sound := h.sound.wrap
  cases hf : t.find? w with
  | some id =>
    have hw : t.wrappers.get? id = some w := h.sound.find?_eq_some_iff.mp hf
    rw [wrap_of_find?_eq_some hf] at howed hsound ⊢
    -- the live wrapper gets one more handle
    refine ⟨hsound, fun j => ?_, fun hj => ?_, fun hmem hj => ?_, fun hmem => ?_, howed⟩
    · rw [retain, Pool.count_retain, h.handles, Closures.handles]
      by_cases hj : id = j
      · subst hj
        have hlive : t.wrappers.isLive id = true := Pool.isLive_iff_get?.mpr ⟨w, hw⟩
        simp [hlive]
      · simp [hj]
    · rw [retain, Pool.get?_retain] at hj
      exact List.mem_cons_of_mem _ (h.known hj)
    · rw [retain, Pool.get?_retain] at hj
      rcases List.mem_cons.mp hmem with heq | hmem
      · obtain ⟨rfl, rfl⟩ := (Deed.wrapped.injEq ..).mp heq
        rw [hw, Option.some_inj] at hj
        exact hj.symm
      · exact h.same hmem hj
    · rw [retain, Pool.next_retain]
      rcases List.mem_cons.mp hmem with heq | hmem
      · obtain ⟨rfl, rfl⟩ := (Deed.wrapped.injEq ..).mp heq
        exact h.sound.handedOut (h.sound.listed hw)
      · exact h.handedOut hmem
  | none =>
    rw [wrap_of_find?_eq_none hf] at howed hsound ⊢
    -- a fresh wrapper has a number that no deed mentions
    refine ⟨hsound, fun j => ?_, fun hj => ?_, fun hmem hj => ?_, fun hmem => ?_, howed⟩
    · rw [Pool.count_alloc, Closures.handles]
      by_cases hj : t.wrappers.next = j
      · subst hj
        have h0 := Pool.count_eq_zero h.sound.pool.not_live_next
        rw [h.handles] at h0
        simp [h0]
      · simp [hj, h.handles]
    · rw [Pool.get?_alloc] at hj
      split at hj
      · rename_i hid
        rw [Option.some_inj] at hj
        rw [hj, hid]
        exact List.mem_cons_self
      · exact List.mem_cons_of_mem _ (h.known hj)
    · rw [Pool.get?_alloc] at hj
      rcases List.mem_cons.mp hmem with heq | hmem
      · obtain ⟨rfl, rfl⟩ := (Deed.wrapped.injEq ..).mp heq
        rw [if_pos rfl, Option.some_inj] at hj
        exact hj.symm
      · have := h.handedOut hmem
        rw [if_neg (by omega)] at hj
        exact h.same hmem hj
    · rw [Pool.next_alloc]
      rcases List.mem_cons.mp hmem with heq | hmem
      · obtain ⟨rfl, rfl⟩ := (Deed.wrapped.injEq ..).mp heq
        exact Nat.lt_succ_self _
      · exact Nat.lt_succ_of_lt (h.handedOut hmem)

theorem mem_of_cons_ne {d e : Deed} (h : d ∈ e :: past) (hne : d ≠ e) : d ∈ past :=
  (List.mem_cons.mp h).resolve_left hne

theorem Explains.clone (h : Explains past t) (id : Nat) :
    Explains (.cloned id :: past) (t.retain id) where
  sound := h.sound.retain
  handles j := by
    simp only [retain, Pool.count_retain, h.sound.pool.isLive_iff, h.handles, Closures.handles]
  known hj := by
    rw [retain, Pool.get?_retain] at hj
    exact List.mem_cons_of_mem _ (h.known hj)
  same hmem hj := by
    rw [retain, Pool.get?_retain] at hj
    exact h.same (mem_of_cons_ne hmem (by simp)) hj
  handedOut hmem := by
    rw [retain, Pool.next_retain]
    exact h.handedOut (mem_of_cons_ne hmem (by simp))
  owed c := h.owed c

theorem Explains.drop (h : Explains past t) (id : Nat) :
    Explains (.dropped id :: past) (t.release id) where
  sound := h.sound.release
  handles j := by
    rw [release_eq, Pool.count_release, h.handles, Closures.handles]
  known hj := by
    rw [release_eq] at hj
    exact List.mem_cons_of_mem _ (h.known (Pool.get?_release_of_some hj))
  same hmem hj := by
    rw [release_eq] at hj
    exact h.same (mem_of_cons_ne hmem (by simp)) (Pool.get?_release_of_some hj)
  handedOut hmem := by
    rw [release_eq, Pool.next_release]
    exact h.handedOut (mem_of_cons_ne hmem (by simp))
  owed c := by
    rw [release_eq]
    exact h.owed c

theorem Explains.take (h : Explains past t) :
    Explains (.took t.takeOrphans.1 :: past) t.takeOrphans.2 where
  sound := h.sound.takeOrphans
  handles j := by
    rw [wrappers_takeOrphans, h.handles, Closures.handles]
  known hj := by
    rw [wrappers_takeOrphans] at hj
    exact List.mem_cons_of_mem _ (h.known hj)
  same hmem hj := by
    rw [wrappers_takeOrphans] at hj
    exact h.same (mem_of_cons_ne hmem (by simp)) hj
  handedOut hmem := by
    rw [wrappers_takeOrphans]
    exact h.handedOut (mem_of_cons_ne hmem (by simp))
  owed c := by
    rw [Owed, h.owed, lists_takeOrphans, and_comm]

theorem Explains.act (h : Explains past t) (op : Op) :
    Explains ((t.act op).1 :: past) (t.act op).2 := by
  cases op with
  | wrap w => exact h.wrap w
  | clone id => exact h.clone id
  | drop id => exact h.drop id
  | take => exact h.take

theorem Explains.foldl (ops : List Op) : ∀ {r : Run}, Explains r.past r.table →
    Explains (ops.foldl Run.step r).past (ops.foldl Run.step r).table := by
  induction ops with
  | nil => exact fun h => h
  | cons op rest ih => exact fun h => ih (h.act op)

theorem explains_of (ops : List Op) : Explains (Run.of ops).past (Run.of ops).table :=
  Explains.foldl ops explains_empty

/-! ### Later histories -/

theorem Run.of_append (ops later : List Op) :
    Run.of (ops ++ later) = later.foldl Run.step (Run.of ops) := List.foldl_append

/-- A history is added to at its front. -/
theorem Run.exists_past (later : List Op) : ∀ r : Run,
    ∃ recent, (later.foldl Run.step r).past = recent ++ r.past := by
  induction later with
  | nil => exact fun r => ⟨[], rfl⟩
  | cons op rest ih =>
    intro r
    obtain ⟨recent, h⟩ := ih (r.step op)
    exact ⟨recent ++ [(r.table.act op).1], by rw [List.foldl_cons, h]; simp [Run.step]⟩

/-- A debt is settled by being taken and by nothing else. -/
theorem Owed.append (h : Owed past c) : ∀ recent : List Deed,
    (∀ closures, .took closures ∈ recent → c ∉ closures) → Owed (recent ++ past) c := by
  intro recent
  induction recent with
  | nil => exact fun _ => h
  | cons d rest ih =>
    intro hn
    have hrest : Owed (rest ++ past) c :=
      ih fun closures hmem => hn closures (List.mem_cons_of_mem _ hmem)
    cases d with
    | wrapped w id => exact Or.inr hrest
    | cloned id => exact hrest
    | dropped id => exact hrest
    | took closures => exact ⟨hn closures List.mem_cons_self, hrest⟩

theorem Run.past_drops (ids : List Nat) : ∀ r : Run,
    ((ids.map Op.drop).foldl Run.step r).past = (ids.map Deed.dropped).reverse ++ r.past := by
  induction ids with
  | nil => exact fun r => rfl
  | cons id rest ih =>
    intro r
    rw [List.map_cons, List.foldl_cons, ih]
    simp [Run.step, Closures.act]

theorem handles_drops (ids : List Nat) (id : Nat) :
    handles ((ids.map Deed.dropped).reverse ++ past) id = handles past id - ids.count id := by
  induction ids generalizing past with
  | nil => simp
  | cons i rest ih =>
    rw [List.map_cons, List.reverse_cons, List.append_assoc, ih, List.singleton_append,
      handles, List.count_cons]
    by_cases hi : i = id
    · simp [hi]
      omega
    · simp [hi]

theorem owed_drops (ids : List Nat) :
    Owed ((ids.map Deed.dropped).reverse ++ past) c ↔ Owed past c := by
  induction ids generalizing past with
  | nil => simp
  | cons i rest ih =>
    rw [List.map_cons, List.reverse_cons, List.append_assoc, ih]
    rfl

theorem isWrapped_drops (ids : List Nat) :
    IsWrapped ((ids.map Deed.dropped).reverse ++ past) c
      ↔ ∃ w id, .wrapped w id ∈ past ∧ w.closure = c ∧ 0 < handles past id - ids.count id := by
  simp only [IsWrapped, handles_drops, List.mem_append, List.mem_reverse, List.mem_map,
    reduceCtorEq, and_false, exists_false, false_or]

/-! ### Exactness -/

/-- After every history, what is taken is exactly what is owed and not wrapped, each closure
once.  A closure that is passed over, being wrapped, stays owed: whatever is done later, as
soon as it has no wrapper it is taken, unless it has been taken in between.  And two
histories that drop the same handles in different orders take the same closures. -/
theorem takeOrphans_exact (ops : List Op) :
    (Run.of ops).table.takeOrphans.1.Nodup ∧
    (∀ c, c ∈ (Run.of ops).table.takeOrphans.1
      ↔ Owed (Run.of ops).past c ∧ ¬ IsWrapped (Run.of ops).past c) ∧
    (∀ (later : List Op) (c : Int32), Owed (Run.of ops).past c →
      ∃ recent, (Run.of (ops ++ later)).past = recent ++ (Run.of ops).past ∧
        ((∃ closures, .took closures ∈ recent ∧ c ∈ closures) ∨
          IsWrapped (Run.of (ops ++ later)).past c ∨
          c ∈ (Run.of (ops ++ later)).table.takeOrphans.1)) ∧
    (∀ ids ids' : List Nat, ids.Perm ids' →
      (Run.of (ops ++ ids.map .drop)).table.takeOrphans.1.Perm
        (Run.of (ops ++ ids'.map .drop)).table.takeOrphans.1) := by
  have hmem : ∀ (ops : List Op) (c : Int32), c ∈ (Run.of ops).table.takeOrphans.1
      ↔ Owed (Run.of ops).past c ∧ ¬ IsWrapped (Run.of ops).past c := by
    intro ops c
    have h := explains_of ops
    rw [h.sound.mem_takeOrphans, h.owed, h.isWrapped_iff]
  refine ⟨nodup_takeOrphans, hmem ops, ?_, ?_⟩
  · intro later c howed
    obtain ⟨recent, hpast⟩ := Run.exists_past later (Run.of ops)
    rw [← Run.of_append] at hpast
    refine ⟨recent, hpast, ?_⟩
    by_cases htaken : ∃ closures, .took closures ∈ recent ∧ c ∈ closures
    · exact Or.inl htaken
    · refine Or.inr (Classical.or_iff_not_imp_left.mpr fun hwrapped => ?_)
      have hstill : Owed (recent ++ (Run.of ops).past) c :=
        howed.append recent fun closures hm hc => htaken ⟨closures, hm, hc⟩
      exact (hmem _ c).mpr ⟨by rwa [hpast], hwrapped⟩
  -- only the number of handles given up on each wrapper matters, and the order keeps it
  · intro ids ids' hperm
    refine (List.perm_ext_iff_of_nodup nodup_takeOrphans nodup_takeOrphans).mpr fun c => ?_
    rw [hmem, hmem, Run.of_append, Run.of_append, Run.past_drops, Run.past_drops, owed_drops,
      owed_drops, isWrapped_drops, isWrapped_drops]
    simp only [hperm.count_eq]

/-- A closure alive at another arity is passed over, and taken once both wrappers are gone. -/
example :
    let ops : List Op := [.wrap ⟨7, 1⟩, .wrap ⟨7, 2⟩, .drop 0]
    (Run.of ops).table.takeOrphans.1 = [] ∧
      (Run.of (ops ++ [.take, .drop 1])).table.takeOrphans.1 = [7] := by
  decide +kernel

end Closures

end ModuleHost
