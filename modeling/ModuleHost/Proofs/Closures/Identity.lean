/-
The identity of wrappers over whole histories.

A closure has at most one live wrapper at an arity, so wrapping it again hands out that one, and
nothing that was ever handed out for another closure or arity.  A live wrapper is what it was made
for as long as it lives, and taking closures does not forget it, also when other wrappers of its
closure are gone.

* `Closures.Sound.wrap_of_live`, `.wrap_fst_cases`, `.find?_takeOrphans` — what a sound table says;
* `Closures.Sound.wrappedCount_eq` — the closures that are counted are those with a live wrapper;
* `wrappers_keep_identity` — the same in words of histories, and for the table of every session.

Design notes: a handle is given up at most as often as it was taken, so a wrapper that has a handle
after a history has had one at every moment since it was made.
-/
import Mathlib
import ModuleHost.Proofs.Closures.History
import ModuleHost.Proofs.Session.Announcements

namespace ModuleHost

namespace Closures

variable {t : Closures} {past : List Deed} {w w' : Wrapper} {id id' : ℕ} {c : Int32}

/-! ### Sound tables -/

/-- Wrapping again hands out the live wrapper. -/
theorem Sound.wrap_of_live (ht : t.Sound) (h : t.wrappers.get? id = some w) :
    (t.wrap w).1 = id := by
  rw [wrap_of_find?_eq_some (ht.find?_eq_some_iff.mpr h)]

theorem Sound.eq_of_live (ht : t.Sound) (h : t.wrappers.get? id = some w)
    (h' : t.wrappers.get? id' = some w) : id = id' := by
  rw [← ht.wrap_of_live h, ht.wrap_of_live h']

/-- What wrapping hands out is a live wrapper of this closure at this arity, or it is fresh. -/
theorem Sound.wrap_fst_cases (ht : t.Sound) (w : Wrapper) :
    t.wrappers.get? (t.wrap w).1 = some w ∨ (t.wrap w).1 = t.wrappers.next := by
  cases hf : t.find? w with
  | some id =>
    rw [wrap_of_find?_eq_some hf]
    exact .inl (ht.find?_eq_some_iff.mp hf)
  | none =>
    rw [wrap_of_find?_eq_none hf]
    exact .inr rfl

/-- Taking closures does not forget a live wrapper. -/
theorem Sound.find?_takeOrphans (ht : t.Sound) (h : t.wrappers.get? id = some w) :
    t.takeOrphans.2.find? w = some id := by
  rw [ht.takeOrphans.find?_eq_some_iff, wrappers_takeOrphans]
  exact h

/-! ### Counting -/

theorem nodup_eraseDups (l : List Int32) : l.eraseDups.Nodup := by
  cases l with
  | nil => exact List.nodup_nil
  | cons a rest =>
    rw [List.eraseDups_cons, List.nodup_cons, List.mem_eraseDups]
    exact ⟨by simp, nodup_eraseDups (rest.filter fun b => !b == a)⟩
termination_by l.length
decreasing_by exact Nat.lt_succ_of_le (List.length_filter_le ..)

theorem Sound.mem_wrapped (ht : t.Sound) : c ∈ t.wrapped ↔ t.HasWrapper c := by
  rw [← ht.isWrapped_iff, wrapped, isWrapped, List.mem_eraseDups, List.mem_map, List.any_eq_true]
  simp only [List.mem_filter, Bool.and_eq_true, decide_eq_true_eq]
  constructor
  · rintro ⟨e, ⟨hmem, hlive⟩, hc⟩
    exact ⟨e, hmem, hc, hlive⟩
  · rintro ⟨e, hmem, hc, hlive⟩
    exact ⟨e, ⟨hmem, hlive⟩, hc⟩

theorem Sound.wrappedCount_eq (ht : t.Sound) : t.wrappedCount = {c | t.HasWrapper c}.ncard := by
  have hset : {c | t.HasWrapper c} = (t.wrapped.toFinset : Set Int32) := by
    ext c
    rw [Set.mem_ofPred_eq, Finset.mem_coe, List.mem_toFinset, ht.mem_wrapped]
  have hnodup : t.wrapped.Nodup := nodup_eraseDups _
  rw [hset, Set.ncard_coe_finset, List.toFinset_card_of_nodup hnodup, wrappedCount]

/-! ### Histories -/

/-- A wrapper that was handed out and has a handle is live, and what it was made for. -/
theorem Explains.get?_of_handled (h : Explains past t) (hw : .wrapped w id ∈ past)
    (hlive : 0 < Closures.handles past id) : t.wrappers.get? id = some w := by
  rw [← h.handles, ← h.sound.pool.isLive_iff] at hlive
  obtain ⟨w', hw'⟩ := Pool.isLive_iff_get?.mp hlive
  rw [hw', h.same hw hw']

/-- What wrapping hands out has never been handed out for another closure or arity. -/
theorem Explains.wrap_ne (h : Explains past t) (hw : .wrapped w' id ∈ past) (hne : w' ≠ w) :
    (t.wrap w).1 ≠ id := by
  rintro rfl
  rcases h.sound.wrap_fst_cases w with hlive | hfresh
  · exact hne (h.same hw hlive).symm
  · -- a fresh wrapper comes after all that were handed out
    have := h.handedOut hw
    omega

theorem Explains.wrappedCount_eq (h : Explains past t) :
    t.wrappedCount = {c | IsWrapped past c}.ncard := by
  simp only [h.isWrapped_iff, h.sound.wrappedCount_eq]

/-- What holds of the wrapper `id` of a closure at an arity, handed out in a history, after any
history in which it has a handle. -/
structure KeepsIdentity (r : Run) (w : Wrapper) (id : ℕ) : Prop where
  /-- No other wrapper of the closure at the arity has a handle. -/
  only : ∀ {id'}, .wrapped w id' ∈ r.past → 0 < handles r.past id' → id' = id
  /-- Wrapping the closure again hands it out. -/
  again : (r.table.wrap w).1 = id
  /-- The table finds it, also once closures without wrappers have been taken. -/
  found : r.table.find? w = some id ∧ r.table.takeOrphans.2.find? w = some id
  /-- It has the closure, the arity and the export that it was made for. -/
  content : ∃ v, r.table.wrappers.get? id = some v ∧ v.closure = w.closure ∧ v.arity = w.arity ∧
    v.trampoline = s!"$closureCall{w.arity}"

theorem Explains.keepsIdentity {r : Run} (h : Explains r.past r.table)
    (hw : .wrapped w id ∈ r.past) (hlive : 0 < Closures.handles r.past id) :
    KeepsIdentity r w id := by
  have hget := h.get?_of_handled hw hlive
  exact {
    only := fun hw' hlive' => h.sound.eq_of_live (h.get?_of_handled hw' hlive') hget
    again := h.sound.wrap_of_live hget
    found := ⟨h.sound.find?_eq_some_iff.mpr hget, h.sound.find?_takeOrphans hget⟩
    content := ⟨w, hget, rfl, rfl, rfl⟩ }

/-- A wrapper that was handed out keeps its identity through every later history for as long as it
has a handle; what is handed out for another closure or arity is never the same; and what is
counted after a history is the closures with a live wrapper.  The table of every session is sound,
so wrapping in a session hands out the live wrapper, also after closures have been taken. -/
theorem wrappers_keep_identity (ops : List Op) :
    (∀ w id, .wrapped w id ∈ (Run.of ops).past → ∀ later : List Op,
      0 < handles (Run.of (ops ++ later)).past id → KeepsIdentity (Run.of (ops ++ later)) w id) ∧
    (∀ w w' id, .wrapped w' id ∈ (Run.of ops).past → w' ≠ w →
      ((Run.of ops).table.wrap w).1 ≠ id) ∧
    (Run.of ops).table.wrappedCount = {c | IsWrapped (Run.of ops).past c}.ncard ∧
    (∀ s : Session, s.Reachable → ∀ w id, s.heap.wrapper? .session id = some w →
      (s.heap.wrap .session w).1 = .wrapper .session id ∧
      ((s.heap.takeOrphans .session).2.wrap .session w).1 = .wrapper .session id) := by
  have h := explains_of ops
  refine ⟨fun w id hw later hlive => ?_, fun w w' id hw hne => h.wrap_ne hw hne,
    h.wrappedCount_eq, fun s hs w id hget => ?_⟩
  · -- the later history still says that the wrapper was handed out
    obtain ⟨recent, hpast⟩ := Run.exists_past later (Run.of ops)
    rw [← Run.of_append] at hpast
    refine (explains_of (ops ++ later)).keepsIdentity ?_ hlive
    rw [hpast]
    exact List.mem_append_right _ hw
  · have ht := hs.closures_sound
    have hget' : s.heap.closures.takeOrphans.2.wrappers.get? id = some w := by
      rw [wrappers_takeOrphans]
      exact hget
    exact ⟨congrArg (FunctionRef.wrapper .session) (ht.wrap_of_live hget),
      congrArg (FunctionRef.wrapper .session) (ht.takeOrphans.wrap_of_live hget')⟩

/-- A wrapper keeps its identity when its sibling at another arity is gone and a take has forgotten
that one. -/
theorem wrappers_keep_identity_sibling :
    let ops : List Op := [.wrap ⟨7, 1⟩, .wrap ⟨7, 2⟩]
    let later : List Op := [.drop 0, .take]
    (.wrapped ⟨7, 2⟩ 1 ∈ (Run.of ops).past ∧ 0 < handles (Run.of (ops ++ later)).past 1) ∧
      KeepsIdentity (Run.of (ops ++ later)) ⟨7, 2⟩ 1 ∧
      ((Run.of (ops ++ later)).table.find? ⟨7, 1⟩) = none := by
  have hw : Deed.wrapped ⟨7, 2⟩ 1 ∈ (Run.of [.wrap ⟨7, 1⟩, .wrap ⟨7, 2⟩]).past := by decide +kernel
  have hlive : 0 < handles
      (Run.of ([.wrap ⟨7, 1⟩, .wrap ⟨7, 2⟩] ++ [.drop 0, .take])).past 1 := by decide +kernel
  exact ⟨⟨hw, hlive⟩, (wrappers_keep_identity _).1 _ _ hw _ hlive, by decide +kernel⟩

end Closures

end ModuleHost
