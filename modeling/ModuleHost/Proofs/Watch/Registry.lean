/-
What the operations of a registry do to its cells.

* `Heap.register_eq`, `unregister_eq` — a registration adds one cell at the end or is refused,
  and an `unregister` leaves the cells of other tokens;
* `collectAll_fst`, `collectAll_watchCells` — collecting several registries gives what each gives
  by itself, one after the other, and leaves in each what collecting it alone leaves;
* `Session.Reachable.ascending`, `Session.Evolves.tracks` — a session lists its registries in
  order of creation and forgets none that is alive.

Design notes: taking cells out changes no life, since the caller gets the handles on the held
values.  So all registries are judged by the heap as it was before the first one.
-/
import Mathlib
import ModuleHost.Proofs.Watch.Ages

namespace ModuleHost

/-- What a weak handle on a value watches: nothing for a value without a payload, a module or a
registry. -/
def Value.weak? (v : Value) : Option Target :=
  match v.target? with
  | some (.linkedModule _) | some (.registry _) | none => none
  | some t => some t

theorem Value.weak?_eq (v : Value) : v.weak? = v.watchable.toOption := by
  cases v <;> rfl

theorem Value.target?_of_weak? {v : Value} {t : Target} (h : v.weak? = some t) :
    v.target? = some t := by
  cases v <;> first | exact h | exact absurd h (by simp [weak?, target?])

/-- The cell of a registration, if target and token can be watched. -/
def WatchCell.of? (target held : Value) (token : Option Value) : Option WatchCell :=
  match target.weak?, token with
  | none, _ => none
  | some t, none => some ⟨t, held, none⟩
  | some t, some v => v.weak?.map fun k => ⟨t, held, some k⟩

theorem WatchCell.of?_spec {target held : Value} {token : Option Value} {c : WatchCell}
    (h : of? target held token = some c) : target.weak? = some c.target ∧ c.held = held := by
  unfold of? at h
  split at h
  · exact absurd h (by simp)
  · rename_i ht
    cases h
    exact ⟨ht, rfl⟩
  · rename_i ht
    obtain ⟨k, -, rfl⟩ := Option.map_eq_some_iff.mp h
    exact ⟨ht, rfl⟩

namespace Heap

variable {h : Heap} {r q : ℕ} {t : Target} {cells : List WatchCell}

/-! ### Cells that are replaced -/

theorem isLive_setWatchCells : (h.setWatchCells q cells).isLive t = h.isLive t := by
  unfold setWatchCells
  split
  · rcases t with i | i | i | (i | ⟨k, i⟩) | i | i | i
    case registry => exact Pool.isLive_set
    all_goals rfl
  · rfl

theorem watchCells_setWatchCells_self (hl : h.registries.isLive r = true) :
    (h.setWatchCells r cells).watchCells r = cells := by
  obtain ⟨x, hx⟩ := Pool.isLive_iff_get?.mp hl
  have hset : h.setWatchCells r cells
      = { h with registries := h.registries.set r { x with cells } } := by
    rw [setWatchCells, hx]
  rw [hset, watchCells, Pool.get?_set, if_pos rfl, hx]
  rfl

theorem registries_get?_setWatchCells_of_ne (hqr : q ≠ r) :
    (h.setWatchCells q cells).registries.get? r = h.registries.get? r := by
  unfold setWatchCells
  split
  · rw [Pool.get?_set, if_neg hqr]
  · rfl

/-! ### One registry -/

/-- A registration adds its cell at the end, or it is refused. -/
theorem register_eq (target held : Value) (token : Option Value) :
    (h.register r target held token).toOption = (WatchCell.of? target held token).map fun c =>
      (h.retain held).setWatchCells r (h.watchCells r ++ [c]) := by
  unfold register WatchCell.of?
  simp only [Value.weak?_eq]
  cases target.watchable with
  | error e => rfl
  | ok t =>
    cases token with
    | none => simp [bind, Except.bind, pure, Except.pure, Except.toOption, watchCells_retain]
    | some v =>
      cases hv : v.watchable with
      | error e => simp [hv, bind, Except.bind, Functor.map, Except.map, Except.toOption]
      | ok k =>
        simp [hv, bind, Except.bind, Functor.map, Except.map, pure, Except.pure,
          Except.toOption, watchCells_retain]

theorem unregister_eq (token : Value) :
    (h.unregister r token).toOption = token.weak?.map fun k =>
      let gone := (h.watchCells r).filter (·.token = some k)
      (!gone.isEmpty, (h.setWatchCells r ((h.watchCells r).filter (·.token ≠ some k))).releaseAll
        (gone.map (·.held))) := by
  unfold unregister
  rw [Value.weak?_eq]
  cases token.watchable with
  | error e => rfl
  | ok k => rfl

/-! ### Several registries -/

theorem isLive_retainAll (vs : List Value) : (h.retainAll vs).isLive t = h.isLive t :=
  retainAll_keeps (P := fun a => a.isLive t = h.isLive t)
    (fun u ha => (isLive_retainTarget u t).trans ha) vs rfl

theorem registries_get?_retainAll (vs : List Value) (r : ℕ) :
    (h.retainAll vs).registries.get? r = h.registries.get? r := by
  induction vs generalizing h with
  | nil => rfl
  | cons v rest ih =>
    rw [retainAll, List.foldl_cons]
    exact ih.trans ((sameContents_retain v).registries r)

/-- The cleanup calls that are due for a registry. -/
def due (h : Heap) (r : ℕ) : List DueCleanup :=
  (h.cleanup? r).toList.flatMap fun cleanup => (h.collect r).1.map (⟨cleanup, ·⟩)

/-- What a registry has due depends on its own cells and on who is alive. -/
theorem due_congr {h' : Heap} (hget : h'.registries.get? r = h.registries.get? r)
    (hlive : ∀ t, h'.isLive t = h.isLive t) : h'.due r = h.due r := by
  simp only [due, cleanup?, collect, watchCells, hget, hlive]

section CollectNext

variable {p : List DueCleanup × Heap}

theorem collectNext_of_none (hc : p.2.cleanup? r = none) : collectNext p r = p := by
  simp only [collectNext, hc]

theorem collectNext_of_some {cleanup : FunctionRef} (hc : p.2.cleanup? r = some cleanup) :
    collectNext p r = (p.1 ++ (p.2.collect r).1.map (⟨cleanup, ·⟩),
      (p.2.collect r).2.retainAll ((p.2.collect r).1.map fun _ => .function cleanup)) := by
  simp only [collectNext, hc]

theorem collectNext_fst : (collectNext p r).1 = p.1 ++ p.2.due r := by
  cases hc : p.2.cleanup? r with
  | none => simp [collectNext_of_none hc, due, hc]
  | some cleanup => simp [collectNext_of_some hc, due, hc]

theorem isLive_collectNext : (collectNext p r).2.isLive t = p.2.isLive t := by
  cases hc : p.2.cleanup? r with
  | none => rw [collectNext_of_none hc]
  | some cleanup =>
    rw [collectNext_of_some hc]
    exact (isLive_retainAll _).trans isLive_setWatchCells

theorem registries_get?_collectNext_of_ne (hqr : q ≠ r) :
    (collectNext p q).2.registries.get? r = p.2.registries.get? r := by
  cases hc : p.2.cleanup? q with
  | none => rw [collectNext_of_none hc]
  | some cleanup =>
    rw [collectNext_of_some hc]
    exact (registries_get?_retainAll _ r).trans (registries_get?_setWatchCells_of_ne hqr)

theorem watchCells_collectNext_self :
    (collectNext p r).2.watchCells r = (p.2.watchCells r).filter fun c => p.2.isLive c.target := by
  cases hc : p.2.cleanup? r with
  | none =>
    have hcells : p.2.watchCells r = [] := by
      rw [cleanup?, Option.map_eq_none_iff] at hc
      rw [watchCells, hc]
      rfl
    rw [collectNext_of_none hc, hcells, List.filter_nil]
  | some cleanup =>
    obtain ⟨x, hx, -⟩ := Option.map_eq_some_iff.mp hc
    have hself : (p.2.collect r).2.watchCells r
        = (p.2.watchCells r).filter fun c => p.2.isLive c.target :=
      watchCells_setWatchCells_self (Pool.isLive_iff_get?.mpr ⟨x, hx⟩)
    rw [collectNext_of_some hc, ← hself, watchCells, registries_get?_retainAll, ← watchCells]

end CollectNext

theorem foldl_collectNext_fst {rs : List ℕ} (hrs : rs.Nodup) (p : List DueCleanup × Heap) :
    (rs.foldl collectNext p).1 = p.1 ++ rs.flatMap p.2.due := by
  induction rs generalizing p with
  | nil => simp
  | cons r rest ih =>
    obtain ⟨hr, hrest⟩ := List.nodup_cons.mp hrs
    -- the first registry changes neither the cells of the others nor who is alive
    have hdue : rest.flatMap (collectNext p r).2.due = rest.flatMap p.2.due := by
      refine List.flatMap_congr fun q hq => due_congr ?_ fun t => isLive_collectNext
      exact registries_get?_collectNext_of_ne fun heq => hr (heq ▸ hq)
    rw [List.foldl_cons, ih hrest, hdue, collectNext_fst, List.flatMap_cons, List.append_assoc]

theorem registries_get?_foldl_collectNext {rs : List ℕ} (hr : r ∉ rs)
    (p : List DueCleanup × Heap) :
    (rs.foldl collectNext p).2.registries.get? r = p.2.registries.get? r := by
  induction rs generalizing p with
  | nil => rfl
  | cons q rest ih =>
    rw [List.mem_cons, not_or] at hr
    rw [List.foldl_cons, ih hr.2, registries_get?_collectNext_of_ne (Ne.symm hr.1)]

theorem watchCells_foldl_collectNext {rs : List ℕ} (hrs : rs.Nodup) (hr : r ∈ rs)
    (p : List DueCleanup × Heap) :
    (rs.foldl collectNext p).2.watchCells r
      = (p.2.watchCells r).filter fun c => p.2.isLive c.target := by
  induction rs generalizing p with
  | nil => exact absurd hr List.not_mem_nil
  | cons q rest ih =>
    obtain ⟨hq, hrest⟩ := List.nodup_cons.mp hrs
    rw [List.foldl_cons]
    by_cases hqr : q = r
    -- collected first, and left alone by the rest
    · subst hqr
      rw [watchCells, registries_get?_foldl_collectNext hq, ← watchCells,
        watchCells_collectNext_self]
    · have hmem : r ∈ rest := (List.mem_cons.mp hr).resolve_left (Ne.symm hqr)
      rw [ih hrest hmem, watchCells, registries_get?_collectNext_of_ne hqr, ← watchCells]
      simp only [isLive_collectNext]

/-- Collecting several registries gives what each has due, one after the other. -/
theorem collectAll_fst {rs : List ℕ} (hrs : rs.Nodup) :
    (h.collectAll rs).1 = rs.flatMap h.due := foldl_collectNext_fst hrs ([], h)

/-- It leaves in each registry the cells whose targets are alive. -/
theorem collectAll_watchCells {rs : List ℕ} (hrs : rs.Nodup) (hr : r ∈ rs) :
    (h.collectAll rs).2.watchCells r = (h.watchCells r).filter fun c => h.isLive c.target :=
  watchCells_foldl_collectNext hrs hr ([], h)

end Heap

/-! ### The registries of a session -/

namespace Session

variable {s s' : Session}

/-- What one change does to the list of registries: a fresh one comes last, or those that are
gone are forgotten. -/
theorem Change.finalizers (hc : s.Change s') :
    s.heap.Ages s'.heap ∧
      (s'.finalizers = s.finalizers ∨
        (s'.finalizers = s.finalizers ++ [s.heap.registries.next] ∧
          s.heap.registries.next < s'.heap.registries.next) ∨
        s'.finalizers = s.finalizers.filter s'.heap.registries.isLive) := by
  cases hc with
  | heap change => exact ⟨change.ages, .inl rfl⟩
  | tracked cleanup =>
    exact ⟨(Heap.Change.newRegistry cleanup).ages, .inr (.inl ⟨rfl, Nat.lt_succ_self _⟩)⟩
  | pruned => exact ⟨.refl, .inr (.inr rfl)⟩
  | lent | crossed | printed | ticked | timers | stored
  | linked | asked | kept | recorded => exact ⟨.refl, .inl rfl⟩

/-- The registries of a session are listed in order of creation. -/
structure Ascending (s : Session) : Prop where
  sorted : s.finalizers.Pairwise (· < ·)
  made : ∀ r ∈ s.finalizers, r < s.heap.registries.next

theorem Change.ascending (hc : s.Change s') (ha : s.Ascending) : s'.Ascending := by
  obtain ⟨hages, hlist⟩ := hc.finalizers
  have hmade : ∀ r ∈ s.finalizers, r < s'.heap.registries.next := fun r hr =>
    lt_of_lt_of_le (ha.made r hr) hages.registries.next_le
  rcases hlist with hf | ⟨hf, hnext⟩ | hf
  · exact ⟨by rw [hf]; exact ha.sorted, by rw [hf]; exact hmade⟩
  · constructor
    · rw [hf]
      refine List.pairwise_append.mpr ⟨ha.sorted, List.pairwise_singleton _ _, ?_⟩
      intro r hr q hq
      rw [List.mem_singleton.mp hq]
      exact ha.made r hr
    · intro r hr
      rw [hf, List.mem_append, List.mem_singleton] at hr
      rcases hr with hr | rfl
      · exact hmade r hr
      · exact hnext
  · constructor
    · rw [hf]
      exact ha.sorted.filter _
    · intro r hr
      rw [hf] at hr
      exact hmade r (List.mem_of_mem_filter hr)

theorem Reachable.ascending (hs : s.Reachable) : s.Ascending := by
  -- a new session has none
  refine hs.invariant (fun e c loader => ?_) fun hc ha => hc.ascending ha
  exact ⟨List.Pairwise.nil, fun r hr => absurd hr List.not_mem_nil⟩

theorem Change.lists (hc : s.Change s') {r : ℕ} (hr : r ∈ s.finalizers)
    (hl : s'.heap.registries.isLive r = true) : r ∈ s'.finalizers := by
  obtain ⟨-, hf | ⟨hf, -⟩ | hf⟩ := hc.finalizers
  · rwa [hf]
  · rw [hf]
    exact List.mem_append_left _ hr
  · rw [hf]
    exact List.mem_filter.mpr ⟨hr, hl⟩

theorem Evolves.ages (hev : s.Evolves s') : s.heap.Ages s'.heap :=
  hev.keeps (P := fun a => s.heap.Ages a.heap) (fun hc ha => ha.trans hc.finalizers.1) .refl

/-- A registry that is listed stays listed as long as it is alive. -/
theorem Evolves.lists (hev : s.Evolves s') (ha : s.Ascending) {r : ℕ} (hr : r ∈ s.finalizers)
    (hl : s'.heap.registries.isLive r = true) : r ∈ s'.finalizers := by
  induction hev with
  | refl => exact hr
  | tail hev hc ih =>
    have hages := Evolves.ages hev
    have hmade := lt_of_lt_of_le (ha.made r hr) hages.registries.next_le
    exact hc.lists (ih (hc.finalizers.1.registries.isLive hmade hl)) hl

end Session

end ModuleHost
