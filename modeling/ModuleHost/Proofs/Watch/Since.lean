/-
What has been registered since.

A registry gains cells by registrations and in no other way.  So whatever a session goes
through, the cells of a registry are some of those it had and of those registered since, in
order.

* `Session.Gains` — an evolution, and the cells that it registers with one registry;
* `Session.Evolves.exists_gains` — every evolution is one of these;
* `Session.Gains.watchCells` — by induction, what the registry has then.
-/
import Mathlib
import ModuleHost.Proofs.Watch.Registry

namespace ModuleHost

namespace Heap

variable {h h' : Heap} {r : ℕ}

theorem Spares.sublist (hsp : Spares r h h') : (h'.watchCells r).Sublist (h.watchCells r) := by
  cases hx : h'.registries.get? r with
  | none =>
    rw [Heap.watchCells, hx]
    exact List.nil_sublist _
  | some x =>
    rcases hsp.get? x hx with hg | ⟨-, hcells⟩
    · rw [Heap.watchCells, Heap.watchCells, hx, hg]
    · rw [Heap.watchCells, hx, Option.map_some, Option.getD_some, hcells]
      exact List.nil_sublist _

theorem Spares.filter_eq_nil {p : WatchCell → Bool} (hsp : Spares r h h')
    (hnone : (h.watchCells r).filter p = []) : (h'.watchCells r).filter p = [] :=
  List.sublist_nil.mp (hnone ▸ hsp.sublist.filter p)

/-- What replacing the cells of a registry leaves in it; one that is gone has none. -/
theorem watchCells_setWatchCells (cells : List WatchCell) :
    (h.setWatchCells r cells).watchCells r = cells ∨
      (h.setWatchCells r cells).watchCells r = [] := by
  cases hl : h.registries.isLive r with
  | true => exact .inl (watchCells_setWatchCells_self hl)
  | false =>
    refine .inr (watchCells_of_not_live ?_)
    exact (isLive_setWatchCells (t := .registry r)).trans hl

theorem filter_watchCells_setWatchCells {cells : List WatchCell} {p : WatchCell → Bool}
    (hnone : cells.filter p = []) : ((h.setWatchCells r cells).watchCells r).filter p = [] := by
  rcases h.watchCells_setWatchCells (r := r) cells with heq | heq
  · rw [heq, hnone]
  · rw [heq, List.filter_nil]

theorem setWatchCells_sublist {q : ℕ} {cells : List WatchCell}
    (hc : q = r → cells.Sublist (h.watchCells r)) :
    ((h.setWatchCells q cells).watchCells r).Sublist (h.watchCells r) := by
  by_cases hq : q = r
  · subst hq
    rcases h.watchCells_setWatchCells (r := q) cells with heq | heq
    · rw [heq]
      exact hc rfl
    · rw [heq]
      exact List.nil_sublist _
  · exact (Spares.setWatchCells hq).sublist

/-- A change registers a cell with a registry, or the registry has at most what it had. -/
theorem Change.sublist_or (hc : h.Change h') (r : ℕ) :
    (∃ cell, h' = h.setWatchCells r (h.watchCells r ++ [cell])) ∨
      (h'.watchCells r).Sublist (h.watchCells r) := by
  cases hc with
  | retained t => exact .inr (Spares.retainTarget t).sublist
  | released t => exact .inr (Spares.releaseTarget t).sublist
  | newRegistry cleanup => exact .inr (Spares.allocRegistry cleanup).sublist
  | wrapped k w => exact .inr (Spares.wrap k w).sublist
  | taken k =>
    cases k with
    | session => exact .inr (Spares.of_eq rfl).sublist
    | embedder => exact .inr (Spares.of_eq rfl).sublist
  | watched q cell =>
    by_cases hq : q = r
    · subst hq
      exact .inl ⟨cell, rfl⟩
    · exact .inr (Spares.setWatchCells hq).sublist
  | unwatched q token =>
    refine .inr (setWatchCells_sublist fun hq => ?_)
    rw [hq]
    exact List.filter_sublist
  | collected q =>
    refine .inr (setWatchCells_sublist fun hq => ?_)
    rw [hq]
    exact List.filter_sublist
  | _ => exact .inr (Spares.of_eq rfl).sublist

end Heap

namespace Session

variable {s s' : Session} {r : ℕ} {added : List WatchCell}

theorem Change.sublist_or (hc : s.Change s') (r : ℕ) :
    (∃ cell, s' = { s with heap := s.heap.setWatchCells r (s.heap.watchCells r ++ [cell]) }) ∨
      (s'.heap.watchCells r).Sublist (s.heap.watchCells r) := by
  cases hc with
  | heap hc =>
    rcases hc.sublist_or r with ⟨cell, rfl⟩ | hle
    · exact .inl ⟨cell, rfl⟩
    · exact .inr hle
  | tracked cleanup => exact .inr (Heap.Spares.allocRegistry cleanup).sublist
  | _ => exact .inr (List.Sublist.refl _)

/-- An evolution, and the cells that are registered with a registry in the course of it, oldest
first. -/
inductive Gains (r : ℕ) (s : Session) : List WatchCell → Session → Prop
  | refl : Gains r s [] s
  | registered {added : List WatchCell} {s' : Session} {cell : WatchCell}
      (before : Gains r s added s') :
      Gains r s (added ++ [cell])
        { s' with heap := s'.heap.setWatchCells r (s'.heap.watchCells r ++ [cell]) }
  | changed {added : List WatchCell} {s' s'' : Session} (before : Gains r s added s')
      (change : s'.Change s'')
      (fewer : (s''.heap.watchCells r).Sublist (s'.heap.watchCells r)) : Gains r s added s''

theorem Evolves.exists_gains (hev : s.Evolves s') (r : ℕ) : ∃ added, s.Gains r added s' := by
  induction hev with
  | refl => exact ⟨[], .refl⟩
  | tail _ hc ih =>
    obtain ⟨added, hgains⟩ := ih
    rcases hc.sublist_or r with ⟨cell, rfl⟩ | hle
    · exact ⟨added ++ [cell], .registered hgains⟩
    · exact ⟨added, .changed hgains hc hle⟩

theorem Gains.evolves (hg : s.Gains r added s') : s.Evolves s' := by
  induction hg with
  | refl => exact .refl
  | registered _ ih => exact ih.tail (.heap (.watched r _))
  | changed _ change _ ih => exact ih.tail change

/-- The registry has some of the cells that it had and some of those registered since. -/
theorem Gains.watchCells (hg : s.Gains r added s') :
    (s'.heap.watchCells r).Sublist (s.heap.watchCells r ++ added) := by
  induction hg with
  | refl => simp
  | @registered added s' cell _ ih =>
    -- a registry that is gone by then gains nothing
    rcases s'.heap.watchCells_setWatchCells (r := r) (s'.heap.watchCells r ++ [cell]) with heq | heq
    · rw [heq, ← List.append_assoc]
      exact ih.append (List.Sublist.refl _)
    · rw [heq]
      exact List.nil_sublist _
  | changed _ _ fewer ih => exact fewer.trans ih

end Session

end ModuleHost
