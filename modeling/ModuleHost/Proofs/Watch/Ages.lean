/-
What is gone stays gone.

Numbers of payloads are handed out once.  So whatever happens to a heap, a payload that has been
made and freed is never alive again, and a registry that is alive later was alive before, with
the same cells unless an operation of its own changed them.

* `Heap.Ages`, `Heap.Evolves.ages` — payloads that have been made are only lost;
* `Heap.Spares` — a registry that is there is what it was, or fresh.
-/
import Mathlib
import ModuleHost.Proofs.Heap.Balance
import ModuleHost.Proofs.Session.Change

namespace ModuleHost

/-! ### Pools -/

namespace Pool

variable {α : Type} {p q r : Pool α} {a : α} {i : ℕ}

/-- Numbers that have been handed out stay so, and their cells are only lost. -/
structure Ages (p q : Pool α) : Prop where
  next_le : p.next ≤ q.next
  isLive : ∀ {i}, i < p.next → q.isLive i = true → p.isLive i = true

theorem Ages.refl : p.Ages p := ⟨le_refl _, fun _ hl => hl⟩

theorem Ages.trans (h₁ : p.Ages q) (h₂ : q.Ages r) : p.Ages r where
  next_le := h₁.next_le.trans h₂.next_le
  isLive hi hl := h₁.isLive hi (h₂.isLive (lt_of_lt_of_le hi h₁.next_le) hl)

theorem Ages.alloc : p.Ages (p.alloc a).2 where
  next_le := Nat.le_succ _
  isLive {i} hi hl := by
    rw [isLive_alloc, Bool.or_eq_true, decide_eq_true_eq] at hl
    exact hl.resolve_left (by omega)

theorem Ages.retain : p.Ages (p.retain i) where
  next_le := le_of_eq next_retain.symm
  isLive _ hl := by rwa [isLive_retain] at hl

theorem Ages.release : p.Ages (p.release i).2 where
  next_le := le_of_eq next_release.symm
  isLive _ hl := isLive_of_release hl

theorem Ages.set : p.Ages (p.set i a) where
  next_le := le_of_eq next_set.symm
  isLive _ hl := by rwa [isLive_set] at hl

end Pool

theorem Closures.ages_wrap {c : Closures} (w : Wrapper) : c.wrappers.Ages (c.wrap w).2.wrappers := by
  cases hf : c.find? w with
  | some id =>
    rw [wrap_of_find?_eq_some hf]
    exact .retain
  | none =>
    rw [wrap_of_find?_eq_none hf]
    exact .alloc

namespace Heap

variable {h h' h'' : Heap} {t : Target} {v : Value} {r q : ℕ}

/-! ### The heap -/

/-- Payloads that have been made are only lost. -/
structure Ages (h h' : Heap) : Prop where
  arrays : h.arrays.Ages h'.arrays
  objects : h.objects.Ages h'.objects
  buffers : h.buffers.Ages h'.buffers
  natives : h.natives.Ages h'.natives
  wrappers : ∀ k, (h.closuresOf k).wrappers.Ages (h'.closuresOf k).wrappers
  errors : h.errors.Ages h'.errors
  modules : h.modules.Ages h'.modules
  registries : h.registries.Ages h'.registries

theorem Ages.refl : h.Ages h :=
  ⟨.refl, .refl, .refl, .refl, fun _ => .refl, .refl, .refl, .refl⟩

theorem Ages.trans (h₁ : h.Ages h') (h₂ : h'.Ages h'') : h.Ages h'' where
  arrays := h₁.arrays.trans h₂.arrays
  objects := h₁.objects.trans h₂.objects
  buffers := h₁.buffers.trans h₂.buffers
  natives := h₁.natives.trans h₂.natives
  wrappers k := (h₁.wrappers k).trans (h₂.wrappers k)
  errors := h₁.errors.trans h₂.errors
  modules := h₁.modules.trans h₂.modules
  registries := h₁.registries.trans h₂.registries

theorem Ages.setClosures {k : Keeper} {closures : Closures}
    (hc : (h.closuresOf k).wrappers.Ages closures.wrappers) : h.Ages (h.setClosures k closures) := by
  have hw : ∀ k', (h.closuresOf k').wrappers.Ages
      ((h.setClosures k closures).closuresOf k').wrappers := by
    intro k'
    rw [closuresOf_setClosures]
    split
    · rename_i hk
      rwa [← hk]
    · exact .refl
  cases k
  · exact { Ages.refl with wrappers := hw }
  · exact { Ages.refl with wrappers := hw }

theorem Ages.retainTarget (t : Target) : h.Ages (h.retainTarget t) := by
  rcases t with i | i | i | (i | ⟨k, i⟩) | i | i | i
  case array => exact { Ages.refl with arrays := .retain }
  case object => exact { Ages.refl with objects := .retain }
  case buffer => exact { Ages.refl with buffers := .retain }
  case function.native => exact { Ages.refl with natives := .retain }
  case function.wrapper => exact .setClosures .retain
  case error => exact { Ages.refl with errors := .retain }
  case linkedModule => exact { Ages.refl with modules := .retain }
  case registry => exact { Ages.refl with registries := .retain }

theorem Ages.releaseTarget (t : Target) : h.Ages (h.releaseTarget t).2 := by
  rcases t with i | i | i | (i | ⟨k, i⟩) | i | i | i
  case array => exact { Ages.refl with arrays := .release }
  case object => exact { Ages.refl with objects := .release }
  case buffer => exact { Ages.refl with buffers := .release }
  case function.native => exact { Ages.refl with natives := .release }
  case function.wrapper =>
    refine .setClosures ?_
    rw [Closures.release_eq]
    exact .release
  case error => exact { Ages.refl with errors := .release }
  case linkedModule => exact { Ages.refl with modules := .release }
  case registry => exact { Ages.refl with registries := .release }

theorem Ages.setWatchCells (r : ℕ) (cells : List WatchCell) :
    h.Ages (h.setWatchCells r cells) := by
  unfold Heap.setWatchCells
  split
  · exact { Ages.refl with registries := .set }
  · exact .refl

theorem Change.ages (hc : h.Change h') : h.Ages h' := by
  cases hc with
  | retained t => exact .retainTarget t
  | released t => exact .releaseTarget t
  | newBuffer contents => exact { Ages.refl with buffers := .alloc }
  | newArray values => exact { Ages.refl with arrays := .alloc }
  | newObject => exact { Ages.refl with objects := .alloc }
  | newNative f => exact { Ages.refl with natives := .alloc }
  | newError f => exact { Ages.refl with errors := .alloc }
  | newModule name => exact { Ages.refl with modules := .alloc }
  | newRegistry cleanup => exact { Ages.refl with registries := .alloc }
  | wrapped k w => exact .setClosures (Closures.ages_wrap w)
  | taken k =>
    have hw : (h.closuresOf k).wrappers.Ages (h.closuresOf k).takeOrphans.2.wrappers := by
      rw [Closures.wrappers_takeOrphans]
      exact .refl
    exact .setClosures hw
  | elements array values => exact { Ages.refl with arrays := .set }
  | properties object props => exact { Ages.refl with objects := .set }
  | contents buffer contents _ => exact { Ages.refl with buffers := .set }
  | watched r cell => exact .setWatchCells r _
  | unwatched r token => exact .setWatchCells r _
  | collected r => exact .setWatchCells r _

theorem Evolves.ages (hev : h.Evolves h') : h.Ages h' :=
  hev.keeps (fun hc ha => Ages.trans ha hc.ages) .refl

/-- The payload has been made. -/
def Made (h : Heap) : Target → Prop
  | .array i => i < h.arrays.next
  | .object i => i < h.objects.next
  | .buffer i => i < h.buffers.next
  | .function (.native i) => i < h.natives.next
  | .function (.wrapper k i) => i < (h.closuresOf k).wrappers.next
  | .error i => i < h.errors.next
  | .linkedModule i => i < h.modules.next
  | .registry i => i < h.registries.next

theorem PoolsSound.made (hs : h.PoolsSound) (hl : h.isLive t = true) : h.Made t := by
  rcases t with i | i | i | (i | ⟨k, i⟩) | i | i | i
  case array => exact hs.arrays.fresh hl
  case object => exact hs.objects.fresh hl
  case buffer => exact hs.buffers.fresh hl
  case function.native => exact hs.natives.fresh hl
  case function.wrapper => exact (hs.wrappers k).fresh hl
  case error => exact hs.errors.fresh hl
  case linkedModule => exact hs.modules.fresh hl
  case registry => exact hs.registries.fresh hl

theorem Ages.made (ha : h.Ages h') (hm : h.Made t) : h'.Made t := by
  rcases t with i | i | i | (i | ⟨k, i⟩) | i | i | i
  case array => exact lt_of_lt_of_le hm ha.arrays.next_le
  case object => exact lt_of_lt_of_le hm ha.objects.next_le
  case buffer => exact lt_of_lt_of_le hm ha.buffers.next_le
  case function.native => exact lt_of_lt_of_le hm ha.natives.next_le
  case function.wrapper => exact lt_of_lt_of_le hm (ha.wrappers k).next_le
  case error => exact lt_of_lt_of_le hm ha.errors.next_le
  case linkedModule => exact lt_of_lt_of_le hm ha.modules.next_le
  case registry => exact lt_of_lt_of_le hm ha.registries.next_le

/-- A payload that is alive later was alive when it had been made already. -/
theorem Ages.alive (ha : h.Ages h') (hm : h.Made t) (hl : h'.isLive t = true) :
    h.isLive t = true := by
  rcases t with i | i | i | (i | ⟨k, i⟩) | i | i | i
  case array => exact ha.arrays.isLive hm hl
  case object => exact ha.objects.isLive hm hl
  case buffer => exact ha.buffers.isLive hm hl
  case function.native => exact ha.natives.isLive hm hl
  case function.wrapper => exact (ha.wrappers k).isLive hm hl
  case error => exact ha.errors.isLive hm hl
  case linkedModule => exact ha.modules.isLive hm hl
  case registry => exact ha.registries.isLive hm hl

/-! ### Registries that are spared -/

/-- Registry `r` is what it was as long as it is alive, or it is a fresh one without cells. -/
structure Spares (r : ℕ) (h h' : Heap) : Prop where
  next_le : h.registries.next ≤ h'.registries.next
  get? : ∀ x, h'.registries.get? r = some x →
    h.registries.get? r = some x ∨ (h.registries.next ≤ r ∧ x.cells = [])

theorem Spares.of_get? (hn : h.registries.next ≤ h'.registries.next)
    (hg : ∀ x, h'.registries.get? r = some x → h.registries.get? r = some x) : Spares r h h' :=
  ⟨hn, fun x hx => .inl (hg x hx)⟩

theorem Spares.of_eq (he : h'.registries = h.registries) : Spares r h h' :=
  .of_get? (le_of_eq (congrArg Pool.next he.symm)) fun _ hx => by rwa [he] at hx

theorem Spares.refl : Spares r h h := .of_eq rfl

theorem Spares.trans (h₁ : Spares r h h') (h₂ : Spares r h' h'') : Spares r h h'' where
  next_le := h₁.next_le.trans h₂.next_le
  get? x hx := by
    rcases h₂.get? x hx with hx | ⟨hr, hcells⟩
    · exact h₁.get? x hx
    · exact .inr ⟨h₁.next_le.trans hr, hcells⟩

theorem watchCells_of_not_live (hl : h.registries.isLive r = false) : h.watchCells r = [] := by
  rw [Heap.watchCells, Pool.get?_eq_none_iff.mpr hl]
  rfl

theorem watchCells_fresh (hs : h.PoolsSound) (hr : h.registries.next ≤ r) : h.watchCells r = [] := by
  refine watchCells_of_not_live (Bool.eq_false_iff.mpr fun hl => ?_)
  have hlt := hs.registries.fresh hl
  omega

theorem Spares.watchCells (hsp : Spares r h h') (hs : h.PoolsSound)
    (hl : h'.registries.isLive r = true) : h'.watchCells r = h.watchCells r := by
  obtain ⟨x, hx⟩ := Pool.isLive_iff_get?.mp hl
  rcases hsp.get? x hx with hg | ⟨hr, hcells⟩
  · rw [Heap.watchCells, Heap.watchCells, hx, hg]
  · rw [watchCells_fresh hs hr, Heap.watchCells, hx]
    exact hcells

theorem Spares.retainTarget (t : Target) : Spares r h (h.retainTarget t) := by
  rcases t with i | i | i | (i | ⟨k, i⟩) | i | i | i
  case registry =>
    exact .of_get? (le_of_eq Pool.next_retain.symm) fun x hx => by rwa [← Pool.get?_retain]
  case function.wrapper => cases k <;> exact .of_eq rfl
  all_goals exact .of_eq rfl

theorem Spares.releaseTarget (t : Target) : Spares r h (h.releaseTarget t).2 := by
  rcases t with i | i | i | (i | ⟨k, i⟩) | i | i | i
  case registry =>
    exact .of_get? (le_of_eq Pool.next_release.symm) fun x hx => Pool.get?_release_of_some hx
  case function.wrapper => cases k <;> exact .of_eq rfl
  all_goals exact .of_eq rfl

theorem Spares.retain (v : Value) : Spares r h (h.retain v) :=
  retain_keeps (fun t hsp => hsp.trans (.retainTarget t)) v .refl

theorem Spares.retainAll (vs : List Value) : Spares r h (h.retainAll vs) :=
  retainAll_keeps (fun t hsp => hsp.trans (.retainTarget t)) vs .refl

theorem Spares.release (v : Value) : Spares r h (h.release v) :=
  release_keeps (fun t hsp => hsp.trans (.releaseTarget t)) v .refl

theorem Spares.releaseAll (vs : List Value) : Spares r h (h.releaseAll vs) :=
  releaseAll_keeps (fun t hsp => hsp.trans (.releaseTarget t)) vs .refl

theorem Spares.newArray (vs : List Value) : Spares r h (h.newArray vs).2 :=
  (Spares.retainAll vs).trans (.of_eq rfl)

theorem Spares.newNative (f : NativeFunction) : Spares r h (h.newNative f).2 :=
  (Spares.retainAll f.captured).trans (.of_eq rfl)

theorem Spares.allocRegistry (cleanup : FunctionRef) :
    Spares r h { h with registries := (h.registries.alloc ⟨cleanup, []⟩).2 } := by
  refine ⟨Nat.le_succ _, fun x hx => ?_⟩
  rw [Pool.get?_alloc] at hx
  split at hx
  -- the new registry itself, which has no cells
  · rename_i hr
    cases hx
    exact .inr ⟨le_of_eq hr, rfl⟩
  · exact .inl hx

theorem Spares.newRegistry (cleanup : FunctionRef) : Spares r h (h.newRegistry cleanup).2 :=
  (Spares.retain (.function cleanup)).trans (.allocRegistry cleanup)

theorem Spares.wrap (k : Keeper) (w : Wrapper) : Spares r h (h.wrap k w).2 := by
  cases k <;> exact .of_eq rfl

theorem Spares.setElements (array : ℕ) (vs : List Value) :
    Spares r h (h.setElements array vs) := .of_eq rfl

theorem Spares.setProperties (object : ℕ) (props : List (Text × Value)) :
    Spares r h (h.setProperties object props) := .of_eq rfl

theorem Spares.arraySet (array i : ℕ) (v : Value) : Spares r h (h.arraySet array i v) :=
  (Spares.retain v).trans ((Spares.setElements array _).trans (.release _))

theorem Spares.arrayPush (array : ℕ) (v : Value) : Spares r h (h.arrayPush array v) :=
  (Spares.retain v).trans (.setElements array _)

theorem Spares.objectSet (object : ℕ) (key : Text) (v : Value) :
    Spares r h (h.objectSet object key v) :=
  (Spares.retain v).trans ((Spares.setProperties object _).trans (.release _))

theorem Spares.objectDelete (object : ℕ) (key : Text) :
    Spares r h (h.objectDelete object key) :=
  (Spares.setProperties object _).trans (.releaseAll _)

/-- An operation of one registry spares the others. -/
theorem Spares.setWatchCells {cells : List WatchCell} (hrq : q ≠ r) :
    Spares r h (h.setWatchCells q cells) := by
  unfold Heap.setWatchCells
  split
  · refine .of_get? (le_of_eq Pool.next_set.symm) fun x hx => ?_
    rwa [Pool.get?_set, if_neg hrq] at hx
  · exact .refl

end Heap

end ModuleHost
