/-
Making and storing values keeps the balance.

A maker gives one handle; what it stores in the new payload it takes handles of its own on, so
the hands keep theirs.  Storing into a container takes a handle on the new value and gives up
the one on the value it replaces; taking cells out of a registry moves their handles to the
caller.

* `Balanced.newArray`, `.newRegistry`, `.wrap`, … — makers;
* `Balanced.arraySet`, `.objectSet`, `.objectDelete`, … — containers;
* `Balanced.watch`, `.unwatch` — cells of a registry come and go.
-/
import Mathlib
import ModuleHost.Heap.Watch
import ModuleHost.Proofs.Heap.Handles

namespace ModuleHost

theorem Pool.Sound.count_alloc {α : Type} {p : Pool α} (hp : p.Sound) (a : α) (i : ℕ) :
    (p.alloc a).2.count i = p.count i + if p.next = i then 1 else 0 := by
  rw [Pool.count_alloc]
  split
  · rename_i hi
    rw [← hi, Pool.count_eq_zero hp.not_live_next]
  · rfl

namespace Heap

variable {h h' : Heap} {t : Target} {v : Value} {vs held held' : List Value}

/-! ### Makers -/

/-- A fresh payload that stores what was in hand: one handle on it is in hand now. -/
theorem Balanced.gain (vs : List Value) (hb : h.Balanced (vs ++ held)) (hs : h'.PoolsSound)
    (ht : v.target? = some t)
    (hcount : ∀ u, h'.count u = h.count u + if t = u then 1 else 0)
    (hstored : h'.stored.Perm (vs ++ h.stored)) : h'.Balanced (v :: held) := by
  refine ⟨hs, fun u => ?_⟩
  have hold := hb.counts u
  rw [handlesOn_append] at hold
  rw [hcount, handlesOn_cons, handlesOn_singleton, ht, handlesOn_perm hstored, handlesOn_append,
    hold]
  by_cases htu : t = u
  · simp only [htu, if_true]
    omega
  · simp only [htu, if_false, Option.some.injEq]
    omega

theorem Balanced.newBuffer (hb : h.Balanced held) (contents : ByteStore)
    (hv : v.target? = some (.buffer h.buffers.next)) :
    (h.newBuffer contents).2.Balanced (v :: held) := by
  refine Balanced.gain [] hb ?_ hv (fun u => ?_) (.refl _)
  · exact { hb.pools with buffers := hb.pools.buffers.alloc, wrappers := hb.pools.wrappers }
  · rcases u with j | j | j | (j | ⟨k, j⟩) | j | j | j
    case buffer => simpa [Heap.newBuffer, count] using hb.pools.buffers.count_alloc contents j
    all_goals simp [Heap.newBuffer, count]
    all_goals rfl

theorem Balanced.newArray (hb : h.Balanced held) (hvs : ∀ v ∈ vs, h.Alive v) :
    (h.newArray vs).2.Balanced (.array (h.newArray vs).1 :: held) := by
  have hr := Balanced.retainAll vs hb hvs
  refine Balanced.gain vs hr ?_ rfl (fun u => ?_) ?_
  · exact { hr.pools with arrays := hr.pools.arrays.alloc, wrappers := hr.pools.wrappers }
  · rcases u with j | j | j | (j | ⟨k, j⟩) | j | j | j
    case array => simpa [Heap.newArray, count] using hr.pools.arrays.count_alloc vs j
    all_goals simp [Heap.newArray, count]
    all_goals rfl
  · have hstored := (Pool.contents_alloc (a := vs) hr.pools.arrays).flatMap_right id
    rw [stored, stored, ← List.append_assoc, ← List.append_assoc, ← List.append_assoc]
    exact ((hstored.append_right _).append_right _).append_right _

theorem Balanced.newObject (hb : h.Balanced held) :
    h.newObject.2.Balanced (.object h.newObject.1 :: held) := by
  refine Balanced.gain [] hb ?_ rfl (fun u => ?_) ?_
  · exact { hb.pools with objects := hb.pools.objects.alloc, wrappers := hb.pools.wrappers }
  · rcases u with j | j | j | (j | ⟨k, j⟩) | j | j | j
    case object => simpa [Heap.newObject, count] using hb.pools.objects.count_alloc [] j
    all_goals simp [Heap.newObject, count]
    all_goals rfl
  · have hstored := (Pool.contents_alloc (a := []) hb.pools.objects).flatMap_right
      (fun props : List (Text × Value) => props.map (·.2))
    exact ((hstored.append_left _).append_right _).append_right _

theorem Balanced.newNative (hb : h.Balanced held) {f : NativeFunction}
    (hf : ∀ v ∈ f.captured, h.Alive v) :
    (h.newNative f).2.Balanced (.function (.native (h.newNative f).1) :: held) := by
  have hr := Balanced.retainAll f.captured hb hf
  refine Balanced.gain f.captured hr ?_ rfl (fun u => ?_) ?_
  · exact { hr.pools with natives := hr.pools.natives.alloc, wrappers := hr.pools.wrappers }
  · rcases u with j | j | j | (j | ⟨k, j⟩) | j | j | j
    case function.native => simpa [Heap.newNative, count] using hr.pools.natives.count_alloc f j
    all_goals simp [Heap.newNative, count]
    all_goals rfl
  · have hstored := (Pool.contents_alloc (a := f) hr.pools.natives).flatMap_right
      NativeFunction.captured
    exact (hstored.append_left _).trans (List.perm_append_comm_assoc _ _ _)

theorem Balanced.newError (hb : h.Balanced held) (f : Failure) :
    (h.newError f).2.Balanced (.error (h.newError f).1 :: held) := by
  refine Balanced.gain [] hb ?_ rfl (fun u => ?_) (.refl _)
  · exact { hb.pools with errors := hb.pools.errors.alloc, wrappers := hb.pools.wrappers }
  · rcases u with j | j | j | (j | ⟨k, j⟩) | j | j | j
    case error => simpa [Heap.newError, count] using hb.pools.errors.count_alloc f j
    all_goals simp [Heap.newError, count]
    all_goals rfl

theorem Balanced.newModule (hb : h.Balanced held) (name : String) :
    (h.newModule name).2.Balanced (.linkedModule (h.newModule name).1 :: held) := by
  refine Balanced.gain [] hb ?_ rfl (fun u => ?_) (.refl _)
  · exact { hb.pools with modules := hb.pools.modules.alloc, wrappers := hb.pools.wrappers }
  · rcases u with j | j | j | (j | ⟨k, j⟩) | j | j | j
    case linkedModule => simpa [Heap.newModule, count] using hb.pools.modules.count_alloc name j
    all_goals simp [Heap.newModule, count]
    all_goals rfl

theorem Balanced.newRegistry (hb : h.Balanced held) {cleanup : FunctionRef}
    (hc : h.Alive (.function cleanup)) :
    (h.newRegistry cleanup).2.Balanced (.registry (h.newRegistry cleanup).1 :: held) := by
  have hr := hb.retain hc
  refine Balanced.gain [.function cleanup] hr ?_ rfl (fun u => ?_) ?_
  · exact { hr.pools with registries := hr.pools.registries.alloc, wrappers := hr.pools.wrappers }
  · rcases u with j | j | j | (j | ⟨k, j⟩) | j | j | j
    case registry =>
      simpa [Heap.newRegistry, count] using hr.pools.registries.count_alloc ⟨cleanup, []⟩ j
    all_goals simp [Heap.newRegistry, count]
    all_goals rfl
  · have hstored := (Pool.contents_alloc (a := ⟨cleanup, []⟩) hr.pools.registries).flatMap_right
      Registry.values
    rw [stored, stored, ← List.append_assoc]
    refine List.Perm.append_right _ ?_
    exact (hstored.append_left _).trans (List.perm_append_comm_assoc _ _ _)

theorem Balanced.wrap (hb : h.Balanced held) (k : Keeper) (w : Wrapper) :
    (h.wrap k w).2.Balanced (.function (h.wrap k w).1 :: held) := by
  cases hf : (h.closuresOf k).find? w with
  | some id =>
    -- the live wrapper is handed out again
    have hwrap : h.wrap k w
        = (.wrapper k id, h.retainTarget (.function (.wrapper k id))) := by
      rw [Heap.wrap, Closures.wrap_of_find?_eq_some hf]
      rfl
    rw [hwrap]
    refine hb.retain (v := .function (.wrapper k id)) fun t ht => ?_
    cases ht
    exact (Option.filter_eq_some_iff.mp hf).2
  | none =>
    -- a fresh wrapper, with its first handle
    have hwrap := Closures.wrap_of_find?_eq_none hf
    rw [Heap.wrap, hwrap]
    refine Balanced.gain [] hb ?_ rfl (fun u => ?_) ?_
    · exact hb.pools.setClosures (hb.pools.wrappers k).alloc
    · rcases u with j | j | j | (j | ⟨k', j⟩) | j | j | j
      case function.wrapper =>
        by_cases hk : k = k'
        · subst hk
          simpa [count] using (hb.pools.wrappers k).count_alloc w j
        · simp [count, hk]
      all_goals cases k <;> simp [setClosures, count]
    · rw [stored_setClosures]
      exact .refl _

/-! ### Taking a handle changes no content -/

/-- The same contents in arrays, objects and registries. -/
structure SameContents (h h' : Heap) : Prop where
  arrays : ∀ i, h'.arrays.get? i = h.arrays.get? i
  objects : ∀ i, h'.objects.get? i = h.objects.get? i
  registries : ∀ i, h'.registries.get? i = h.registries.get? i

theorem SameContents.refl : SameContents h h := ⟨fun _ => rfl, fun _ => rfl, fun _ => rfl⟩

theorem sameContents_retain (v : Value) : SameContents h (h.retain v) := by
  unfold Heap.retain
  split
  · rename_i t _
    rcases t with i | i | i | (i | ⟨k, i⟩) | i | i | i
    case array => exact { SameContents.refl with arrays := fun _ => Pool.get?_retain }
    case object => exact { SameContents.refl with objects := fun _ => Pool.get?_retain }
    case registry => exact { SameContents.refl with registries := fun _ => Pool.get?_retain }
    case function.wrapper => cases k <;> exact ⟨fun _ => rfl, fun _ => rfl, fun _ => rfl⟩
    all_goals exact ⟨fun _ => rfl, fun _ => rfl, fun _ => rfl⟩
  · exact .refl

/-! ### Arrays -/

/-- The values of an array are split off from what is stored. -/
theorem handlesOn_setElements {array : ℕ} (vs : List Value)
    (hlive : h.arrays.isLive array = true) :
    handlesOn t (h.setElements array vs).stored + handlesOn t (h.elements array)
      = handlesOn t h.stored + handlesOn t vs := by
  obtain ⟨old, hold⟩ := Pool.isLive_iff_get?.mp hlive
  have helements : h.elements array = old := by rw [elements, hold]; rfl
  have hswap := handlesOn_perm (t := t) (Pool.flatMap_contents_set id hold vs)
  simp only [id_eq, handlesOn_append] at hswap
  simp only [stored, setElements, handlesOn_append, helements]
  omega

theorem Balanced.setElements (hb : h.Balanced held) {array : ℕ}
    (hlive : h.arrays.isLive array = true)
    (hvs : ∀ t, handlesOn t held' + handlesOn t vs
      = handlesOn t held + handlesOn t (h.elements array)) :
    (h.setElements array vs).Balanced held' := by
  refine ⟨{ hb.pools with arrays := hb.pools.arrays.set, wrappers := hb.pools.wrappers }, ?_⟩
  intro t
  have hcount : (h.setElements array vs).count t = h.count t := by
    rcases t with j | j | j | (j | ⟨k, j⟩) | j | j | j
    case array => exact Pool.count_set
    all_goals rfl
  have hstored := handlesOn_setElements (t := t) vs hlive
  have hheld := hvs t
  rw [hcount, hb.counts]
  omega

theorem handlesOn_set {i : ℕ} (hi : i < vs.length) :
    handlesOn t (vs.set i v) + handlesOn t [vs[i]] = handlesOn t vs + handlesOn t [v] := by
  induction vs generalizing i with
  | nil => exact absurd hi (Nat.not_lt_zero i)
  | cons w rest ih =>
    cases i with
    | zero =>
      rw [List.set_cons_zero, handlesOn_cons, handlesOn_cons w]
      simp only [List.getElem_cons_zero]
      omega
    | succ i =>
      have hrest := ih (Nat.lt_of_succ_lt_succ hi)
      rw [List.set_cons_succ, handlesOn_cons, handlesOn_cons w rest]
      simp only [List.getElem_cons_succ]
      omega

/-- Putting a value at an index replaces what is there, undefined beyond the end. -/
theorem handlesOn_putAt (vs : List Value) (i : ℕ) :
    handlesOn t (putAt vs i v) + handlesOn t [vs[i]?.getD .undefined]
      = handlesOn t vs + handlesOn t [v] := by
  unfold putAt
  by_cases hi : i < vs.length
  · rw [if_pos hi, List.getElem?_eq_getElem hi]
    exact handlesOn_set hi
  · rw [if_neg hi, List.getElem?_eq_none (by omega)]
    simp only [handlesOn_append, handlesOn_undefineds, Option.getD_none]
    have hundefined : handlesOn t [.undefined] = 0 := handlesOn_undefineds 1
    omega

theorem elements_retain (v : Value) (array : ℕ) :
    (h.retain v).elements array = h.elements array := by
  rw [elements, (sameContents_retain v).arrays, elements]

theorem arrays_isLive_retain {array : ℕ} (hlive : h.arrays.isLive array = true) :
    (h.retain v).arrays.isLive array = true := by
  rw [Pool.isLive_iff_get?, (sameContents_retain v).arrays]
  exact Pool.isLive_iff_get?.mp hlive

theorem Balanced.arraySet (hb : h.Balanced held) {array : ℕ}
    (hlive : h.arrays.isLive array = true) (hv : h.Alive v) (i : ℕ) :
    (h.arraySet array i v).Balanced held := by
  -- the handle on `v` goes into the array, the one on the old element is in hand until it is
  -- given up
  refine Balanced.release (Balanced.setElements (hb.retain hv)
    (arrays_isLive_retain hlive) fun t => ?_)
  have hput := handlesOn_putAt (t := t) (v := v) (h.elements array) i
  rw [elements_retain, handlesOn_cons, handlesOn_cons _ held, arrayGet]
  omega

theorem Balanced.arrayPush (hb : h.Balanced held) {array : ℕ}
    (hlive : h.arrays.isLive array = true) (hv : h.Alive v) :
    (h.arrayPush array v).Balanced held := by
  refine Balanced.setElements (hb.retain hv) (arrays_isLive_retain hlive) fun t => ?_
  rw [handlesOn_cons, handlesOn_append]
  omega

/-! ### Objects -/

/-- The values of an object are split off from what is stored. -/
theorem handlesOn_setProperties {object : ℕ} (props : List (Text × Value))
    (hlive : h.objects.isLive object = true) :
    handlesOn t (h.setProperties object props).stored
        + handlesOn t ((h.properties object).map (·.2))
      = handlesOn t h.stored + handlesOn t (props.map (·.2)) := by
  obtain ⟨old, hold⟩ := Pool.isLive_iff_get?.mp hlive
  have hproperties : h.properties object = old := by rw [properties, hold]; rfl
  have hswap := handlesOn_perm (t := t) (Pool.flatMap_contents_set (·.map (·.2)) hold props)
  simp only [handlesOn_append] at hswap
  simp only [stored, setProperties, handlesOn_append, hproperties]
  omega

theorem Balanced.setProperties (hb : h.Balanced held) {object : ℕ} {props : List (Text × Value)}
    (hlive : h.objects.isLive object = true)
    (hprops : ∀ t, handlesOn t held' + handlesOn t (props.map (·.2))
      = handlesOn t held + handlesOn t ((h.properties object).map (·.2))) :
    (h.setProperties object props).Balanced held' := by
  refine ⟨{ hb.pools with objects := hb.pools.objects.set, wrappers := hb.pools.wrappers }, ?_⟩
  intro t
  have hcount : (h.setProperties object props).count t = h.count t := by
    rcases t with j | j | j | (j | ⟨k, j⟩) | j | j | j
    case object => exact Pool.count_set
    all_goals rfl
  have hstored := handlesOn_setProperties (t := t) props hlive
  have hheld := hprops t
  rw [hcount, hb.counts]
  omega

/-- Setting a property replaces the value it had, undefined if it was absent. -/
theorem handlesOn_putKey (props : List (Text × Value)) (key : Text) :
    handlesOn t ((putKey props key v).map (·.2)) + handlesOn t [(props.lookup key).getD .undefined]
      = handlesOn t (props.map (·.2)) + handlesOn t [v] := by
  induction props with
  | nil =>
    have hundefined : handlesOn t [.undefined] = 0 := handlesOn_undefineds 1
    simp [putKey, hundefined]
  | cons p rest ih =>
    obtain ⟨k, w⟩ := p
    by_cases hk : k = key
    · subst hk
      rw [putKey, if_pos rfl, List.lookup_cons_self, List.map_cons, List.map_cons, handlesOn_cons,
        handlesOn_cons w, Option.getD_some]
      dsimp only
      omega
    · rw [putKey, if_neg hk, List.lookup_cons, beq_eq_false_iff_ne.mpr (Ne.symm hk), List.map_cons,
        List.map_cons, handlesOn_cons, handlesOn_cons w (rest.map (·.2))]
      simp only at ih ⊢
      omega

theorem properties_retain (v : Value) (object : ℕ) :
    (h.retain v).properties object = h.properties object := by
  rw [properties, (sameContents_retain v).objects, properties]

theorem objects_isLive_retain {object : ℕ} (hlive : h.objects.isLive object = true) :
    (h.retain v).objects.isLive object = true := by
  rw [Pool.isLive_iff_get?, (sameContents_retain v).objects]
  exact Pool.isLive_iff_get?.mp hlive

theorem Balanced.objectSet (hb : h.Balanced held) {object : ℕ}
    (hlive : h.objects.isLive object = true) (key : Text) (hv : h.Alive v) :
    (h.objectSet object key v).Balanced held := by
  refine Balanced.release (Balanced.setProperties (hb.retain hv)
    (objects_isLive_retain hlive) fun t => ?_)
  have hput := handlesOn_putKey (t := t) (v := v) (h.properties object) key
  rw [properties_retain, handlesOn_cons, handlesOn_cons _ held, objectGet?]
  omega

theorem handlesOn_filter {α : Type} (f : α → Value) (p : α → Bool) (l : List α) :
    handlesOn t ((l.filter p).map f) + handlesOn t ((l.filter fun a => !p a).map f)
      = handlesOn t (l.map f) := by
  rw [← handlesOn_append, ← List.map_append]
  exact handlesOn_perm ((List.filter_append_perm p l).map f)

theorem Balanced.objectDelete (hb : h.Balanced held) {object : ℕ}
    (hlive : h.objects.isLive object = true) (key : Text) :
    (h.objectDelete object key).Balanced held := by
  refine Balanced.releaseAll _ (Balanced.setProperties hb hlive fun t => ?_)
  have hfilter := handlesOn_filter (t := t) (·.2) (·.1 = key) (h.properties object)
  rw [handlesOn_append]
  simp only [← decide_not] at hfilter
  simp only [ne_eq]
  omega

/-! ### Registries -/

/-- The values of a registry are split off from what is stored. -/
theorem handlesOn_setWatchCells {registry : ℕ} (cells : List WatchCell)
    (hlive : h.registries.isLive registry = true) :
    handlesOn t (h.setWatchCells registry cells).stored
        + handlesOn t ((h.watchCells registry).map (·.held))
      = handlesOn t h.stored + handlesOn t (cells.map (·.held)) := by
  obtain ⟨old, hold⟩ := Pool.isLive_iff_get?.mp hlive
  have hset : h.setWatchCells registry cells
      = { h with registries := h.registries.set registry { old with cells } } := by
    rw [setWatchCells, hold]
  have hcells : h.watchCells registry = old.cells := by rw [watchCells, hold]; rfl
  have hswap := handlesOn_perm (t := t)
    (Pool.flatMap_contents_set Registry.values hold { old with cells })
  simp only [handlesOn_append, Registry.values] at hswap
  -- the cleanup function is on both sides
  rw [handlesOn_cons _ (old.cells.map _), handlesOn_cons _ (cells.map _)] at hswap
  simp only [hset, stored, handlesOn_append, hcells]
  omega

theorem PoolsSound.setWatchCells (hs : h.PoolsSound) {registry : ℕ} {cells : List WatchCell} :
    (h.setWatchCells registry cells).PoolsSound := by
  unfold Heap.setWatchCells
  split
  · exact { hs with registries := hs.registries.set, wrappers := hs.wrappers }
  · exact hs

theorem Balanced.setWatchCells (hb : h.Balanced held) {registry : ℕ} {cells : List WatchCell}
    (hlive : h.registries.isLive registry = true)
    (hcells : ∀ t, handlesOn t held' + handlesOn t (cells.map (·.held))
      = handlesOn t held + handlesOn t ((h.watchCells registry).map (·.held))) :
    (h.setWatchCells registry cells).Balanced held' := by
  obtain ⟨old, hold⟩ := Pool.isLive_iff_get?.mp hlive
  have hset : h.setWatchCells registry cells
      = { h with registries := h.registries.set registry { old with cells } } := by
    rw [Heap.setWatchCells, hold]
  refine ⟨hb.pools.setWatchCells, fun t => ?_⟩
  have hcount : (h.setWatchCells registry cells).count t = h.count t := by
    rw [hset]
    rcases t with j | j | j | (j | ⟨k, j⟩) | j | j | j
    case registry => exact Pool.count_set
    all_goals rfl
  have hstored := handlesOn_setWatchCells (t := t) cells hlive
  have hheld := hcells t
  rw [hcount, hb.counts]
  omega

theorem watchCells_retain (v : Value) (registry : ℕ) :
    (h.retain v).watchCells registry = h.watchCells registry := by
  rw [watchCells, (sameContents_retain v).registries, watchCells]

theorem registries_isLive_retain {registry : ℕ} (hlive : h.registries.isLive registry = true) :
    (h.retain v).registries.isLive registry = true := by
  rw [Pool.isLive_iff_get?, (sameContents_retain v).registries]
  exact Pool.isLive_iff_get?.mp hlive

/-- A new cell takes a handle on its held value. -/
theorem Balanced.watch (hb : h.Balanced held) {registry : ℕ} {cell : WatchCell}
    (hlive : h.registries.isLive registry = true) (hv : h.Alive cell.held) :
    ((h.retain cell.held).setWatchCells registry
      (h.watchCells registry ++ [cell])).Balanced held := by
  refine Balanced.setWatchCells (hb.retain hv) (registries_isLive_retain hlive) fun t => ?_
  rw [watchCells_retain, List.map_append, handlesOn_append, handlesOn_cons _ held]
  simp only [List.map_cons, List.map_nil]
  omega

/-- Cells that are taken out of a registry leave the handles on their held values in hand. -/
theorem Balanced.unwatch (hb : h.Balanced held) {registry : ℕ} (p : WatchCell → Bool)
    (hlive : h.registries.isLive registry = true) :
    (h.setWatchCells registry ((h.watchCells registry).filter fun c => !p c)).Balanced
      (((h.watchCells registry).filter p).map (·.held) ++ held) := by
  refine Balanced.setWatchCells hb hlive fun t => ?_
  have hfilter := handlesOn_filter (t := t) (·.held) p (h.watchCells registry)
  rw [handlesOn_append]
  omega

end Heap

end ModuleHost
