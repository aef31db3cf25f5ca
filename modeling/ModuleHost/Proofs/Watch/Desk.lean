/-
Somebody who works with host values.

A desk is a heap and the values that are in somebody's hands.  A move makes a value, copies or
drops one, stores into a container or uses a registry.  Only values that are alive can be used
and only values in hand can be dropped; a move that is not allowed does nothing.

* `Desk.act`, `Desk.after` — one move, and many in a row;
* `Desk.isStrong` — a payload has a strong handle, in hand or in a live payload;
* `Desk.Sound.act`, `sound_after` — the books of every desk are balanced;
* `Desk.Sound.isLive_iff` — so a weak handle refers to something as long as there is a strong one.
-/
import Mathlib
import ModuleHost.Proofs.Watch.Registry

namespace ModuleHost

/-- A heap, and the values in hand. -/
structure Desk where
  heap : Heap
  held : List Value

/-- What can be done at a desk. -/
inductive Move where
  | newBuffer (contents : ByteStore)
  | newTypedArray (e : Element) (length : ℕ)
  | newDataView (contents : ByteStore)
  | newArray (values : List Value)
  | newObject
  | newNative (f : NativeFunction)
  | newError (f : Failure)
  | newModule (name : String)
  | newRegistry (cleanup : FunctionRef)
  | wrap (k : Keeper) (w : Wrapper)
  /-- One more handle on a value: a copy, a window on a buffer or what is read from a container. -/
  | clone (v : Value)
  | drop (v : Value)
  | arraySet (array i : ℕ) (v : Value)
  | arrayPush (array : ℕ) (v : Value)
  | objectSet (object : ℕ) (key : Text) (v : Value)
  | objectDelete (object : ℕ) (key : Text)
  | register (registry : ℕ) (target held : Value) (token : Option Value)
  | unregister (registry : ℕ) (token : Value)
  | collect (registry : ℕ)

/-- The values that a move works with. -/
def Move.uses : Move → List Value
  | newBuffer _ | newTypedArray .. | newDataView _ | newObject | newError _ | newModule _
  | wrap .. => []
  | newArray values => values
  | newNative f => f.captured
  | newRegistry cleanup => [.function cleanup]
  | clone v | drop v => [v]
  | arraySet array _ v | arrayPush array v => [.array array, v]
  | objectSet object _ v => [.object object, v]
  | objectDelete object _ => [.object object]
  | register registry target held token => .registry registry :: target :: held :: token.toList
  | unregister registry token => [.registry registry, token]
  | collect registry => [.registry registry]

/-- The values that leave the hands with a move. -/
def Move.drops : Move → List Value
  | drop v => [v]
  | _ => []

/-- The registry whose cells a move may change. -/
def Move.registry? : Move → Option ℕ
  | register r .. | unregister r _ | collect r => some r
  | _ => none

/-- What a move gives to the hands, and the heap after it. -/
def Move.perform (h : Heap) : Move → List Value × Heap
  | newBuffer contents => let (id, h) := h.newBuffer contents; ([.buffer id], h)
  | newTypedArray e length => let (view, h) := h.newTypedArray e length; ([.typedArray view], h)
  | newDataView contents => let (view, h) := h.newDataView contents; ([.dataView view], h)
  | newArray values => let (id, h) := h.newArray values; ([.array id], h)
  | newObject => let (id, h) := h.newObject; ([.object id], h)
  | newNative f => let (id, h) := h.newNative f; ([.function (.native id)], h)
  | newError f => let (id, h) := h.newError f; ([.error id], h)
  | newModule name => let (id, h) := h.newModule name; ([.linkedModule id], h)
  | newRegistry cleanup => let (id, h) := h.newRegistry cleanup; ([.registry id], h)
  | wrap k w => let (f, h) := h.wrap k w; ([.function f], h)
  | clone v => ([v], h.retain v)
  | drop v => ([], h.release v)
  | arraySet array i v => ([], h.arraySet array i v)
  | arrayPush array v => ([], h.arrayPush array v)
  | objectSet object key v => ([], h.objectSet object key v)
  | objectDelete object key => ([], h.objectDelete object key)
  | register registry target held token =>
    ([], (h.register registry target held token).toOption.getD h)
  | unregister registry token =>
    ([], ((h.unregister registry token).toOption.map (·.2)).getD h)
  | collect registry => h.collect registry

namespace Desk

/-- The desk without values. -/
def empty (littleEndian : Bool) : Desk := ⟨.empty littleEndian, []⟩

/-- Whether a move is possible. -/
def allows (d : Desk) (m : Move) : Bool :=
  m.uses.all (fun v => v.target?.all d.heap.isLive) && m.drops.all (d.held.contains ·)

/-- The desk after a move. -/
def act (d : Desk) (m : Move) : Desk :=
  if d.allows m then
    let (gained, heap) := m.perform d.heap
    ⟨heap, gained ++ d.held.diff m.drops⟩
  else d

/-- The desk after several moves. -/
def after (d : Desk) (moves : List Move) : Desk := moves.foldl act d

/-- Whether a payload has a strong handle: a value in hand, or one that a live payload holds. -/
def isStrong (d : Desk) (t : Target) : Bool :=
  (d.held ++ d.heap.stored).any fun v => v.target? = some t

variable {d : Desk} {m : Move}

theorem after_append (moves : List Move) (m : Move) :
    d.after (moves ++ [m]) = (d.after moves).act m := by
  rw [after, List.foldl_append]
  rfl

theorem act_of_not_allows (hm : d.allows m = false) : d.act m = d := by
  rw [act, hm]
  rfl

theorem heap_act (hm : d.allows m = true) : (d.act m).heap = (m.perform d.heap).2 := by
  rw [act, hm]
  rfl

theorem held_act (hm : d.allows m = true) :
    (d.act m).held = (m.perform d.heap).1 ++ d.held.diff m.drops := by
  rw [act, hm]
  rfl

/-- What an allowed move works with is alive. -/
theorem alive_of_allows (hm : d.allows m = true) {v : Value} (hv : v ∈ m.uses) :
    d.heap.Alive v := by
  intro t ht
  rw [allows, Bool.and_eq_true] at hm
  have hlive := List.all_eq_true.mp hm.1 v hv
  rwa [ht] at hlive

/-- A registry that is worked with is alive. -/
theorem isLive_of_registry? {r : ℕ} (hm : d.allows m = true) (hr : m.registry? = some r) :
    d.heap.registries.isLive r = true := by
  have huses : .registry r ∈ m.uses := by
    cases m with
    | register | unregister | collect =>
      cases hr
      exact List.mem_cons_self
    | _ => exact absurd hr (by simp [Move.registry?])
  exact alive_of_allows hm huses _ rfl

theorem held_of_allows {v : Value} (hm : d.allows (.drop v) = true) : v ∈ d.held := by
  rw [allows, Bool.and_eq_true] at hm
  have hheld := List.all_eq_true.mp hm.2 v List.mem_cons_self
  exact List.contains_iff_mem.mp hheld

/-! ### Balance -/

/-- The books are balanced: the handles on every payload are in hand or in a live payload. -/
def Sound (d : Desk) : Prop := d.heap.Balanced d.held

theorem Sound.isLive_iff (hd : d.Sound) {t : Target} :
    d.heap.isLive t = true ↔ d.isStrong t = true := by
  rw [Heap.Balanced.isLive_iff hd, isStrong, List.any_eq_true]
  simp only [decide_eq_true_eq]

theorem Sound.isLive_eq (hd : d.Sound) (t : Target) : d.heap.isLive t = d.isStrong t :=
  Bool.eq_iff_iff.mpr hd.isLive_iff

theorem balanced_register {h : Heap} {held : List Value} (hb : h.Balanced held) {r : ℕ}
    (hr : h.registries.isLive r = true) {target v : Value} (hv : h.Alive v)
    (token : Option Value) :
    ((h.register r target v token).toOption.getD h).Balanced held := by
  rw [Heap.register_eq]
  cases hc : WatchCell.of? target v token with
  | none => exact hb
  | some c =>
    obtain ⟨-, rfl⟩ := WatchCell.of?_spec hc
    exact hb.watch hr hv

theorem balanced_unregister {h : Heap} {held : List Value} (hb : h.Balanced held) {r : ℕ}
    (hr : h.registries.isLive r = true) (token : Value) :
    (((h.unregister r token).toOption.map (·.2)).getD h).Balanced held := by
  rw [Heap.unregister_eq]
  cases token.weak? with
  | none => exact hb
  | some k =>
    have hgone := hb.unwatch (fun c => decide (c.token = some k)) hr
    simp only [← decide_not] at hgone
    exact hgone.releaseAll

theorem Sound.act (hd : d.Sound) (m : Move) : (d.act m).Sound := by
  by_cases hm : d.allows m = true
  · have hb : d.heap.Balanced d.held := hd
    have hall := fun v (hv : v ∈ m.uses) => alive_of_allows hm hv
    rw [Sound, heap_act hm, held_act hm]
    cases m with
    | newBuffer contents => exact hb.newBuffer contents rfl
    | newTypedArray e length => exact hb.newBuffer _ rfl
    | newDataView contents => exact hb.newBuffer contents rfl
    | newArray values => exact hb.newArray hall
    | newObject => exact hb.newObject
    | newNative f => exact hb.newNative hall
    | newError f => exact hb.newError f
    | newModule name => exact hb.newModule name
    | newRegistry cleanup => exact hb.newRegistry (hall _ List.mem_cons_self)
    | wrap k w => exact hb.wrap k w
    | clone v => exact hb.retain (hall v List.mem_cons_self)
    | drop v =>
      have hperm : d.held.Perm (v :: d.held.diff [v]) := by
        rw [List.diff_cons, List.diff_nil]
        exact List.perm_cons_erase (held_of_allows hm)
      exact (hb.perm hperm).release
    | arraySet array i v =>
      exact hb.arraySet (hall _ List.mem_cons_self _ rfl) (hall v (by simp [Move.uses])) i
    | arrayPush array v =>
      exact hb.arrayPush (hall _ List.mem_cons_self _ rfl) (hall v (by simp [Move.uses]))
    | objectSet object key v =>
      exact hb.objectSet (hall _ List.mem_cons_self _ rfl) key (hall v (by simp [Move.uses]))
    | objectDelete object key => exact hb.objectDelete (hall _ List.mem_cons_self _ rfl) key
    | register r target v token =>
      exact balanced_register hb (hall _ List.mem_cons_self _ rfl) (hall v (by simp [Move.uses]))
        token
    | unregister r token => exact balanced_unregister hb (hall _ List.mem_cons_self _ rfl) token
    | collect r =>
      -- the handles on the held values go from the registry to the hands
      have hgone := hb.unwatch (fun c => !d.heap.isLive c.target)
        (hall _ List.mem_cons_self _ rfl)
      simp only [Bool.not_not] at hgone
      exact hgone
  · rw [act_of_not_allows (by simpa using hm)]
    exact hd

theorem sound_empty (littleEndian : Bool) : (empty littleEndian).Sound :=
  Heap.balanced_empty littleEndian

theorem sound_after (littleEndian : Bool) (moves : List Move) :
    ((empty littleEndian).after moves).Sound := by
  induction moves using List.reverseRecOn with
  | nil => exact sound_empty littleEndian
  | append_singleton moves m ih =>
    rw [after_append]
    exact ih.act m

/-! ### What a move leaves alone -/

theorem evolves_act (d : Desk) (m : Move) : d.heap.Evolves (d.act m).heap := by
  by_cases hm : d.allows m = true
  · rw [heap_act hm]
    cases m with
    | newBuffer contents => exact (Heap.Change.newBuffer contents).evolves
    | newTypedArray e length => exact .newTypedArray e length
    | newDataView contents => exact .newDataView contents
    | newArray values => exact .newArray values
    | newObject => exact Heap.Change.newObject.evolves
    | newNative f => exact .newNative f
    | newError f => exact (Heap.Change.newError f).evolves
    | newModule name => exact (Heap.Change.newModule name).evolves
    | newRegistry cleanup => exact .newRegistry cleanup
    | wrap k w => exact (Heap.Change.wrapped k w).evolves
    | clone v => exact .retain v
    | drop v => exact .release v
    | arraySet array i v => exact .arraySet array i v
    | arrayPush array v => exact .arrayPush array v
    | objectSet object key v => exact .objectSet object key v
    | objectDelete object key => exact .objectDelete object key
    | register r target v token =>
      show d.heap.Evolves ((d.heap.register r target v token).toOption.getD d.heap)
      cases hr : d.heap.register r target v token with
      | error e => exact .refl
      | ok h => exact .register hr
    | unregister r token =>
      show d.heap.Evolves (((d.heap.unregister r token).toOption.map (·.2)).getD d.heap)
      cases hr : d.heap.unregister r token with
      | error e => exact .refl
      | ok p => exact .unregister hr
    | collect r => exact (Heap.Change.collected r).evolves
  · rw [act_of_not_allows (by simpa using hm)]
    exact .refl

/-- A move spares every registry but the one that it is about. -/
theorem spares_act (d : Desk) (m : Move) {r : ℕ} (hr : m.registry? ≠ some r) :
    Heap.Spares r d.heap (d.act m).heap := by
  by_cases hm : d.allows m = true
  · rw [heap_act hm]
    cases m with
    | newArray values => exact .newArray values
    | newNative f => exact .newNative f
    | newRegistry cleanup => exact .newRegistry cleanup
    | wrap k w => exact .wrap k w
    | clone v => exact .retain v
    | drop v => exact .release v
    | arraySet array i v => exact .arraySet array i v
    | arrayPush array v => exact .arrayPush array v
    | objectSet object key v => exact .objectSet object key v
    | objectDelete object key => exact .objectDelete object key
    | register q target v token =>
      have hqr : q ≠ r := fun heq => hr (congrArg some heq)
      show Heap.Spares r d.heap ((d.heap.register q target v token).toOption.getD d.heap)
      rw [Heap.register_eq]
      cases WatchCell.of? target v token with
      | none => exact .refl
      | some c => exact (Heap.Spares.retain v).trans (.setWatchCells hqr)
    | unregister q token =>
      -- the held values that are given up may free other registries, but change none
      have hqr : q ≠ r := fun heq => hr (congrArg some heq)
      show Heap.Spares r d.heap
        (((d.heap.unregister q token).toOption.map (·.2)).getD d.heap)
      rw [Heap.unregister_eq]
      cases token.weak? with
      | none => exact .refl
      | some k => exact (Heap.Spares.setWatchCells hqr).trans (.releaseAll _)
    | collect q => exact .setWatchCells fun heq => hr (congrArg some heq)
    | _ => exact .of_eq rfl
  · rw [act_of_not_allows (by simpa using hm)]
    exact .refl

end Desk

end ModuleHost
