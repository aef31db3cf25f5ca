/-
Who holds what.

`h.Balanced held` says that the strong handles on every payload are exactly those in `held`, in
somebody's hands, and those in live payloads: elements of arrays, properties of objects,
what registries hold.  All operations of the heap keep the balance, each with what it takes from
the hands and what it gives.  So a payload is alive exactly as long as someone has it in hand
or a live payload holds it.

* `Heap.stored` — what live payloads hold;
* `Heap.Balanced` — the balance, and `Balanced.isLive_iff` what follows for lives;
* `Balanced.retain`, `.release`, `.newArray`, `.arraySet`, … — the operations.

Design notes: a release frees payloads one after the other, with fuel.  Each step either leaves
the heap as it is or moves what a freed payload held from the heap into the hands, so the values
in hand and those stored get fewer together, and the fuel is enough.
-/
import Mathlib
import ModuleHost.Heap.Containers
import ModuleHost.Heap.Windows
import ModuleHost.Proofs.Closures.Table
import ModuleHost.Proofs.Heap.Contents

namespace ModuleHost

/-- Handles on a payload among some values. -/
def handlesOn (t : Target) (vs : List Value) : ℕ := vs.countP fun v => v.target? = some t

section HandlesOn

variable {t : Target} {vs ws : List Value} {v : Value}

@[simp] theorem handlesOn_nil : handlesOn t [] = 0 := rfl

theorem handlesOn_cons (v : Value) (vs : List Value) :
    handlesOn t (v :: vs) = handlesOn t [v] + handlesOn t vs := by
  simp only [handlesOn, List.countP_cons, List.countP_nil]
  omega

@[simp] theorem handlesOn_append : handlesOn t (vs ++ ws) = handlesOn t vs + handlesOn t ws :=
  List.countP_append ..

theorem handlesOn_perm (h : vs.Perm ws) : handlesOn t vs = handlesOn t ws := h.countP_eq _

theorem handlesOn_singleton : handlesOn t [v] = if v.target? = some t then 1 else 0 := by
  simp [handlesOn, List.countP_cons]

theorem handlesOn_pos_iff : 0 < handlesOn t vs ↔ ∃ v ∈ vs, v.target? = some t := by
  simp [handlesOn, List.countP_pos_iff]

theorem handlesOn_undefineds (n : ℕ) : handlesOn t (List.replicate n .undefined) = 0 := by
  simp [handlesOn, List.countP_replicate, Value.target?]

end HandlesOn

namespace Heap

variable {h h' : Heap} {t u : Target} {v : Value} {vs held held' : List Value}

/-! ### Counts and lives -/

@[simp] theorem closuresOf_setClosures (k k' : Keeper) (closures : Closures) :
    (h.setClosures k closures).closuresOf k' = if k = k' then closures else h.closuresOf k' := by
  cases k <;> cases k' <;> rfl

theorem count_retainTarget (t u : Target) :
    (h.retainTarget t).count u = h.count u + if t = u ∧ h.isLive u = true then 1 else 0 := by
  -- wrappers have a keeper besides their number; all other payloads have a pool of their own
  rcases t with i | i | i | (i | ⟨k, i⟩) | i | i | i
  case function.wrapper =>
    rcases u with j | j | j | (j | ⟨k', j⟩) | j | j | j
    case function.wrapper =>
      by_cases hk : k = k'
      · subst hk
        simp [retainTarget, count, isLive, Closures.retain, Pool.count_retain]
      · simp [retainTarget, count, hk]
    all_goals cases k <;> simp [retainTarget, count, setClosures]
  all_goals
    rcases u with j | j | j | (j | ⟨k', j⟩) | j | j | j
    all_goals simp [retainTarget, count, isLive, Pool.count_retain]
    all_goals rfl

theorem isLive_retainTarget (t u : Target) : (h.retainTarget t).isLive u = h.isLive u := by
  rcases t with i | i | i | (i | ⟨k, i⟩) | i | i | i
  case function.wrapper =>
    rcases u with j | j | j | (j | ⟨k', j⟩) | j | j | j
    case function.wrapper =>
      by_cases hk : k = k'
      · subst hk
        simp [retainTarget, isLive, Closures.retain, Pool.isLive_retain]
      · simp [retainTarget, isLive, hk]
    all_goals cases k <;> rfl
  all_goals
    rcases u with j | j | j | (j | ⟨k', j⟩) | j | j | j
    all_goals first | rfl | exact Pool.isLive_retain

theorem count_releaseTarget (t u : Target) :
    (h.releaseTarget t).2.count u = h.count u - if t = u then 1 else 0 := by
  rcases t with i | i | i | (i | ⟨k, i⟩) | i | i | i
  case function.wrapper =>
    rcases u with j | j | j | (j | ⟨k', j⟩) | j | j | j
    case function.wrapper =>
      by_cases hk : k = k'
      · subst hk
        simp [releaseTarget, count, Closures.release_eq, Pool.count_release]
      · simp [releaseTarget, count, hk]
    all_goals cases k <;> simp [releaseTarget, count, setClosures]
  all_goals
    rcases u with j | j | j | (j | ⟨k', j⟩) | j | j | j
    all_goals simp [releaseTarget, count, Pool.count_release]
    all_goals rfl

/-- All pools are sound. -/
structure PoolsSound (h : Heap) : Prop where
  arrays : h.arrays.Sound
  objects : h.objects.Sound
  buffers : h.buffers.Sound
  natives : h.natives.Sound
  wrappers : ∀ k, (h.closuresOf k).wrappers.Sound
  errors : h.errors.Sound
  modules : h.modules.Sound
  registries : h.registries.Sound

theorem poolsSound_empty (littleEndian : Bool) : (empty littleEndian).PoolsSound where
  arrays := Pool.sound_empty
  objects := Pool.sound_empty
  buffers := Pool.sound_empty
  natives := Pool.sound_empty
  wrappers k := by
    cases k
    · exact Pool.sound_empty
    · exact Pool.sound_empty
  errors := Pool.sound_empty
  modules := Pool.sound_empty
  registries := Pool.sound_empty

/-- A payload is alive as long as there is a handle on it. -/
theorem PoolsSound.isLive_iff (hs : h.PoolsSound) : h.isLive t = true ↔ 0 < h.count t := by
  rcases t with i | i | i | (i | ⟨k, i⟩) | i | i | i
  case array => exact hs.arrays.isLive_iff
  case object => exact hs.objects.isLive_iff
  case buffer => exact hs.buffers.isLive_iff
  case function.native => exact hs.natives.isLive_iff
  case function.wrapper => exact (hs.wrappers k).isLive_iff
  case error => exact hs.errors.isLive_iff
  case linkedModule => exact hs.modules.isLive_iff
  case registry => exact hs.registries.isLive_iff

theorem PoolsSound.setClosures (hs : h.PoolsSound) {k : Keeper} {closures : Closures}
    (hc : closures.wrappers.Sound) : (h.setClosures k closures).PoolsSound := by
  have hw : ∀ k', ((h.setClosures k closures).closuresOf k').wrappers.Sound := by
    intro k'
    rw [closuresOf_setClosures]
    split
    · exact hc
    · exact hs.wrappers k'
  cases k
  · exact { hs with wrappers := hw }
  · exact { hs with wrappers := hw }

theorem PoolsSound.retainTarget (hs : h.PoolsSound) (t : Target) :
    (h.retainTarget t).PoolsSound := by
  rcases t with i | i | i | (i | ⟨k, i⟩) | i | i | i
  case array => exact { hs with arrays := hs.arrays.retain, wrappers := hs.wrappers }
  case object => exact { hs with objects := hs.objects.retain, wrappers := hs.wrappers }
  case buffer => exact { hs with buffers := hs.buffers.retain, wrappers := hs.wrappers }
  case function.native => exact { hs with natives := hs.natives.retain, wrappers := hs.wrappers }
  case function.wrapper => exact hs.setClosures (hs.wrappers k).retain
  case error => exact { hs with errors := hs.errors.retain, wrappers := hs.wrappers }
  case linkedModule => exact { hs with modules := hs.modules.retain, wrappers := hs.wrappers }
  case registry => exact { hs with registries := hs.registries.retain, wrappers := hs.wrappers }

theorem PoolsSound.releaseTarget (hs : h.PoolsSound) (t : Target) :
    (h.releaseTarget t).2.PoolsSound := by
  rcases t with i | i | i | (i | ⟨k, i⟩) | i | i | i
  case array => exact { hs with arrays := hs.arrays.release, wrappers := hs.wrappers }
  case object => exact { hs with objects := hs.objects.release, wrappers := hs.wrappers }
  case buffer => exact { hs with buffers := hs.buffers.release, wrappers := hs.wrappers }
  case function.native => exact { hs with natives := hs.natives.release, wrappers := hs.wrappers }
  case function.wrapper =>
    refine hs.setClosures ?_
    rw [Closures.release_eq]
    exact (hs.wrappers k).release
  case error => exact { hs with errors := hs.errors.release, wrappers := hs.wrappers }
  case linkedModule => exact { hs with modules := hs.modules.release, wrappers := hs.wrappers }
  case registry => exact { hs with registries := hs.registries.release, wrappers := hs.wrappers }

/-! ### What live payloads hold -/

/-- What live arrays, objects, registries and native functions hold. -/
def stored (h : Heap) : List Value :=
  h.arrays.contents.flatMap id ++ h.objects.contents.flatMap (·.map (·.2)) ++
    h.registries.contents.flatMap Registry.values ++
    h.natives.contents.flatMap NativeFunction.captured

theorem held_eq_length_stored : h.held = h.stored.length := by
  have harrays : h.arrays.contents.map List.length
      = h.arrays.contents.map fun values => (id values).length := rfl
  have hobjects : h.objects.contents.map List.length
      = h.objects.contents.map fun props => (props.map (·.2)).length := by
    simp
  have hregistries : (h.registries.contents.map fun r => r.cells.length + 1)
      = h.registries.contents.map fun r => r.values.length := by
    simp [Registry.values]
  rw [held, Pool.total_eq, Pool.total_eq, Pool.total_eq, Pool.total_eq, harrays, hobjects,
    hregistries, stored]
  simp only [List.length_append, List.length_flatMap]

theorem stored_setClosures (k : Keeper) (closures : Closures) :
    (h.setClosures k closures).stored = h.stored := by
  cases k <;> rfl

theorem stored_retainTarget (t : Target) : (h.retainTarget t).stored.Perm h.stored := by
  rcases t with i | i | i | (i | ⟨k, i⟩) | i | i | i
  case array =>
    exact (((Pool.contents_retain.flatMap_right _).append_right _).append_right _).append_right _
  case object =>
    exact (((Pool.contents_retain.flatMap_right _).append_left _).append_right _).append_right _
  case registry => exact ((Pool.contents_retain.flatMap_right _).append_left _).append_right _
  case function.native => exact (Pool.contents_retain.flatMap_right _).append_left _
  case function.wrapper => rw [retainTarget, stored_setClosures]
  all_goals exact .refl _

/-- What a freed payload held comes back, everything else stays. -/
theorem stored_releaseTarget (t : Target) :
    ((h.releaseTarget t).1 ++ (h.releaseTarget t).2.stored).Perm h.stored := by
  rcases t with i | i | i | (i | ⟨k, i⟩) | i | i | i
  case array =>
    have hfreed : ((h.arrays.release i).1.getD [] ++ (h.arrays.release i).2.contents.flatMap id).Perm
        (h.arrays.contents.flatMap id) := by
      simpa using Pool.flatMap_contents_release h.arrays i id
    rw [stored, stored, ← List.append_assoc, ← List.append_assoc, ← List.append_assoc]
    exact ((hfreed.append_right _).append_right _).append_right _
  case object =>
    have hfreed := Pool.flatMap_contents_release h.objects i (·.map (·.2))
    have hmap : ((h.objects.release i).1.getD []).map (·.2)
        = ((h.objects.release i).1.map (·.map (·.2))).getD [] := by
      cases (h.objects.release i).1 <;> rfl
    -- what the object held stands behind what the arrays hold
    show (((h.objects.release i).1.getD []).map (·.2) ++ ((h.arrays.contents.flatMap id ++
      (h.objects.release i).2.contents.flatMap (·.map (·.2))) ++ _ ++ _)).Perm _
    rw [hmap, ← List.append_assoc, ← List.append_assoc]
    refine List.Perm.append_right _ (List.Perm.append_right _ ?_)
    exact (List.perm_append_comm_assoc _ _ _).trans (hfreed.append_left _)
  case registry =>
    have hfreed := Pool.flatMap_contents_release h.registries i Registry.values
    show (_ ++ ((_ ++ (h.registries.release i).2.contents.flatMap Registry.values) ++ _)).Perm _
    rw [← List.append_assoc]
    refine List.Perm.append_right _ ?_
    exact (List.perm_append_comm_assoc _ _ _).trans (hfreed.append_left _)
  case function.native =>
    have hfreed := Pool.flatMap_contents_release h.natives i NativeFunction.captured
    exact (List.perm_append_comm_assoc _ _ _).trans (hfreed.append_left _)
  case function.wrapper => rw [releaseTarget, stored_setClosures, List.nil_append]
  all_goals exact .refl _

/-! ### The balance -/

/-- The handles on every payload are those in hand and those in live payloads. -/
structure Balanced (h : Heap) (held : List Value) : Prop where
  pools : h.PoolsSound
  counts : ∀ t, h.count t = handlesOn t held + handlesOn t h.stored

theorem balanced_empty (littleEndian : Bool) : (empty littleEndian).Balanced [] where
  pools := poolsSound_empty littleEndian
  counts t := by
    have hempty : ∀ {α : Type} (i : ℕ), (Pool.empty : Pool α).count i = 0 := fun i => by
      rw [Pool.count, Pool.cell?_empty]
      rfl
    have hcount : (empty littleEndian).count t = 0 := by
      rcases t with i | i | i | (i | ⟨k, i⟩) | i | i | i
      case function.wrapper => cases k <;> exact hempty i
      all_goals exact hempty i
    rw [hcount]
    rfl

/-- A payload is alive exactly as long as someone has it in hand or a live payload holds it. -/
theorem Balanced.isLive_iff (hb : h.Balanced held) :
    h.isLive t = true ↔ ∃ v ∈ held ++ h.stored, v.target? = some t := by
  rw [hb.pools.isLive_iff, hb.counts, ← handlesOn_append, handlesOn_pos_iff]

theorem Balanced.perm (hb : h.Balanced held) (hp : held.Perm held') : h.Balanced held' where
  pools := hb.pools
  counts t := by rw [hb.counts, handlesOn_perm hp]

/-- What is held is alive. -/
def Alive (h : Heap) (v : Value) : Prop := ∀ t, v.target? = some t → h.isLive t = true

theorem Balanced.alive (hb : h.Balanced held) (hv : v ∈ held ++ h.stored) : h.Alive v :=
  fun _ ht => hb.isLive_iff.mpr ⟨v, hv, ht⟩

/-! ### Handles -/

theorem Balanced.retain (hb : h.Balanced held) (hv : h.Alive v) :
    (h.retain v).Balanced (v :: held) := by
  unfold Heap.retain
  cases ht : v.target? with
  | none =>
    refine ⟨hb.pools, fun u => ?_⟩
    rw [handlesOn_cons, handlesOn_singleton, ht]
    simpa using hb.counts u
  | some t =>
    refine ⟨hb.pools.retainTarget t, fun u => ?_⟩
    have hcount := hb.counts u
    show (h.retainTarget t).count u = _ + handlesOn u (h.retainTarget t).stored
    rw [count_retainTarget, handlesOn_perm (stored_retainTarget t), handlesOn_cons,
      handlesOn_singleton, ht]
    by_cases htu : t = u
    · subst htu
      simp only [hv t ht, and_self, if_true]
      omega
    · simp only [htu, false_and, if_false, Option.some.injEq]
      omega

theorem alive_retain {w : Value} (hs : h.PoolsSound) (hv : h.Alive v) : (h.retain w).Alive v := by
  intro t ht
  have hpos := hs.isLive_iff.mp (hv t ht)
  unfold Heap.retain
  cases w.target? with
  | none => exact hv t ht
  | some u =>
    refine (hs.retainTarget u).isLive_iff.mpr ?_
    rw [count_retainTarget]
    omega

theorem Balanced.retainAll (vs : List Value) : ∀ {h : Heap} {held : List Value},
    h.Balanced held → (∀ v ∈ vs, h.Alive v) → (h.retainAll vs).Balanced (vs ++ held) := by
  induction vs with
  | nil => exact fun hb _ => hb
  | cons v rest ih =>
    intro h held hb hvs
    have hretained := hb.retain (hvs v List.mem_cons_self)
    have hrest := ih hretained fun w hw =>
      alive_retain hb.pools (hvs w (List.mem_cons_of_mem _ hw))
    exact hrest.perm List.perm_middle

/-- One step of a release: what a freed payload held is in hand now. -/
theorem Balanced.releaseOne (hb : h.Balanced (v :: held)) :
    (h.releaseOne v).2.Balanced ((h.releaseOne v).1 ++ held) := by
  unfold Heap.releaseOne
  cases ht : v.target? with
  | none =>
    refine ⟨hb.pools, fun u => ?_⟩
    have hcount := hb.counts u
    rw [handlesOn_cons, handlesOn_singleton, ht] at hcount
    simpa using hcount
  | some t =>
    refine ⟨hb.pools.releaseTarget t, fun u => ?_⟩
    have hcount := hb.counts u
    have hstored := handlesOn_perm (t := u) (stored_releaseTarget (h := h) t)
    rw [handlesOn_cons, handlesOn_singleton, ht] at hcount
    rw [handlesOn_append] at hstored
    show (h.releaseTarget t).2.count u = _
    rw [count_releaseTarget, handlesOn_append]
    by_cases htu : t = u
    · simp only [htu, if_true] at hcount hstored ⊢
      omega
    · simp only [htu, if_false, Option.some.injEq] at hcount hstored ⊢
      omega

theorem length_releaseOne (v : Value) :
    (h.releaseOne v).1.length + (h.releaseOne v).2.stored.length = h.stored.length := by
  unfold Heap.releaseOne
  cases v.target? with
  | none => exact Nat.zero_add _
  | some t => rw [← List.length_append, (stored_releaseTarget t).length_eq]

/-- The fuel of a release is enough: by induction on it, what is in hand and what is stored are
fewer together after each step. -/
theorem Balanced.releaseWith (fuel : ℕ) : ∀ {h : Heap} {vs : List Value},
    h.Balanced (vs ++ held) → vs.length + h.stored.length ≤ fuel →
    (releaseWith fuel h vs).Balanced held := by
  induction fuel with
  | zero =>
    -- without fuel there is nothing left to give up
    intro h vs hb hfuel
    have hnil : vs = [] := List.length_eq_zero_iff.mp (by omega)
    subst hnil
    exact hb
  | succ fuel ih =>
    intro h vs hb hfuel
    cases vs with
    | nil => exact hb
    | cons v rest =>
      have hone : (h.releaseOne v).2.Balanced ((h.releaseOne v).1 ++ (rest ++ held)) :=
        hb.releaseOne
      rw [← List.append_assoc] at hone
      show (Heap.releaseWith fuel (h.releaseOne v).2 ((h.releaseOne v).1 ++ rest)).Balanced held
      refine ih hone ?_
      have hlength := length_releaseOne (h := h) v
      rw [List.length_cons] at hfuel
      rw [List.length_append]
      omega

theorem Balanced.release (hb : h.Balanced (v :: held)) : (h.release v).Balanced held := by
  have hone := hb.releaseOne
  unfold Heap.release
  split
  -- nothing was freed, or nothing was held by what was
  · rename_i hr
    rwa [hr] at hone
  · rename_i hr
    rw [hr] at hone
    refine Balanced.releaseWith _ hone ?_
    rw [held_eq_length_stored, Nat.add_comm]

theorem Balanced.releaseAll (vs : List Value) : ∀ {h : Heap},
    h.Balanced (vs ++ held) → (h.releaseAll vs).Balanced held := by
  induction vs with
  | nil => exact fun hb => hb
  | cons v rest ih =>
    intro h hb
    have hrest : (h.release v).Balanced (rest ++ held) := hb.release
    exact ih hrest

end Heap

end ModuleHost
