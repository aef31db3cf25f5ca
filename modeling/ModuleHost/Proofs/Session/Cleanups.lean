/-
Cleanup calls for what is gone.

A pass takes the cells that are due out of all registries first and then calls the cleanup
functions one by one.  Each call runs module code, which may unregister or fail, and nothing is
looked up anew in between.

* `taken`, `Notifies` — the cells that a pass takes, and the moment at which it calls for one;
* `takenFrom_sublist` — what a later pass takes has been registered since;
* `unregistered_notified_only_if_taken` — after an unregister only a pass that has taken a cell
  before still calls for it;
* `failed_pass_notifies_only_anew` — no pass ever calls for what a failing one has not called for;
* `notified_after_unregister`, `failed_pass_loses_cell` — both things do happen.
-/
import Mathlib
import ModuleHost.Proofs.Session.Announcements
import ModuleHost.Proofs.Watch.Since

namespace ModuleHost

open Act

/-! ### The cells of a pass -/

/-- A cell that is due, with its registry and the cleanup function of that. -/
structure DueCell where
  registry : ℕ
  cleanup : FunctionRef
  cell : WatchCell
  deriving DecidableEq

def DueCell.call (d : DueCell) : Heap.DueCleanup := ⟨d.cleanup, d.cell.held⟩

namespace Heap

variable {h : Heap} {r : ℕ}

def dueCells (h : Heap) (r : ℕ) : List DueCell :=
  (h.cleanup? r).toList.flatMap fun cleanup =>
    ((h.watchCells r).filter fun c => !h.isLive c.target).map (⟨r, cleanup, ·⟩)

theorem due_eq : h.due r = (h.dueCells r).map DueCell.call := by
  simp [due, dueCells, collect, List.map_flatMap, Function.comp_def, DueCell.call]

theorem mem_dueCells {d : DueCell} (hd : d ∈ h.dueCells r) :
    d.registry = r ∧ h.isLive d.cell.target = false := by
  obtain ⟨cleanup, -, hd⟩ := List.mem_flatMap.mp hd
  obtain ⟨c, hc, rfl⟩ := List.mem_map.mp hd
  exact ⟨rfl, by simpa using (List.mem_filter.mp hc).2⟩

theorem dueCells_sublist : ((h.dueCells r).map (·.cell)).Sublist (h.watchCells r) := by
  cases hc : h.cleanup? r with
  | none => simp [dueCells, hc]
  | some cleanup => simp [dueCells, hc, Function.comp_def]

/-- Of the cells that several registries have due, those of one registry are among its own. -/
theorem flatMap_dueCells_sublist {rs : List ℕ} (hrs : rs.Nodup) :
    (((rs.flatMap h.dueCells).filter (·.registry = r)).map (·.cell)).Sublist (h.watchCells r) := by
  induction rs with
  | nil => exact List.nil_sublist _
  | cons q rest ih =>
    obtain ⟨hq, hrest⟩ := List.nodup_cons.mp hrs
    rw [List.flatMap_cons, List.filter_append, List.map_append]
    by_cases hqr : q = r
    -- its own block, and none of its cells in the blocks that follow
    · subst hqr
      have hnone : (rest.flatMap h.dueCells).filter (·.registry = q) = [] := by
        refine List.filter_eq_nil_iff.mpr fun d hd heq => ?_
        obtain ⟨q', hq', hd⟩ := List.mem_flatMap.mp hd
        rw [(mem_dueCells hd).1, decide_eq_true_eq] at heq
        exact hq (heq ▸ hq')
      rw [hnone, List.map_nil, List.append_nil]
      exact (List.filter_sublist.map _).trans dueCells_sublist
    · have hnone : (h.dueCells q).filter (·.registry = r) = [] := by
        refine List.filter_eq_nil_iff.mpr fun d hd heq => ?_
        rw [(mem_dueCells hd).1, decide_eq_true_eq] at heq
        exact hqr heq
      rw [hnone, List.map_nil, List.nil_append]
      exact ih hrest

end Heap

/-! ### A pass -/

section Pass

variable {γ : Type} {m : Machine γ} {w w' moment : World γ} {d : DueCell} {r : ℕ}

/-- The registries that a pass beginning in a world goes through. -/
def listed (w : World γ) : List ℕ :=
  (swept w).session.finalizers.filter (swept w).session.heap.registries.isLive

/-- The cells that it takes. -/
def taken (w : World γ) : List DueCell := (listed w).flatMap (swept w).session.heap.dueCells

/-- The cells that it takes from one registry. -/
def takenFrom (r : ℕ) (w : World γ) : List WatchCell :=
  ((taken w).filter (·.registry = r)).map (·.cell)

/-- The world after it has taken them. -/
def afterCollecting (w : World γ) : World γ :=
  ⟨{ (swept w).session with
      finalizers := listed w
      heap := ((swept w).session.heap.collectAll (listed w)).2 }, w.guest⟩

/-- The pass that begins in `w` calls for `d` in `moment`: the calls for those before it have
returned. -/
def Notifies (m : Machine γ) (w : World γ) (d : DueCell) (moment : World γ) : Prop :=
  ∃ before after, taken w = before ++ d :: after ∧
    cleanupEach m (before.map DueCell.call) (afterCollecting w) = .ok ⟨⟩ moment

theorem nodup_listed (hw : w.session.Reachable) : (listed w).Nodup :=
  ((hw.evolves (evolves_swept w)).ascending.sorted.filter _).imp ne_of_lt

theorem collectAll_listed (hw : w.session.Reachable) :
    ((swept w).session.heap.collectAll (listed w)).1 = (taken w).map DueCell.call := by
  rw [Heap.collectAll_fst (nodup_listed hw), taken, List.map_flatMap]
  exact List.flatMap_congr fun r _ => Heap.due_eq

/-- What a pass takes is kept alive until it is over. -/
def keptBy (w : World γ) : List Value := (taken w).flatMap fun d => d.call.values

/-- A pass is the calls for what it takes, one by one. -/
theorem runCleanups_eq (hw : w.session.Reachable) :
    runCleanups m w = holding (keptBy w)
      (cleanupEach m ((taken w).map DueCell.call) >>= fun _ => pure (taken w).length)
      (afterCollecting w) := by
  have hrun : runCleanups m w
      = holding ((((swept w).session.heap.collectAll (listed w)).1).flatMap Heap.DueCleanup.values)
          (cleanupEach m ((swept w).session.heap.collectAll (listed w)).1 >>= fun _ =>
            pure ((swept w).session.heap.collectAll (listed w)).1.length)
          (afterCollecting w) := rfl
  rw [hrun, collectAll_listed hw, List.flatMap_map, List.length_map]
  rfl

def cleanUp (m : Machine γ) (d : Heap.DueCleanup) : Act γ Unit := do
  let result ← applyFunction m d.cleanup [d.held]
  modifyHeap (·.release result)

theorem cleanupEach_eq_forM (due : List Heap.DueCleanup) :
    cleanupEach m due = due.forM (cleanUp m) := by
  induction due with
  | nil => rfl
  | cons d rest ih =>
    rw [cleanupEach, ih]
    simp only [List.forM_eq_forM, List.forM_cons, cleanUp, bind_assoc]

theorem cleanupEach_append {before : List Heap.DueCleanup} (after : List Heap.DueCleanup)
    (hok : cleanupEach m before w = .ok ⟨⟩ moment) :
    cleanupEach m (before ++ after) w = cleanupEach m after moment := by
  rw [cleanupEach_eq_forM] at hok ⊢
  rw [cleanupEach_eq_forM]
  exact forM_append_of_ok after hok

theorem holding_of_eq {α : Type} {x y : Act γ α} (values : List Value) (hxy : x w = y w') :
    holding values x w = holding values y w' := by
  rw [holding, holding, Act.after, Act.after, hxy]

/-- A pass that calls for a cell goes on from there. -/
theorem Notifies.runCleanups_eq (hw : w.session.Reachable) (h : Notifies m w d moment) :
    ∃ after : List DueCell, runCleanups m w = holding (keptBy w) (do
      cleanupEach m (d.call :: after.map DueCell.call)
      return (taken w).length) moment := by
  obtain ⟨before, after, htaken, hok⟩ := h
  have hcalls : (taken w).map DueCell.call
      = before.map DueCell.call ++ d.call :: after.map DueCell.call := by
    rw [htaken, List.map_append, List.map_cons]
  refine ⟨after, (ModuleHost.runCleanups_eq hw).trans (holding_of_eq _ (bind_of_eq ?_ _))⟩
  rw [hcalls]
  exact cleanupEach_append _ hok

theorem evolves_afterCollecting (w : World γ) : w.session.Evolves (afterCollecting w).session := by
  refine (evolves_swept w).trans ?_
  have hpruned := (Session.Change.pruned (s := (swept w).session)).evolves
  exact hpruned.trans (.ofHeap (.collectAll (listed w)))

theorem mem_taken (hd : d ∈ taken w) :
    d.registry ∈ listed w ∧ (swept w).session.heap.isLive d.cell.target = false := by
  obtain ⟨r, hr, hd⟩ := List.mem_flatMap.mp hd
  obtain ⟨rfl, hgone⟩ := Heap.mem_dueCells hd
  exact ⟨hr, hgone⟩

/-- Once a pass has taken its cells, no cell of its registries has a target that was gone. -/
theorem watchCells_afterCollecting (hw : w.session.Reachable) (hr : r ∈ listed w) :
    ((afterCollecting w).session.heap.watchCells r).filter
      (fun c => !(swept w).session.heap.isLive c.target) = [] := by
  have hcells : (afterCollecting w).session.heap.watchCells r
      = ((swept w).session.heap.watchCells r).filter fun c =>
          (swept w).session.heap.isLive c.target :=
    Heap.collectAll_watchCells (nodup_listed hw) hr
  rw [hcells, List.filter_filter]
  simp

/-! ### What later passes take -/

theorem takenFrom_sublist (hw : w.session.Reachable) :
    (takenFrom r w).Sublist (w.session.heap.watchCells r) :=
  (Heap.flatMap_dueCells_sublist (nodup_listed hw)).trans (Heap.Spares.releaseAll _).sublist

/-- Of a kind of which a registry has no cell, a pass takes only cells registered since. -/
theorem takenFrom_filter_sublist {s : Session} {added : List WatchCell} {p : WatchCell → Bool}
    (hs : s.Reachable) (hnone : (s.heap.watchCells r).filter p = [])
    (hg : s.Gains r added w.session) : ((takenFrom r w).filter p).Sublist added := by
  have hw : w.session.Reachable := hs.evolves hg.evolves
  -- what it takes is what the registry has, and that is what it had or was registered since
  have hle := ((takenFrom_sublist hw).trans hg.watchCells).filter p
  rw [List.filter_append, hnone, List.nil_append] at hle
  exact hle.trans List.filter_sublist

end Pass

/-! ### Two cells -/

/-- A session in which a registry has watched two objects, the second with a token, and both
objects are gone. -/
def watchedTwo (s : Session) (cleanup : FunctionRef) : Session :=
  let r := s.heap.registries.next
  let i := s.heap.objects.next
  let s := { s with
    heap := { s.heap with registries := (s.heap.registries.alloc ⟨cleanup, []⟩).2 }
    finalizers := s.finalizers ++ [r] }
  let s := { s with heap := s.heap.newObject.2 }
  let s := { s with heap := s.heap.newObject.2 }
  let s := { s with heap := s.heap.newObject.2 }
  let first : WatchCell := ⟨.object i, .bool true, none⟩
  let second : WatchCell := ⟨.object (i + 1), .bool false, some (.object (i + 2))⟩
  let s := { s with heap := s.heap.setWatchCells r (s.heap.watchCells r ++ [first]) }
  let s := { s with heap := s.heap.setWatchCells r (s.heap.watchCells r ++ [second]) }
  let s := { s with heap := (s.heap.releaseTarget (.object i)).2 }
  { s with heap := (s.heap.releaseTarget (.object (i + 1))).2 }

theorem evolves_watchedTwo (s : Session) (cleanup : FunctionRef) :
    s.Evolves (watchedTwo s cleanup) :=
  (((((((Session.Evolves.refl.tail (.tracked cleanup)).tail (.heap .newObject)).tail
    (.heap .newObject)).tail (.heap .newObject)).tail (.heap (.watched _ _))).tail
    (.heap (.watched _ _))).tail (.heap (.released _))).tail (.heap (.released _))

/-! ### Unregistering -/

section Unregister

variable {γ : Type} {u u' : World γ} {r : ℕ} {token : Value} {found : Bool}

theorem Heap.filter_watchCells_unregister {h h' : Heap}
    (hun : h.unregister r token = .ok (found, h')) :
    ∃ k, token.weak? = some k ∧ (h'.watchCells r).filter (·.token = some k) = [] := by
  have heq := h.unregister_eq (r := r) token
  rw [hun] at heq
  obtain ⟨k, hk, hpair⟩ := Option.map_eq_some_iff.mp heq.symm
  refine ⟨k, hk, ?_⟩
  obtain ⟨-, rfl⟩ := Prod.mk.inj hpair
  -- the held values of the dropped cells are released, and that spares the registry
  refine (Heap.Spares.releaseAll _).filter_eq_nil (Heap.filter_watchCells_setWatchCells ?_)
  rw [List.filter_filter]
  simp

/-- Once `unregister` has returned for a registry and a token, a pass that begins later calls
for a cell with this token only if it was registered since.  But a pass that has taken such
cells before calls for them, whatever is done until it comes to them. -/
theorem unregistered_notified_only_if_taken (hu : u.session.Reachable)
    (hun : (tryHeap (·.unregister r token) : Act γ Bool) u = .ok found u') :
    ∃ k, token.weak? = some k ∧
      (∀ w : World γ, u'.session.Evolves w.session →
        (∃ added, u'.session.Gains r added w.session) ∧
        ∀ added, u'.session.Gains r added w.session →
          ((takenFrom r w).filter (·.token = some k)).Sublist added) ∧
      ∀ (m : Machine γ) (w moment : World γ) (d : DueCell), w.session.Reachable →
        Notifies m w d moment →
        ∃ after : List DueCell, runCleanups m w = holding (keptBy w) (do
          cleanupEach m (d.call :: after.map DueCell.call)
          return (taken w).length) moment := by
  obtain ⟨k, hk, hnone⟩ := Heap.filter_watchCells_unregister (heap_of_tryHeap hun)
  have hu' : u'.session.Reachable := hu.evolves ((Evolving.tryHeap fun h => .unregister h).of_ok hun)
  refine ⟨k, hk, fun w hev => ⟨hev.exists_gains r, fun added hg => ?_⟩, ?_⟩
  · exact takenFrom_filter_sublist hu' hnone hg
  · exact fun m w moment d hw hd => hd.runCleanups_eq hw

end Unregister

/-- What a module writes down. -/
inductive Noted where
  | called (args : List Val)
  | unregistered (registry token : Value)
  deriving DecidableEq

def noteDown (n : Noted) : Act (List Noted) Unit := modify fun w => ⟨w.session, w.guest ++ [n]⟩

/-- A module that unregisters a token whenever it is called, and writes down what happens. -/
def unregistering (registry token : Value) : Code (List Noted) where
  own m _ _ args := do
    noteDown (.called args)
    let _ ← m.call (.host .finalizationUnregister)
      [.ref (.ofValue registry), .ref (.ofValue token)]
    noteDown (.unregistered registry token)
    return [.ref .null]
  supplied _ _ _ _ := return []
  native _ _ := return .undefined
  note _ := return ()

theorem unregistering_sandboxed (registry token : Value) :
    (unregistering registry token).Sandboxed where
  own m hm _ _ _ := by
    have hnote : ∀ n, Evolving (noteDown n) := fun _ _ => .refl
    exact (hnote _).bind fun _ => (hm.call _ _).bind fun _ => (hnote _).bind fun _ => .pure _
  supplied _ _ _ _ _ := .pure _
  native _ _ := .pure _
  note _ := .pure _

/-- A session of this module, whose closure is the cleanup function of the two cells. -/
def cleaning : World (List Noted) :=
  let s := Session.new (.standard .default ⟨[]⟩ true) .none none
  let f := Func.own 1 (.named "$closureCall1") ⟨[.i32, .i32, .externref], [.externref]⟩
  let s := { s with
    primary := some ⟨[("$closureCall1", .func f)]⟩
    memory := none
    deferred := { s.deferred with linker := some .empty } }
  let s := { s with heap := (s.heap.wrap .session ⟨7, 1⟩).2 }
  ⟨watchedTwo s (.wrapper .session 0), []⟩

theorem cleaning_reachable : cleaning.session.Reachable :=
  ⟨_, _, _, ((Session.Evolves.refl.tail (.linked ⟨[("$closureCall1", .func _)]⟩ .empty)).tail
    (.heap (.wrapped .session ⟨7, 1⟩))).trans (evolves_watchedTwo _ _)⟩

def dropped : World (List Noted) := final (tryHeap (·.unregister 0 (.object 3)) : Act _ Bool) cleaning

theorem unregister_cleaning :
    (tryHeap (·.unregister 0 (.object 3)) : Act _ Bool) cleaning = .ok true dropped := rfl

theorem unregistered_notified_only_if_taken_cleaning :
    (cleaning.session.Reachable ∧
      (tryHeap (·.unregister 0 (.object 3)) : Act _ Bool) cleaning = .ok true dropped) ∧
    ∃ k, (Value.object 3).weak? = some k ∧
      ∀ w : World (List Noted), dropped.session.Evolves w.session →
        (∃ added, dropped.session.Gains 0 added w.session) ∧
        ∀ added, dropped.session.Gains 0 added w.session →
          ((takenFrom 0 w).filter (·.token = some k)).Sublist added := by
  obtain ⟨k, hk, hlater, -⟩ :=
    unregistered_notified_only_if_taken cleaning_reachable unregister_cleaning
  exact ⟨⟨cleaning_reachable, unregister_cleaning⟩, k, hk, hlater⟩

def firstCell : DueCell := ⟨0, .wrapper .session 0, ⟨.object 1, .bool true, none⟩⟩

def secondCell : DueCell := ⟨0, .wrapper .session 0, ⟨.object 2, .bool false, some (.object 3)⟩⟩

theorem taken_cleaning : taken cleaning = [firstCell, secondCell] := by decide +kernel

/-- The moment at which the pass comes to the second cell. -/
def unregisteredFirst : World (List Noted) :=
  final (cleanupEach ((unregistering (.registry 0) (.object 3)).machine 2) [firstCell.call])
    (afterCollecting cleaning)

theorem notifies_unregisteredFirst :
    Notifies ((unregistering (.registry 0) (.object 3)).machine 2) cleaning secondCell
      unregisteredFirst := ⟨[firstCell], [], taken_cleaning, rfl⟩

/-- The cleanup function is called for a cell although the cell was registered with a token,
`unregister` has been called with this token since, and has returned. -/
theorem notified_after_unregister :
    ¬ ∀ (r : ℕ) (token : Value) (depth : ℕ) (w moment : World (List Noted)) (d : DueCell),
      (unregistering (.registry r) token).Sandboxed → w.session.Reachable → w.guest = [] →
      Notifies ((unregistering (.registry r) token).machine depth) w d moment →
      d.registry = r → d.cell.token.isSome → d.cell.token = token.weak? →
      Noted.unregistered (.registry r) token ∉ moment.guest := by
  intro h
  refine h 0 (.object 3) 2 cleaning unregisteredFirst secondCell (unregistering_sandboxed _ _)
    cleaning_reachable rfl notifies_unregisteredFirst rfl rfl rfl ?_
  decide +kernel

/-! ### Failing -/

section Failing

variable {γ : Type} {m : Machine γ} {w w' : World γ} {e : Fault}

theorem exists_of_holding_eq_error {α : Type} {x : Act γ α} {values : List Value}
    (h : holding values x w = .error e w') : ∃ w₁, x w = .error e w₁ := by
  rw [holding, Act.after] at h
  cases hx : x w with
  | ok a w₁ =>
    rw [hx] at h
    cases h
  | error e₁ w₁ =>
    rw [hx] at h
    cases h
    exact ⟨w₁, rfl⟩

/-- A batch fails at one of its cells, the calls for those before it having returned. -/
theorem exists_of_cleanupEach_eq_error {cells : List DueCell}
    (h : cleanupEach m (cells.map DueCell.call) w = .error e w') :
    ∃ before d after moment, cells = before ++ d :: after ∧
      cleanupEach m (before.map DueCell.call) w = .ok ⟨⟩ moment ∧
      applyFunction m d.cleanup [d.cell.held] moment = .error e w' := by
  rw [cleanupEach_eq_forM] at h
  obtain ⟨before, a, after, moment, hsplit, hok, herr⟩ := exists_of_forM_eq_error h
  obtain ⟨before, rest, rfl, rfl, hrest⟩ := List.map_eq_append_iff.mp hsplit
  obtain ⟨d, after, rfl, rfl, rfl⟩ := List.map_eq_cons_iff.mp hrest
  rw [← cleanupEach_eq_forM] at hok
  refine ⟨before, d, after, moment, rfl, hok, ?_⟩
  -- giving up the result cannot fail
  cases hc : applyFunction m d.cleanup [d.cell.held] moment with
  | ok result w₁ => cases (bind_of_ok hc fun _ => modifyHeap _).symm.trans herr
  | error e₁ w₁ =>
    cases (bind_of_error hc _).symm.trans herr
    rfl

/-- A pass that fails has made the calls for the cells before some cell of its batch, and fails
at the call for that one.  Those after it are lost: whatever happens later, of the cells whose
targets were gone when the failing pass began, a pass takes only those that were registered
since.  Settling ends with the failure. -/
theorem failed_pass_notifies_only_anew {code : Code γ} (hcode : code.Sandboxed) {depth : ℕ}
    (hw : w.session.Reachable) (herr : runCleanups (code.machine depth) w = .error e w') :
    (∃ before d after moment w₁, taken w = before ++ d :: after ∧
      cleanupEach (code.machine depth) (before.map DueCell.call) (afterCollecting w)
        = .ok ⟨⟩ moment ∧
      applyFunction (code.machine depth) d.cleanup [d.cell.held] moment = .error e w₁) ∧
    (∀ d ∈ taken w, (swept w).session.heap.isLive d.cell.target = false ∧
      ∀ s : World γ, w'.session.Evolves s.session →
        (∃ added, (afterCollecting w).session.Gains d.registry added s.session) ∧
        ∀ added, (afterCollecting w).session.Gains d.registry added s.session →
          ((takenFrom d.registry s).filter fun c =>
            !(swept w).session.heap.isLive c.target).Sublist added) ∧
    ∀ {budget n k : ℕ} {w₀ w₁ : World γ},
      drainMicrotasks (code.machine depth) budget w₀ = .ok n w₁ →
      announceOrphans (code.machine depth) w₁ = .ok k w →
      settle (code.machine depth) budget w₀ = .error e w' := by
  have hm := hcode.machine depth
  refine ⟨?_, fun d hd => ?_, fun hdrain hannounce => ?_⟩
  · rw [runCleanups_eq hw] at herr
    obtain ⟨w₁, hpass⟩ := exists_of_holding_eq_error herr
    cases hcalls : cleanupEach (code.machine depth) ((taken w).map DueCell.call)
        (afterCollecting w) with
    | ok u w₂ => cases (bind_of_ok hcalls _).symm.trans hpass
    | error e₂ w₂ =>
      cases (bind_of_error hcalls _).symm.trans hpass
      obtain ⟨before, d, after, moment, htaken, hok, hcall⟩ :=
        exists_of_cleanupEach_eq_error hcalls
      exact ⟨before, d, after, moment, w₁, htaken, hok, hcall⟩
  · obtain ⟨hlisted, hgone⟩ := mem_taken hd
    -- cells registered by calls that the failing pass has made count as registered since
    have hpass : (afterCollecting w).session.Evolves w'.session := by
      rw [runCleanups_eq hw] at herr
      exact ((((Orderly.cleanupEach _).bind fun _ => .pure _).holding _).evolving hm).of_error herr
    have hcollected : (afterCollecting w).session.Reachable := hw.evolves (evolves_afterCollecting w)
    refine ⟨hgone, fun s hs => ⟨(hpass.trans hs).exists_gains _, fun added hg => ?_⟩⟩
    exact takenFrom_filter_sublist hcollected (watchCells_afterCollecting hw hlisted) hg
  · exact (bind_of_ok hdrain _).trans ((bind_of_ok hannounce _).trans (bind_of_error herr _))

end Failing

def nativeFault : Fault := .failed ⟨"calling native", ["native failure"]⟩

/-- A module that fails whatever it hears, beside native functions that fail. -/
def failingNatives : Code Unit := { refusing with native := fun _ _ => throw nativeFault }

theorem failingNatives_sandboxed : failingNatives.Sandboxed :=
  { refusing_sandboxed with native := fun _ _ => .throw _ }

/-- A session in which the cleanup function of the two cells is a native one. -/
def failing : World Unit :=
  let s := Session.new (.standard .default ⟨[]⟩ true) .none none
  ⟨watchedTwo { s with heap := (s.heap.newNative ⟨"fail", []⟩).2 } (.native 0), ()⟩

theorem failing_reachable : failing.session.Reachable :=
  ⟨_, _, _, (Session.Evolves.refl.tail (.heap (.newNative ⟨"fail", []⟩))).trans
    (evolves_watchedTwo _ _)⟩

def failed : World Unit := final (runCleanups (failingNatives.machine 0)) failing

theorem runCleanups_failing :
    runCleanups (failingNatives.machine 0) failing = .error nativeFault failed :=
  eq_error_of_fault? (by decide +kernel)

theorem failed_pass_notifies_only_anew_failing :
    (failingNatives.Sandboxed ∧ failing.session.Reachable ∧
      runCleanups (failingNatives.machine 0) failing = .error nativeFault failed) ∧
    ∃ before d after moment w₁, taken failing = before ++ d :: after ∧
      cleanupEach (failingNatives.machine 0) (before.map DueCell.call) (afterCollecting failing)
        = .ok ⟨⟩ moment ∧
      applyFunction (failingNatives.machine 0) d.cleanup [d.cell.held] moment
        = .error nativeFault w₁ :=
  ⟨⟨failingNatives_sandboxed, failing_reachable, runCleanups_failing⟩,
    (failed_pass_notifies_only_anew failingNatives_sandboxed failing_reachable runCleanups_failing).1⟩

/-- A cell for which the call was not made because the call for another one failed is not taken
by the pass that comes next. -/
theorem failed_pass_loses_cell :
    ¬ ∀ (code : Code Unit) (depth : ℕ) (w w' w₁ moment : World Unit) (e : Fault)
      (before after : List DueCell) (d : DueCell), code.Sandboxed → w.session.Reachable →
      runCleanups (code.machine depth) w = .error e w' → taken w = before ++ d :: after →
      cleanupEach (code.machine depth) (before.map DueCell.call) (afterCollecting w)
        = .ok ⟨⟩ moment →
      applyFunction (code.machine depth) d.cleanup [d.cell.held] moment = .error e w₁ →
      ∀ d' ∈ after, d' ∈ taken w' := by
  intro h
  have htaken : taken failing = [⟨0, .native 0, ⟨.object 1, .bool true, none⟩⟩,
      ⟨0, .native 0, ⟨.object 2, .bool false, some (.object 3)⟩⟩] := by
    decide +kernel
  have hlost := h failingNatives 0 failing failed _ (afterCollecting failing) nativeFault [] _ _
    failingNatives_sandboxed failing_reachable runCleanups_failing htaken rfl
    (eq_error_of_fault? (by decide +kernel)) _ (List.mem_singleton_self _)
  have hnext : taken failed = [] := by decide +kernel
  rw [hnext] at hlost
  exact absurd hlost List.not_mem_nil

end ModuleHost
