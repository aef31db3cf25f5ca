/-
What deferred modules share with the primary instance.

Deferred modules find the exports of the primary instance under one namespace: functions, memories,
tables and globals alike.  What they find is the entity itself and no copy, so its type is that of
the entity as it stands in the store.  What is a module's own is numbered with the instance, so
functions of one name are not taken for each other.

* `resolve?_deferredLinker`, `lookup_toInstance` — what the names of that namespace stand for;
* `Store.made_of_stock` — what the standard engine makes for an instance;
* `Store.own_ne_of_made` — own functions of two instances are different;
* `exported_globals_are_shared` — a deferred module can import an exported global exactly if it
  declares what the primary module declares.
-/
import Mathlib
import ModuleHost.Proofs.Linking.Stocking

namespace ModuleHost

open Act

variable {γ : Type}

/-! ### Names -/

section Names

variable {exports : List ExportDecl} {p : Parts}

/-- Where names are not repeated, the last entry of a name is the one that is looked up. -/
theorem map_getLast?_filter_eq_lookup {as : List (String × Extern)} (h : (as.map Prod.fst).Nodup)
    (name : String) :
    (as.filter fun a => a.1 = name).getLast?.map Prod.snd = as.lookup name := by
  rw [getLast?_filter_of_nodup h]
  clear h
  induction as with
  | nil => rfl
  | cons a rest ih =>
    rw [List.lookup_cons, ← ih]
    by_cases ha : a.1 = name
    · simp [ha]
    · simp [ha, beq_false_of_ne (Ne.symm ha)]

/-- The namespace of the primary instance offers its exports, and where it exports nothing under a
name, what every module of the session can import. -/
theorem resolve?_deferredLinker (shared : Linker) {i : Instance}
    (h : (i.exports.map Prod.fst).Nodup) (name : String) :
    (deferredLinker shared i).resolve? primarySpace name
      = (i.exports.lookup name).or (shared.resolve? primarySpace name) := by
  refine (Linker.resolve?_foldl_define (fun _ => primarySpace) Prod.fst Prod.snd i.exports).trans ?_
  simp only [true_and, map_getLast?_filter_eq_lookup h]

theorem nodup_toInstance (h : (exports.map ExportDecl.name).Nodup) :
    ((p.toInstance exports).exports.map Prod.fst).Nodup := by
  refine h.sublist ?_
  induction exports with
  | nil => exact .slnil
  | cons e rest ih =>
    have hrest := ih (List.nodup_cons.mp h).2
    unfold Parts.toInstance at hrest ⊢
    cases he : p.entity? e with
    | none => simpa [he] using hrest.cons _
    | some x => simpa [he] using hrest

/-- What an instance exports under a name is the entity behind that export. -/
theorem lookup_toInstance (h : (exports.map ExportDecl.name).Nodup) {e : ExportDecl}
    (he : e ∈ exports) : (p.toInstance exports).exports.lookup e.name = p.entity? e := by
  induction exports with
  | nil => cases he
  | cons e' rest ih =>
    obtain ⟨hne, hrest⟩ := List.nodup_cons.mp h
    rcases List.mem_cons.mp he with rfl | he
    · have hlater : (p.toInstance rest).exports.lookup e.name = none := by
        refine List.lookup_eq_none_iff.mpr fun a ha => ?_
        obtain ⟨e', he', ha⟩ := List.mem_filterMap.mp ha
        obtain ⟨x, -, rfl⟩ := Option.map_eq_some_iff.mp ha
        refine bne_iff_ne.mpr fun heq => hne ?_
        rw [heq]
        exact List.mem_map_of_mem he'
      cases hx : p.entity? e with
      | none => simpa [Parts.toInstance, hx] using hlater
      | some x => simp [Parts.toInstance, hx]
    · have hother : e.name ≠ e'.name := fun heq => hne (heq ▸ List.mem_map_of_mem he)
      rw [← ih hrest he]
      cases hx : p.entity? e' with
      | none => simp [Parts.toInstance, hx]
      | some x => simp [Parts.toInstance, hx, List.lookup_cons, beq_false_of_ne hother]

end Names

/-! ### What is in the store -/

namespace Store

variable {s s' : Store} {p : Parts} {d d' : Description} {es es' : List Extern} {own own' : Own}
  {limit : ℕ}

/-- A store has as many instances as another one, and the same globals. -/
structure KeepsGlobals (s s' : Store) : Prop where
  instances : s'.instances = s.instances
  cells : s'.cells = s.cells

theorem KeepsGlobals.refl : KeepsGlobals s s := ⟨rfl, rfl⟩

theorem KeepsGlobals.trans {s'' : Store} (h : KeepsGlobals s s') (h' : KeepsGlobals s' s'') :
    KeepsGlobals s s'' := ⟨h'.instances.trans h.instances, h'.cells.trans h.cells⟩

theorem keepsGlobals_of_makeMemory {l : Limits} {id : ℕ} (h : makeMemory limit l s = .ok id s') :
    KeepsGlobals s s' := by
  change (if limit < l.minimum then _ else _ : StoreAct ℕ) s = _ at h
  split_ifs at h
  · cases h
  · cases h
    exact ⟨rfl, rfl⟩

theorem keepsGlobals_of_makeTable {number id : ℕ} {slots : List SlotDecl}
    (h : makeTable number slots s = .ok id s') : KeepsGlobals s s' := by
  cases h
  exact ⟨rfl, rfl⟩

theorem keepsGlobals_of_fillSlot {e : ElemDecl} (h : fillSlot p e s = .ok ⟨⟩ s') :
    KeepsGlobals s s' := by
  cases hid : p.firstTable? with
  | none =>
    simp only [fillSlot, hid] at h
    cases h
  | some id =>
    rw [fillSlot_eq hid] at h
    split_ifs at h
    cases h
    exact ⟨rfl, rfl⟩

theorem keepsGlobals_of_fillMemory {data : DataDecl} (h : fillMemory p data s = .ok ⟨⟩ s') :
    KeepsGlobals s s' := by
  cases hid : p.firstMemory? with
  | none =>
    simp only [fillMemory, hid] at h
    cases h
  | some id =>
    cases hw : ((s.memories[id]?).getD default).write data.address data.bytes with
    | error e =>
      rw [fillMemory_of_write_eq_error hid hw] at h
      cases h
    | ok memory =>
      rw [fillMemory_of_write_eq_ok hid hw] at h
      cases h
      exact ⟨rfl, rfl⟩

theorem keepsGlobals_of_optionMapM {α β : Type} {f : α → StoreAct β}
    (hf : ∀ {a b s s'}, f a s = .ok b s' → KeepsGlobals s s') {o : Option α} {r : Option β}
    (h : o.mapM f s = .ok r s') : KeepsGlobals s s' := by
  cases o with
  | none =>
    cases h
    exact .refl
  | some a =>
    obtain ⟨b, s₁, hb, h⟩ := exists_of_bind_ok h
    cases h
    exact hf hb

theorem keepsGlobals_of_optionForM {α : Type} {f : α → StoreAct PUnit}
    (hf : ∀ {a s s'}, f a s = .ok ⟨⟩ s' → KeepsGlobals s s') {o : Option α}
    (h : o.forM f s = .ok ⟨⟩ s') : KeepsGlobals s s' := by
  cases o with
  | none =>
    cases h
    exact .refl
  | some a => exact hf h

theorem number_of_countInstance {number : ℕ} (h : countInstance s = .ok number s') :
    number = s.instances + 1 ∧ s'.instances = number := by
  change (if instanceLimit < s.instances + 1 then _ else _ : StoreAct ℕ) s = _ at h
  split_ifs at h
  · cases h
  · cases h
    exact ⟨rfl, rfl⟩

/-- An instance is numbered after those that are there, and its own globals are in the store as
they are declared. -/
structure Made (d : Description) (s : Store) (own : Own) (s' : Store) : Prop where
  number : own.number = s.instances + 1
  instances : s'.instances = own.number
  globals : ∀ {k : ℕ} {g : GlobalDecl}, d.globals[k]? = some g →
    ∃ id, own.globals[k]? = some id ∧ s'.cells[id]? = some g.toCell

theorem made_of_stock (h : stock limit d es s = .ok own s') : Made d s own s' := by
  obtain ⟨own', s₁, hown, h⟩ := exists_of_bind_ok h
  obtain ⟨⟨⟩, s₂, helem, h⟩ := exists_of_bind_ok h
  obtain ⟨⟨⟩, s₃, hdata, h⟩ := exists_of_bind_ok h
  cases h
  have hfilled : KeepsGlobals s₁ s' :=
    (keepsGlobals_of_optionForM keepsGlobals_of_fillSlot helem).trans
      (keepsGlobals_of_optionForM keepsGlobals_of_fillMemory hdata)
  obtain ⟨number, s₂, hnumber, hown⟩ := exists_of_bind_ok hown
  obtain ⟨memory, s₃, hmemory, hown⟩ := exists_of_bind_ok hown
  obtain ⟨table, s₄, htable, hown⟩ := exists_of_bind_ok hown
  cases hown
  have hmade : KeepsGlobals s₂ s₄ :=
    (keepsGlobals_of_optionMapM keepsGlobals_of_makeMemory hmemory).trans
      (keepsGlobals_of_optionMapM keepsGlobals_of_makeTable htable)
  obtain ⟨hnumber, hcount⟩ := number_of_countInstance hnumber
  refine ⟨hnumber, hfilled.instances.trans (hmade.instances.trans hcount), fun {k g} hg => ?_⟩
  have hk : k < d.globals.length := (List.getElem?_eq_some_iff.mp hg).1
  refine ⟨s₄.cells.length + k, by simp [hk], ?_⟩
  rw [hfilled.cells]
  show (s₄.cells ++ d.globals.map GlobalDecl.toCell)[s₄.cells.length + k]? = _
  rw [List.getElem?_append_right (Nat.le_add_right _ _), Nat.add_sub_cancel_left, List.getElem?_map,
    hg, Option.map_some]

/-- The own functions of an instance are other functions than those of an instance that is made
later, whatever their names and types are. -/
theorem own_ne_of_made {t t' : Store} (h : Made d s own s') (h' : Made d' t own' t')
    (hlater : s'.instances ≤ t.instances) (place place' : Place) (type type' : FuncType) :
    Func.own own.number place type ≠ Func.own own'.number place' type' := by
  intro heq
  have hnumber : own.number = own'.number := (Func.own.inj heq).1
  have hcount := h.instances
  have hnumber' := h'.number
  omega

end Store

/-! ### Shared globals -/

theorem Engine.standard_misfit?_eq_none_iff_global (config : Config) (catalog : Catalog)
    (littleEndian : Bool) (declared : ImportType) (t : ValType) (isMutable : Bool) :
    (standard config catalog littleEndian).misfit? declared (.global t isMutable) = none ↔
      declared = .global t isMutable := by
  show declared.misfit? (.global t isMutable) = none ↔ _
  cases declared with
  | global t' m' =>
    simp only [ImportType.misfit?, ImportType.globalMisfit?, ImportType.global.injEq]
    split_ifs with ht hm
    · simp [ht]
    · simp [hm]
    · exact iff_of_true rfl ⟨not_not.mp ht, not_not.mp hm⟩
  | func _ => simp [ImportType.misfit?]
  | memory _ => simp [ImportType.misfit?]
  | table _ => simp [ImportType.misfit?]

theorem GlobalInit.type_toVal (g : GlobalInit) : g.toVal.type = g.type := by
  cases g with
  | _ => rfl

section Shared

variable {m : Machine γ} {l : Linker} {d : Description} {i : Instance} {w w' : World γ}

/-- A module without a start function changes the store only as its engine makes the instance. -/
theorem exists_stock_of_makeInstance (hstart : d.start = none)
    (h : makeInstance m l d w = .ok i w') :
    ∃ es own st, w.session.engine.stock d es w.session.store = .ok own st ∧
      i = (⟨es, own⟩ : Parts).toInstance d.exports ∧ w'.session = w.session.withStore st := by
  cases hc : l.check w.session d.imports with
  | error cause =>
    rw [makeInstance_of_check_error hc] at h
    cases h
  | ok es =>
    rw [makeInstance_of_check_ok hc] at h
    obtain ⟨s, w₁, hs, h⟩ := exists_of_bind_ok h
    cases hs
    obtain ⟨own, w₂, hown, h⟩ := exists_of_bind_ok h
    obtain ⟨⟨⟩, w₃, hrun, h⟩ := exists_of_bind_ok h
    rw [hstart] at hrun
    cases hrun
    cases h
    cases hstock : w.session.engine.stock d es w.session.store with
    | error cause st =>
      rw [onStore_of_error hstock] at hown
      cases hown
    | ok own' st =>
      rw [onStore_of_ok hstock] at hown
      cases hown
      exact ⟨es, own, st, hstock, rfl, rfl⟩

/-- A single import is let through if what it stands for is of the type that it declares. -/
theorem exists_check_singleton_iff {s : Session} {j : Import} {x : Extern}
    (h : l.resolveImport j = .ok x) :
    (∃ es, l.check s [j] = .ok es) ↔ s.engine.misfit? j.type (s.store.typeOf x) = none := by
  have hall : l.resolveAll [j] = .ok [x] := by
    rw [Linker.resolveAll, List.mapM_cons, h]
    rfl
  rw [Linker.check, hall]
  cases hx : s.engine.misfit? j.type (s.store.typeOf x) with
  | none =>
    have htypes : checkTypes s [(j, x)] = .ok ⟨⟩ := forM_eq_ok_iff.mpr (by simp [hx])
    refine iff_of_true ⟨[x], ?_⟩ rfl
    show (checkTypes s [(j, x)] >>= fun _ => pure [x]) = _
    rw [htypes]
    rfl
  | some cause =>
    refine iff_of_false ?_ (Option.some_ne_none cause)
    rintro ⟨es, hes⟩
    obtain ⟨xs, hxs, hes⟩ := exists_of_bind_eq_ok hes
    cases hxs
    obtain ⟨⟨⟩, htypes, -⟩ := exists_of_bind_eq_ok hes
    have hfits := forM_eq_ok_iff.mp htypes (j, x) List.mem_cons_self
    simp [hx] at hfits

/-- Under the standard engine, a deferred module can import an exported global of the primary module
exactly if it declares the type and the mutability that the primary module declares. -/
theorem exported_globals_are_shared {supplied : List Supplied} {config : Config}
    {catalog : Catalog} {littleEndian : Bool}
    (hengine : w.session.engine = .standard config catalog littleEndian)
    (hnames : d.exportNames.Nodup) (hstart : d.start = none)
    (h : linkPrimary m d supplied w = .ok ⟨⟩ w') {name : String} {index : ℕ} {decl : GlobalDecl}
    (he : ⟨name, .global index⟩ ∈ d.exports) (hdecl : d.globals[index]? = some decl) :
    ∃ l, w'.session.deferred.linker = some l ∧ ∀ t,
      (∃ es, l.check w'.session [⟨primarySpace, name, t⟩] = .ok es) ↔
        t = .global decl.init.type decl.isMutable := by
  obtain ⟨s, w₁, hs, h⟩ := exists_of_bind_ok h
  cases hs
  obtain ⟨i, w₂, hi, h⟩ := exists_of_bind_ok h
  obtain ⟨es, own, st, hstock, rfl, hw⟩ := exists_stock_of_makeInstance hstart hi
  rw [hengine] at hstock
  obtain ⟨id, hid, hcell⟩ := (Store.made_of_stock hstock).globals hdecl
  have hstore : w'.session.store = st ∧ w'.session.engine = w.session.engine := by
    cases h
    show w₂.session.store = st ∧ w₂.session.engine = w.session.engine
    rw [hw]
    exact ⟨rfl, rfl⟩
  refine ⟨deferredLinker (sharedLinker w.session.binding supplied)
    ((⟨es, own⟩ : Parts).toInstance d.exports), by cases h; rfl, fun t => ?_⟩
  have hexport : (⟨es, own⟩ : Parts).entity? ⟨name, .global index⟩ = some (.global id) := by
    simp [Parts.entity?, hid]
  have hresolve : (deferredLinker (sharedLinker w.session.binding supplied)
      ((⟨es, own⟩ : Parts).toInstance d.exports)).resolve? primarySpace name
        = some (.global id) := by
    rw [resolve?_deferredLinker _ (nodup_toInstance hnames), lookup_toInstance hnames he, hexport]
    rfl
  have htype : w'.session.store.typeOf (.global id) = .global decl.init.type decl.isMutable := by
    rw [hstore.1]
    simp only [Store.typeOf, hcell, Option.getD_some, GlobalDecl.toCell, GlobalInit.type_toVal]
  rw [exists_check_singleton_iff (by rw [Linker.resolveImport, hresolve]), htype, hstore.2, hengine]
  exact Engine.standard_misfit?_eq_none_iff_global ..

end Shared

/-- A module that counts in a global, and lets others count in it. -/
def countingCalls : Description :=
  { Description.empty with
    exports := [⟨"fast_calls", .global 0⟩]
    globals := [⟨.i32 0, true⟩] }

/-- A deferred module may count on, if it knows that the global can change. -/
example :
    let w := final (linkPrimary idleMachine countingCalls []) freshWorld
    ∃ l, w.session.deferred.linker = some l ∧
      l.check w.session [⟨primarySpace, "fast_calls", .global .i32 true⟩] = .ok [.global 0] ∧
      (l.check w.session [⟨primarySpace, "fast_calls", .global .i32⟩]).isOk = false :=
  ⟨_, rfl, rfl, rfl⟩

end ModuleHost
