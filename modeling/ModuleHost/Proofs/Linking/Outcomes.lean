/-
Every way in which opening a module ends.

Declarations of host functions are checked first, so one that is refused is reported even if some
earlier import can never be linked.  After that the only error is that of linking, and there are
three causes of it: an import that is not met, parts that do not fit, and a start function that
fails.
What the host does not catch while the start function runs is no result at all.

* `prepare`, `prepare_cases` — linking up to the start function;
* `StartEnds` — how the start function ends;
* `linkPrimary_cases` — the module of a session is linked or not as the start function ends;
* `openModule_outcomes` — the main theorem;
* `segment_beyond_memory` — a module that is not opened although its imports are met, its memory is
  not too large and it has no start function.
-/
import Mathlib
import ModuleHost.Proofs.Linking.Declarations
import ModuleHost.Proofs.Linking.Stocking

namespace ModuleHost

open Act

variable {γ : Type} {m : Machine γ} {l : Linker} {d : Description} {w w' : World γ} {p : Parts}
  {supplied : List Supplied}

/-! ### Up to the start function -/

/-- Link a module up to its start function. -/
def prepare (l : Linker) (d : Description) : Act γ Parts := do
  let imports ← accept (l.check (← session) d.imports)
  let own ← onStore ((← session).engine.stock d imports)
  return ⟨imports, own⟩

theorem makeInstance_eq_prepare (w : World γ) :
    makeInstance m l d w = (prepare l d >>= fun p => do
      d.start.forM (startInstance m p)
      return p.toInstance d.exports) w := by
  rw [makeInstance_eq, prepare, show instantiate m d = _ from funext fun imports => rfl]
  simp only [bind_assoc, pure_bind]
  rfl

/-- A module gets to its start function exactly if its imports are met and its parts fit. -/
theorem prepare_cases (he : w.session.engine.Conforms) (hl : l.OfFunctions)
    (hroom : w.session.instances < instanceLimit) :
    (((∀ i ∈ d.imports, i.Met l) ∧ d.Fits w.session.engine.config.maxMemoryPages) ∧
      ∃ p w', prepare l d w = .ok p w') ∨
    (¬ ((∀ i ∈ d.imports, i.Met l) ∧ d.Fits w.session.engine.config.maxMemoryPages)) ∧
      ∃ e w', prepare l d w = .error e w' ∧ e.isError = true := by
  have hprepare : prepare l d w = (accept (l.check w.session d.imports) >>= fun imports => do
      let own ← onStore ((← session).engine.stock d imports)
      return (⟨imports, own⟩ : Parts)) w := bind_session _ w
  rw [hprepare]
  cases hc : l.check w.session d.imports with
  | error cause =>
    refine .inr ⟨fun h => ?_, .failed cause, w, rfl, rfl⟩
    obtain ⟨es, hes⟩ := (exists_check_iff he.functions hl).mpr h.1
    cases hc.symm.trans hes
  | ok es =>
    have hmet := (exists_check_iff he.functions hl).mp ⟨es, hc⟩
    have hfits := he.stock d es w.session.store (functions_of_check hl hc) hroom
    cases hstock : w.session.engine.stock d es w.session.store with
    | ok own st =>
      refine .inl ⟨⟨hmet, hfits.mp ⟨own, st, hstock⟩⟩, ⟨es, own⟩,
        ⟨w.session.withStore st, w.guest⟩, ?_⟩
      exact bind_of_ok (onStore_of_ok hstock) _
    | error cause st =>
      refine .inr ⟨fun h => ?_, .failed cause, ⟨w.session.withStore st, w.guest⟩,
        bind_of_error (onStore_of_error hstock) _, rfl⟩
      obtain ⟨own, st', hok⟩ := hfits.mpr h.2
      cases hstock.symm.trans hok

/-! ### The start function -/

/-- The start function of a module that has got to it ends in this way; without one it has
returned at once. -/
def StartEnds (m : Machine γ) (l : Linker) (d : Description) (w : World γ)
    (r : EStateM.Result Fault (World γ) PUnit) : Prop :=
  ∃ p w₁, prepare l d w = .ok p w₁ ∧ d.start.forM (runStart m p) w₁ = r

theorem StartEnds.unique {r r' : EStateM.Result Fault (World γ) PUnit}
    (h : StartEnds m l d w r) (h' : StartEnds m l d w r') : r = r' := by
  obtain ⟨p, w₁, hp, hr⟩ := h
  obtain ⟨p', w₁', hp', hr'⟩ := h'
  cases hp.symm.trans hp'
  exact hr.symm.trans hr'

theorem startInstance_of_ok {s : StartDecl} (h : runStart m p s w = .ok ⟨⟩ w') :
    startInstance m p s w = .ok ⟨⟩ w' := bind_of_ok (attempt_of_ok h) _

/-- The failure of a start function is reported as one, unless the host does not catch it. -/
theorem startInstance_of_error {s : StartDecl} {f : Fault} (h : runStart m p s w = .error f w') :
    ∃ f', startInstance m p s w = .error f' w' ∧ f'.isError = f.isError ∧
      (f.isError = false → f' = f) := by
  cases he : f.isError with
  | true => exact ⟨startFailure f, bind_of_ok (attempt_of_error h he) _, rfl, nofun⟩
  | false => exact ⟨f, bind_of_error (attempt_of_uncaught h he) _, he, fun _ => rfl⟩

/-! ### Linking -/

/-- Linking ends before the start function, or as that does. -/
theorem linkPrimary_cases (hl : primaryLinker (sharedLinker w.session.binding supplied) = l) :
    (∃ e w', prepare l d w = .error e w' ∧ linkPrimary m d supplied w = .error e w') ∨
    (∃ w₁ w', StartEnds m l d w (.ok ⟨⟩ w₁) ∧ linkPrimary m d supplied w = .ok ⟨⟩ w') ∨
    ∃ f f' w', StartEnds m l d w (.error f w') ∧ linkPrimary m d supplied w = .error f' w' ∧
      f'.isError = f.isError ∧ (f.isError = false → f' = f) := by
  have hlink : linkPrimary m d supplied w = (makeInstance m l d >>= fun i => modifySession fun s =>
      { s with
        primary := some i
        memory := i.memory? "memory"
        deferred := { s.deferred with
          linker := some (deferredLinker (sharedLinker w.session.binding supplied) i) } }) w := by
    rw [← hl]
    rfl
  rw [hlink]
  -- keeping the instance cannot fail, so all depends on how it is made
  cases hprepare : prepare l d w with
  | error e w₁ =>
    refine .inl ⟨e, w₁, rfl, bind_of_error ?_ _⟩
    rw [makeInstance_eq_prepare, bind_of_error hprepare]
  | ok p w₁ =>
    refine .inr ?_
    have hmake : makeInstance m l d w = (d.start.forM (startInstance m p) >>= fun _ =>
        pure (p.toInstance d.exports)) w₁ := by
      rw [makeInstance_eq_prepare, bind_of_ok hprepare]
    cases hstart : d.start with
    | none =>
      rw [hstart] at hmake
      exact .inl ⟨w₁, _, ⟨p, w₁, hprepare, by rw [hstart]; rfl⟩, bind_of_ok hmake _⟩
    | some s =>
      have hrun : d.start.forM (runStart m p) w₁ = runStart m p s w₁ := by
        rw [hstart]
        rfl
      rw [hstart] at hmake
      cases hr : runStart m p s w₁ with
      | ok _ w₂ =>
        rw [show (some s).forM (startInstance m p) = startInstance m p s from rfl,
          bind_of_ok (startInstance_of_ok hr)] at hmake
        exact .inl ⟨w₂, _, ⟨p, w₁, hprepare, hrun.trans hr⟩, bind_of_ok hmake _⟩
      | error f w₂ =>
        obtain ⟨f', hf', hkind, hsame⟩ := startInstance_of_error hr
        rw [show (some s).forM (startInstance m p) = startInstance m p s from rfl,
          bind_of_error hf'] at hmake
        have hends : StartEnds m l d w (.error f w₂) := ⟨p, w₁, hprepare, hrun.trans hr⟩
        exact .inr ⟨f, f', w₂, hends, bind_of_error hmake _, hkind, hsame⟩

/-! ### Opening -/

theorem openModule_of_offends {before after : List Import} {i : Import} {error : LinkError}
    (hsplit : d.imports = before ++ i :: after)
    (hbefore : ∀ j ∈ before, ∀ error, ¬ j.Offends supplied error) (hi : i.Offends supplied error) :
    openModule m d supplied w = .ok (.error error) w := by
  have hcheck := checkDeclarations_eq_error_iff.mpr ⟨before, i, after, hsplit, hbefore, hi⟩
  rw [openModule, hcheck]
  rfl

theorem openModule_of_link_ok (hnone : ∀ i ∈ d.imports, ∀ error, ¬ i.Offends supplied error)
    (h : linkPrimary m d supplied w = .ok ⟨⟩ w') : openModule m d supplied w = .ok (.ok ⟨⟩) w' := by
  rw [openModule, checkDeclarations_eq_ok_iff.mpr hnone]
  exact bind_of_ok (attempt_of_ok h) _

theorem openModule_of_link_error (hnone : ∀ i ∈ d.imports, ∀ error, ¬ i.Offends supplied error)
    {f : Fault} (h : linkPrimary m d supplied w = .error f w') :
    openModule m d supplied w
      = if f.isError = true then .ok (.error (.unresolved f.report)) w' else .error f w' := by
  rw [openModule, checkDeclarations_eq_ok_iff.mpr hnone]
  cases he : f.isError with
  | true => exact bind_of_ok (attempt_of_error h he) _
  | false => exact bind_of_error (attempt_of_uncaught h he) _

section Accepted

/- None of the declarations of a module is refused, and there is room for an instance in an engine
that links as it should. -/
variable (he : w.session.engine.Conforms)
  (hl : primaryLinker (sharedLinker w.session.binding supplied) = l)
  (hroom : w.session.instances < instanceLimit)
  (hnone : ∀ i ∈ d.imports, ∀ error, ¬ i.Offends supplied error)

include he hl hroom hnone

/-- Opening a module none of whose declarations is refused ends before its start function, or as
that does. -/
theorem openModule_cases :
    ((¬ ((∀ i ∈ d.imports, i.Met l) ∧ d.Fits w.session.engine.config.maxMemoryPages)) ∧
      (∀ r, ¬ StartEnds m l d w r) ∧
      ∃ cause w', openModule m d supplied w = .ok (.error (.unresolved cause)) w') ∨
    ((∀ i ∈ d.imports, i.Met l) ∧ d.Fits w.session.engine.config.maxMemoryPages) ∧
      ((∃ w₁ w', StartEnds m l d w (.ok ⟨⟩ w₁) ∧ openModule m d supplied w = .ok (.ok ⟨⟩) w') ∨
      (∃ f cause w', f.isError = true ∧ StartEnds m l d w (.error f w') ∧
        openModule m d supplied w = .ok (.error (.unresolved cause)) w') ∨
      ∃ f w', f.isError = false ∧ StartEnds m l d w (.error f w') ∧
        openModule m d supplied w = .error f w') := by
  have hfuncs : l.OfFunctions := hl ▸ ofFunctions_primaryLinker _ _
  obtain ⟨hready, p, w₁, hprepare⟩ | ⟨hready, e, w₁, hprepare, he⟩ := prepare_cases he hfuncs hroom
  · refine .inr ⟨hready, ?_⟩
    obtain ⟨e, w', herror, -⟩ | ⟨w₁, w', hends, hlink⟩ | ⟨f, f', w', hends, hlink, hkind, hsame⟩ :=
      linkPrimary_cases (m := m) hl
    · cases hprepare.symm.trans herror
    · exact .inl ⟨w₁, w', hends, openModule_of_link_ok hnone hlink⟩
    · have hopen := openModule_of_link_error hnone hlink
      cases hf : f.isError with
      | true =>
        rw [if_pos (hkind.trans hf)] at hopen
        exact .inr (.inl ⟨f, _, w', hf, hends, hopen⟩)
      | false =>
        rw [hsame hf, if_neg (by simp [hf])] at hopen
        exact .inr (.inr ⟨f, w', hf, hends, hopen⟩)
  · -- the start function is not reached
    have hnever : ∀ r, ¬ StartEnds m l d w r := by
      rintro r ⟨p, w₂, hp, -⟩
      cases hprepare.symm.trans hp
    refine .inl ⟨hready, hnever, ?_⟩
    obtain ⟨e', w', herror, hlink⟩ | ⟨_, _, hends, -⟩ | ⟨_, _, _, hends, -⟩ :=
      linkPrimary_cases (m := m) hl
    · cases hprepare.symm.trans herror
      have hopen := openModule_of_link_error hnone hlink
      rw [if_pos he] at hopen
      exact ⟨_, _, hopen⟩
    · exact absurd hends (hnever _)
    · exact absurd hends (hnever _)

/-- A module none of whose declarations is refused is not opened exactly if an import is not met,
its parts do not fit or its start function fails. -/
theorem openModule_unresolved_iff :
    (∃ cause w', openModule m d supplied w = .ok (.error (.unresolved cause)) w') ↔
      (∃ i ∈ d.imports, ¬ i.Met l) ∨ ¬ d.Fits w.session.engine.config.maxMemoryPages ∨
        ∃ f w', f.isError = true ∧ StartEnds m l d w (.error f w') := by
  have hunready : ((∃ i ∈ d.imports, ¬ i.Met l) ∨ ¬ d.Fits w.session.engine.config.maxMemoryPages)
      ↔ ¬ ((∀ i ∈ d.imports, i.Met l) ∧ d.Fits w.session.engine.config.maxMemoryPages) := by
    rw [not_and_or]
    simp only [not_forall, exists_prop]
  rw [← or_assoc, hunready]
  obtain ⟨hready, -, hopen⟩ | ⟨hready, ⟨w₁, w', hends, hopen⟩ |
    ⟨f, cause, w', hf, hends, hopen⟩ | ⟨f, w', hf, hends, hopen⟩⟩ :=
    openModule_cases (m := m) he hl hroom hnone
  · exact iff_of_true hopen (.inl hready)
  · refine iff_of_false ?_ ?_
    · rintro ⟨cause, w₂, h⟩
      cases hopen.symm.trans h
    · rintro (hunready | ⟨f, w₂, -, hfails⟩)
      · exact hunready hready
      · cases hends.unique hfails
  · exact iff_of_true ⟨cause, w', hopen⟩ (.inr ⟨f, w', hf, hends⟩)
  · refine iff_of_false ?_ ?_
    · rintro ⟨cause, w₂, h⟩
      cases hopen.symm.trans h
    · rintro (hunready | ⟨f', w₂, hf', hfails⟩)
      · exact hunready hready
      · cases hends.unique hfails
        cases hf.symm.trans hf'

/-- It is opened exactly if its imports are met, its parts fit and its start function returns. -/
theorem openModule_ok_iff :
    (∃ w', openModule m d supplied w = .ok (.ok ⟨⟩) w') ↔
      (∀ i ∈ d.imports, i.Met l) ∧ d.Fits w.session.engine.config.maxMemoryPages ∧
        ∃ w', StartEnds m l d w (.ok ⟨⟩ w') := by
  rw [← and_assoc]
  obtain ⟨hready, -, cause, w', hopen⟩ | ⟨hready, ⟨w₁, w', hends, hopen⟩ |
    ⟨f, cause, w', hf, hends, hopen⟩ | ⟨f, w', hf, hends, hopen⟩⟩ :=
    openModule_cases (m := m) he hl hroom hnone
  · refine iff_of_false ?_ fun h => hready h.1
    rintro ⟨w₂, h⟩
    cases hopen.symm.trans h
  · exact iff_of_true ⟨w', hopen⟩ ⟨hready, w₁, hends⟩
  · refine iff_of_false ?_ ?_
    · rintro ⟨w₂, h⟩
      cases hopen.symm.trans h
    · rintro ⟨-, w₂, hreturns⟩
      cases hends.unique hreturns
  · refine iff_of_false ?_ ?_
    · rintro ⟨w₂, h⟩
      cases hopen.symm.trans h
    · rintro ⟨-, w₂, hreturns⟩
      cases hends.unique hreturns

/-- There is no other error than that of linking, and no result only if the start function ends with
what the host does not catch. -/
theorem openModule_only :
    (∀ error w', openModule m d supplied w = .ok (.error error) w' →
      ∃ cause, error = .unresolved cause) ∧
    ∀ f w', openModule m d supplied w = .error f w' →
      f.isError = false ∧ StartEnds m l d w (.error f w') := by
  obtain ⟨-, -, cause, w₁, hopen⟩ | ⟨-, ⟨_, w₁, -, hopen⟩ | ⟨f, cause, w₁, -, -, hopen⟩ |
    ⟨f, w₁, hf, hends, hopen⟩⟩ := openModule_cases (m := m) he hl hroom hnone
  · refine ⟨fun error w' h => ?_, fun f w' h => (nomatch hopen.symm.trans h)⟩
    cases hopen.symm.trans h
    exact ⟨cause, rfl⟩
  · exact ⟨fun error w' h => (nomatch hopen.symm.trans h),
      fun f w' h => (nomatch hopen.symm.trans h)⟩
  · refine ⟨fun error w' h => ?_, fun f w' h => (nomatch hopen.symm.trans h)⟩
    cases hopen.symm.trans h
    exact ⟨cause, rfl⟩
  · refine ⟨fun error w' h => (nomatch hopen.symm.trans h), fun f' w' h => ?_⟩
    cases hopen.symm.trans h
    exact ⟨hf, hends⟩

end Accepted

/-- What becomes of a module, in a new session of an engine that links as it should.  The first
declaration of a host function that is refused is reported, whatever the imports before it are.  If
none is refused, the module is not opened exactly if an import is not met by the table, its memory
is too large or a segment reaches beyond its table or memory, or its start function fails; and then
the error is that of linking.  Otherwise it is opened, unless the start function ends with what the
host does not catch. -/
theorem openModule_outcomes {γ : Type} (m : Machine γ) (e : Engine) (he : e.Conforms)
    (c : Capabilities) (loader : Option Loader) (g : γ) (d : Description)
    (supplied : List Supplied) :
    let l := primaryLinker (sharedLinker (bindingOf c e.config) supplied)
    let w : World γ := ⟨.new e c loader, g⟩
    (∀ before i after error, d.imports = before ++ i :: after →
      (∀ j ∈ before, ∀ error, ¬ j.Offends supplied error) → i.Offends supplied error →
      openModule m d supplied w = .ok (.error error) w) ∧
    ((∀ i ∈ d.imports, ∀ error, ¬ i.Offends supplied error) →
      ((∃ cause w', openModule m d supplied w = .ok (.error (.unresolved cause)) w') ↔
        (∃ i ∈ d.imports, ¬ i.Met l) ∨ ¬ d.Fits e.config.maxMemoryPages ∨
          ∃ f w', f.isError = true ∧ StartEnds m l d w (.error f w')) ∧
      ((∃ w', openModule m d supplied w = .ok (.ok ⟨⟩) w') ↔
        (∀ i ∈ d.imports, i.Met l) ∧ d.Fits e.config.maxMemoryPages ∧
          ∃ w', StartEnds m l d w (.ok ⟨⟩ w')) ∧
      (∀ error w', openModule m d supplied w = .ok (.error error) w' →
        ∃ cause, error = .unresolved cause) ∧
      ∀ f w', openModule m d supplied w = .error f w' →
        f.isError = false ∧ StartEnds m l d w (.error f w')) := by
  intro l w
  have hroom : w.session.instances < instanceLimit := Nat.zero_lt_succ _
  exact ⟨fun before i after error => openModule_of_offends,
    fun hnone => ⟨openModule_unresolved_iff he rfl hroom hnone,
      openModule_ok_iff he rfl hroom hnone, openModule_only he rfl hroom hnone⟩⟩

/-- A module whose declarations are refused after an import that nothing defines. -/
def clashing : Description :=
  { Description.empty with
    imports := [⟨"env", "missing", .func ⟨[], []⟩⟩, ⟨HostFunc.space, "custom", .func ⟨[], []⟩⟩,
      ⟨HostFunc.space, "print", .func ⟨[], []⟩⟩, ⟨HostFunc.space, "frobnicate", .func ⟨[], []⟩⟩] }

/-- A function that is supplied under the name of none of the host. -/
def custom : List Supplied := [⟨HostFunc.space, "custom", .supplied "custom" ⟨[], []⟩⟩]

/-- The first declaration that is refused is reported, and a module that declares nothing is
opened. -/
theorem openModule_outcomes_clashing :
    freshWorld.session.engine.Conforms ∧
    openModule idleMachine clashing custom freshWorld
      = .ok (.error (.arityMismatch "print" 1 0)) freshWorld ∧
    ∃ w', openModule idleMachine .empty [] freshWorld = .ok (.ok ⟨⟩) w' := by
  have hconforms : freshWorld.session.engine.Conforms := Engine.standard_conforms _ _ _
  obtain ⟨hclashing, -⟩ := openModule_outcomes idleMachine freshWorld.session.engine hconforms
    ⟨true⟩ none () clashing custom
  obtain ⟨-, hempty⟩ := openModule_outcomes idleMachine freshWorld.session.engine hconforms
    ⟨true⟩ none () .empty []
  refine ⟨hconforms, hclashing
    [⟨"env", "missing", .func ⟨[], []⟩⟩, ⟨HostFunc.space, "custom", .func ⟨[], []⟩⟩]
    ⟨HostFunc.space, "print", .func ⟨[], []⟩⟩
    [⟨HostFunc.space, "frobnicate", .func ⟨[], []⟩⟩] _ rfl ?_ ?_, ?_⟩
  · intro i hi
    refine checkDeclaration_eq_ok_iff.mp ?_
    fin_cases hi <;> decide
  · exact checkDeclaration_eq_error_iff.mp (by decide)
  · obtain ⟨-, hopened, -⟩ := hempty fun i hi => absurd hi List.not_mem_nil
    exact hopened.mpr ⟨fun i hi => absurd hi List.not_mem_nil, ⟨nofun, nofun, nofun⟩,
      _, _, _, rfl, rfl⟩

/-- A module whose data segment begins at the end of its memory. -/
def overreaching : Description :=
  { Description.empty with
    memory := some ⟨1, none⟩
    data := some ⟨65536, [0]⟩ }

/-- The imports are met, the memory is not too large and there is no start function, but the module
is not opened. -/
theorem segment_beyond_memory :
    ¬ ∀ (m : Machine Unit) (e : Engine) (c : Capabilities) (loader : Option Loader)
      (d : Description) (supplied : List Supplied), e.Conforms →
      (∀ i ∈ d.imports, ∀ error, ¬ i.Offends supplied error) →
      (∀ i ∈ d.imports, i.Met (primaryLinker (sharedLinker (bindingOf c e.config) supplied))) →
      (∀ limits, d.memory = some limits → limits.minimum ≤ e.config.maxMemoryPages) →
      d.start = none →
      ∃ w', openModule m d supplied ⟨.new e c loader, ()⟩ = .ok (.ok ⟨⟩) w' := by
  intro h
  obtain ⟨w', hopened⟩ := h idleMachine (.standard .default ⟨[]⟩ true) ⟨true⟩ none overreaching []
    (Engine.standard_conforms _ _ _) (fun i hi => absurd hi List.not_mem_nil)
    (fun i hi => absurd hi List.not_mem_nil) (by decide) rfl
  obtain ⟨cause, w'', hrefused⟩ : ∃ cause w'', openModule idleMachine overreaching []
      ⟨.new (.standard .default ⟨[]⟩ true) ⟨true⟩ none, ()⟩
        = .ok (.error (.unresolved cause)) w'' := ⟨_, _, rfl⟩
  cases hopened.symm.trans hrefused

end ModuleHost
