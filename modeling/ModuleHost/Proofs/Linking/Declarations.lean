/-
Which imports are refused, and which are met.

The declarations of host functions are checked before anything is linked: the first one that names
no function of the host, or that is not of a function, or has another number of parameters, is
reported; a name that is supplied is not checked.  Linking then compares every import with the
table.

* `Import.Offends`, `checkDeclaration_eq_error_iff` — why a declaration is refused;
* `checkDeclarations_eq_error_iff` — the first one that is refused is reported;
* `Import.Met`, `exists_check_iff` — linking goes on exactly if all imports are met.
-/
import Mathlib
import ModuleHost.Proofs.Linking.TextImports

namespace ModuleHost

open Act

/-! ### Declarations of host functions -/

/-- The first element that is refused. -/
theorem forM_eq_error_iff {ε α : Type} {f : α → Except ε PUnit} {as : List α} {e : ε} :
    as.forM f = .error e ↔ ∃ before a after, as = before ++ a :: after ∧
      (∀ b ∈ before, f b = .ok ⟨⟩) ∧ f a = .error e := by
  induction as with
  | nil => simp [pure, Except.pure]
  | cons a rest ih =>
    have hstep : (a :: rest).forM f = (f a >>= fun _ => rest.forM f) := rfl
    rw [hstep]
    cases hf : f a with
    | error e' =>
      constructor
      · rintro ⟨⟩
        exact ⟨[], a, rest, rfl, by simp, hf⟩
      · rintro ⟨before, b, after, hsplit, hok, hb⟩
        cases before with
        | nil =>
          cases hsplit
          cases hf.symm.trans hb
          rfl
        | cons c before =>
          cases hsplit
          cases hf.symm.trans (hok a List.mem_cons_self)
    | ok _ =>
      show rest.forM f = .error e ↔ _
      rw [ih]
      constructor
      · rintro ⟨before, b, after, rfl, hok, hb⟩
        exact ⟨a :: before, b, after, rfl, List.forall_mem_cons.mpr ⟨hf, hok⟩, hb⟩
      · rintro ⟨before, b, after, hsplit, hok, hb⟩
        cases before with
        | nil =>
          cases hsplit
          cases hf.symm.trans hb
        | cons c before =>
          cases hsplit
          exact ⟨before, b, after, rfl, (List.forall_mem_cons.mp hok).2, hb⟩

namespace Import

/-- An import of a host function whose name is not supplied. -/
structure IsDeclaration (supplied : List Supplied) (i : Import) : Prop where
  space : i.space = HostFunc.space
  free : ∀ s ∈ supplied, ¬ (s.space = i.space ∧ s.name = i.name)

/-- Why a declaration of a host function is refused. -/
inductive Offends (supplied : List Supplied) (i : Import) : LinkError → Prop
  | unknown (declared : i.IsDeclaration supplied) (missing : HostFunc.ofName? i.name = none) :
      Offends supplied i (.unknownHostImport i.name)
  | notAFunction {f : HostFunc} (declared : i.IsDeclaration supplied)
      (known : HostFunc.ofName? i.name = some f) (kind : ∀ t, i.type ≠ .func t) :
      Offends supplied i (.notAFunction i.name)
  | arity {f : HostFunc} {t : FuncType} (declared : i.IsDeclaration supplied)
      (known : HostFunc.ofName? i.name = some f) (type : i.type = .func t)
      (other : t.params.length ≠ f.arity) :
      Offends supplied i (.arityMismatch i.name f.arity t.params.length)

variable {supplied : List Supplied} {i : Import} {error : LinkError}

theorem isDeclaration_iff : i.IsDeclaration supplied ↔ i.space = HostFunc.space ∧
    ¬ (supplied.any fun s => s.space = i.space && s.name = i.name) = true := by
  simp only [List.any_eq_true, Bool.and_eq_true, decide_eq_true_eq, not_exists]
  exact ⟨fun h => ⟨h.space, fun s hs => h.free s hs.1 hs.2⟩,
    fun h => ⟨h.1, fun s hs hname => h.2 s ⟨hs, hname⟩⟩⟩

end Import

theorem checkDeclaration_eq_error_iff {supplied : List Supplied} {i : Import} {error : LinkError} :
    checkDeclaration supplied i = .error error ↔ i.Offends supplied error := by
  unfold checkDeclaration
  by_cases hd : i.IsDeclaration supplied
  · obtain ⟨hspace, hfree⟩ := Import.isDeclaration_iff.mp hd
    rw [if_neg (not_not.mpr hspace), if_neg hfree]
    constructor
    · intro h
      split at h
      · rename_i hmissing
        cases h
        exact .unknown hd hmissing
      · rename_i f t hknown htype
        split at h
        · cases h
        · rename_i hother
          cases h
          exact .arity hd hknown htype hother
      · rename_i f hkind hknown
        cases h
        exact .notAFunction hd hkind hknown
    · -- each reason to be refused leads to one branch of the check
      intro h
      cases h with
      | unknown _ hmissing => simp [hmissing]
      | @notAFunction f _ hknown hkind =>
        cases htype : i.type with
        | func t => exact absurd htype (hkind t)
        | _ => simp [hknown]
      | arity _ hknown htype hother => simp [hknown, htype, hother]
  · have hnone : ¬ i.Offends supplied error := fun h => by
      cases h with
      | unknown declared _ => exact hd declared
      | notAFunction declared _ _ => exact hd declared
      | arity declared _ _ _ => exact hd declared
    rw [Import.isDeclaration_iff, not_and, not_not] at hd
    refine iff_of_false (fun h => ?_) hnone
    split at h
    · cases h
    · rename_i hspace
      rw [if_pos (hd (not_not.mp hspace))] at h
      cases h

theorem checkDeclaration_eq_ok_iff {supplied : List Supplied} {i : Import} :
    checkDeclaration supplied i = .ok ⟨⟩ ↔ ∀ error, ¬ i.Offends supplied error := by
  simp only [← checkDeclaration_eq_error_iff]
  cases checkDeclaration supplied i with
  | ok _ => simp
  | error error => simp

/-- The first declaration that is refused is reported. -/
theorem checkDeclarations_eq_error_iff {supplied : List Supplied} {imports : List Import}
    {error : LinkError} :
    checkDeclarations supplied imports = .error error ↔
      ∃ before i after, imports = before ++ i :: after ∧
        (∀ j ∈ before, ∀ error, ¬ j.Offends supplied error) ∧ i.Offends supplied error := by
  simp only [checkDeclarations, forM_eq_error_iff, checkDeclaration_eq_ok_iff,
    checkDeclaration_eq_error_iff]

theorem checkDeclarations_eq_ok_iff {supplied : List Supplied} {imports : List Import} :
    checkDeclarations supplied imports = .ok ⟨⟩ ↔
      ∀ i ∈ imports, ∀ error, ¬ i.Offends supplied error := by
  simp only [checkDeclarations, forM_eq_ok_iff, checkDeclaration_eq_ok_iff]

/-! ### Imports -/

/-- The table has a function of the declared type for an import. -/
def Import.Met (l : Linker) (i : Import) : Prop :=
  ∃ f, l.resolve? i.space i.name = some (.func f) ∧ i.type = .func f.type

/-- A table in which names stand for functions only. -/
def Linker.OfFunctions (l : Linker) : Prop :=
  ∀ space name x, l.resolve? space name = some x → ∃ f, x = .func f

theorem ofFunctions_primaryLinker (b : TextBinding) (supplied : List Supplied) :
    (primaryLinker (sharedLinker b supplied)).OfFunctions := by
  intro space name x hx
  rw [resolve?_primaryLinker] at hx
  obtain ⟨f, -, rfl⟩ := Option.map_eq_some_iff.mp hx
  exact ⟨f, rfl⟩

section Imports

variable {l : Linker} {s : Session} {imports : List Import} {es : List Extern}

theorem resolveImport_eq_ok_iff {i : Import} {x : Extern} :
    l.resolveImport i = .ok x ↔ l.resolve? i.space i.name = some x := by
  unfold Linker.resolveImport
  cases l.resolve? i.space i.name with
  | none => simp
  | some y => simp

theorem exists_resolveAll (h : ∀ i ∈ imports, ∃ x, l.resolveImport i = .ok x) :
    ∃ es, l.resolveAll imports = .ok es := by
  induction imports with
  | nil => exact ⟨[], rfl⟩
  | cons i rest ih =>
    obtain ⟨x, hx⟩ := h i List.mem_cons_self
    obtain ⟨es, hes⟩ := ih fun j hj => h j (List.mem_cons_of_mem _ hj)
    have hrest : rest.mapM l.resolveImport = .ok es := hes
    refine ⟨x :: es, ?_⟩
    rw [Linker.resolveAll, List.mapM_cons, hx, hrest]
    rfl

/-- What imports stand for in a table of functions is functions. -/
theorem functions_of_check (hl : l.OfFunctions) (h : l.check s imports = .ok es) :
    ∀ x ∈ es, ∃ f, x = .func f := by
  intro x hx
  obtain ⟨hresolve, -⟩ := exists_of_check h
  obtain ⟨n, hn, rfl⟩ := List.mem_iff_getElem.mp hx
  have hi := (List.forall₂_iff_get.mp hresolve).2 n (hresolve.length_eq ▸ hn) hn
  exact hl _ _ _ (resolveImport_eq_ok_iff.mp hi)

/-- Linking goes on exactly if all imports are met. -/
theorem exists_check_iff (hm : s.engine.MatchesFunctions) (hl : l.OfFunctions) :
    (∃ es, l.check s imports = .ok es) ↔ ∀ i ∈ imports, i.Met l := by
  constructor
  · -- an import is compared with what stands at its own place
    rintro ⟨es, h⟩ i hi
    obtain ⟨hresolve, hfits⟩ := exists_of_check h
    obtain ⟨n, hn, rfl⟩ := List.mem_iff_getElem.mp hi
    have hn' : n < es.length := hresolve.length_eq ▸ hn
    have hx := resolveImport_eq_ok_iff.mp ((List.forall₂_iff_get.mp hresolve).2 n hn hn')
    obtain ⟨f, hf⟩ : ∃ f, es[n] = .func f := hl _ _ _ hx
    have hfit : s.engine.misfit? imports[n].type (s.store.typeOf es[n]) = none :=
      hfits (imports[n], es[n]) (List.mem_iff_getElem.mpr ⟨n, by simp [hn, hn'], by simp⟩)
    rw [hf] at hfit
    rw [List.get_eq_getElem, List.get_eq_getElem, hf] at hx
    exact ⟨f, hx, (hm _ _).mp hfit⟩
  · intro hmet
    obtain ⟨es, hes⟩ : ∃ es, l.resolveAll imports = .ok es := exists_resolveAll fun i hi => by
      obtain ⟨f, hf, -⟩ := hmet i hi
      exact ⟨.func f, resolveImport_eq_ok_iff.mpr hf⟩
    have hresolve := List.forall₂_iff_zip.mp (forall₂_of_resolveAll hes)
    have htypes : checkTypes s (imports.zip es) = .ok ⟨⟩ := by
      refine forM_eq_ok_iff.mpr fun ⟨i, x⟩ hmem => ?_
      obtain ⟨f, hf, htype⟩ := hmet i (List.of_mem_zip hmem).1
      -- what the import stands for is the function that meets it
      have hx := resolveImport_eq_ok_iff.mp (hresolve.2 hmem)
      cases hf.symm.trans hx
      simp only [htype, Store.typeOf, (hm _ _).mpr rfl]
    refine ⟨es, ?_⟩
    rw [Linker.check, hes]
    show (checkTypes s (imports.zip es) >>= fun _ => pure es) = _
    rw [htypes]
    rfl

end Imports

end ModuleHost
