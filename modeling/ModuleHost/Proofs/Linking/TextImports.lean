/-
Imports of the string builtins, with and without an engine that knows them.

An engine that knows the string builtins compares such imports with its table of signatures when
it compiles a module; linking compares them with the builtins that are bound, whichever engine it
is.  The first comparison takes references of whatever type for each other, so it is the weaker
one.  It lets through every import that linking lets through.

* `Linker.BindsText` — a table in which the names of the string builtins stand for them;
* `boundTo_of_check` — what imports of string builtins stand for once they are linked;
* `checkBuiltins_of_check` — what linking lets through, compiling lets through;
* `Engine.polyfilled`, `Engine.compile_probe_eq` — an engine that knows the string builtins compiles
  what one that does not compiles, and then checks the imports of string builtins.
-/
import Mathlib
import ModuleHost.Proofs.Linking.Checks

namespace ModuleHost

variable {l : Linker} {s t : Session} {d : Description} {imports : List Import}
  {es : List Extern}

/-! ### The two tables -/

/-- Each string builtin has a signature in the engine's table, which accepts its type. -/
theorem TextBuiltin.exists_signature (b : TextBuiltin) :
    ∃ signature, TextSignature.ofName? b.name = some signature ∧
      signature.accepts b.type = true := by
  cases b <;> exact ⟨_, rfl, rfl⟩

theorem TextBuiltin.name_of_ofName? {name : String} {b : TextBuiltin}
    (h : TextBuiltin.ofName? name = some b) : b.name = name := by
  unfold TextBuiltin.ofName? at h
  simpa using List.find?_some h

/-- What an import of a string builtin stands for: the builtin of its name, whose type it
declares. -/
def Import.BoundTo (i : Import) (x : Extern) : Prop :=
  i.space = TextBuiltin.space →
    ∃ b : TextBuiltin, b.name = i.name ∧ i.type = .func b.type ∧ x = .func (.builtin b)

theorem Import.BoundTo.checkBuiltin {i : Import} {x : Extern} (h : i.BoundTo x) :
    Engine.checkBuiltin i = .ok ⟨⟩ := by
  unfold Engine.checkBuiltin
  by_cases hspace : i.space = TextBuiltin.space
  · obtain ⟨b, hname, htype, -⟩ := h hspace
    obtain ⟨signature, hof, haccepts⟩ := b.exists_signature
    rw [← hname, hof, htype]
    simp [hspace, haccepts]
  · simp [hspace]

/-! ### Tables that bind the string builtins -/

namespace Linker

/-- The names of the string builtins stand for them, and no other name of their namespace stands
for anything. -/
def BindsText (l : Linker) : Prop :=
  ∀ name, l.resolve? TextBuiltin.space name = (textImport? TextBuiltin.space name).map .func

theorem bindsText_primaryLinker {b : TextBinding} (hb : b ≠ .absent) :
    (primaryLinker (sharedLinker b [])).BindsText := by
  intro name
  have hdeferred : TextBuiltin.space ≠ deferredSpace := by decide
  have hhost : TextBuiltin.space ≠ HostFunc.space := by decide
  rw [resolve?_primaryLinker]
  simp [laterImport?, hb, hdeferred, lastSupplied?, hostImport?, hhost]

theorem bindsText_deferredLinker {b : TextBinding} (hb : b ≠ .absent) (i : Instance) :
    (deferredLinker (sharedLinker b []) i).BindsText := by
  intro name
  have hdeferred : deferredSpace ≠ TextBuiltin.space := by decide
  have hprimary : primarySpace ≠ TextBuiltin.space := by decide
  have hshared : (sharedLinker b []).resolve? TextBuiltin.space name
      = (primaryLinker (sharedLinker b [])).resolve? TextBuiltin.space name := by
    rw [primaryLinker, resolve?_define, if_neg fun h => hdeferred h.1]
  refine (resolve?_foldl_define (fun _ => primarySpace) Prod.fst Prod.snd i.exports).trans ?_
  rw [hshared, bindsText_primaryLinker hb]
  simp [hprimary]

end Linker

/-! ### What linking compares -/

theorem forM_eq_ok_iff {ε α : Type} {f : α → Except ε PUnit} {as : List α} :
    as.forM f = .ok ⟨⟩ ↔ ∀ a ∈ as, f a = .ok ⟨⟩ := by
  induction as with
  | nil => simp [pure, Except.pure]
  | cons a rest ih =>
    rw [List.forall_mem_cons, ← ih]
    show (f a >>= fun _ => rest.forM f) = _ ↔ _
    cases f a with
    | error e => simp [bind, Except.bind]
    | ok _ => simp [bind, Except.bind]

theorem toOption_eq_some_iff {ε α : Type} {x : Except ε α} {a : α} :
    x.toOption = some a ↔ x = .ok a := by
  cases x with
  | error e => simp [Except.toOption]
  | ok b => simp [Except.toOption]

/-- An engine by which a function can stand exactly where its own type is declared. -/
def Engine.MatchesFunctions (e : Engine) : Prop :=
  ∀ declared given, e.misfit? declared (.func given) = none ↔ declared = .func given

theorem Engine.standard_matchesFunctions (config : Config) (catalog : Catalog)
    (littleEndian : Bool) : (standard config catalog littleEndian).MatchesFunctions := by
  intro declared given
  show declared.misfit? (.func given) = none ↔ _
  cases declared with
  | func declared => simp [ImportType.misfit?]
  | memory _ => simp [ImportType.misfit?]
  | table _ => simp [ImportType.misfit?]
  | global _ _ => simp [ImportType.misfit?]

/-- The comparison of types reads nothing of a session but its store, and how the engine
compares. -/
theorem Linker.check_congr (hengine : t.engine.misfit? = s.engine.misfit?)
    (hstore : t.store = s.store) (l : Linker) (imports : List Import) :
    l.check t imports = l.check s imports := by
  unfold Linker.check checkTypes
  rw [hengine, hstore]

theorem exists_of_check (h : l.check s imports = .ok es) :
    List.Forall₂ (fun i x => l.resolveImport i = .ok x) imports es ∧
      ∀ p ∈ imports.zip es, s.engine.misfit? p.1.type (s.store.typeOf p.2) = none := by
  obtain ⟨es', hresolve, h⟩ := exists_of_bind_eq_ok h
  obtain ⟨⟨⟩, htypes, h⟩ := exists_of_bind_eq_ok h
  cases h
  refine ⟨forall₂_of_resolveAll hresolve, fun ⟨i, x⟩ hp => ?_⟩
  have hfits := forM_eq_ok_iff.mp htypes (i, x) hp
  cases hmisfit : s.engine.misfit? i.type (s.store.typeOf x) with
  | none => rfl
  | some cause =>
    simp [hmisfit] at hfits

/-- Once a module's imports are linked, those of string builtins stand for them. -/
theorem boundTo_of_check (hm : s.engine.MatchesFunctions) (hl : l.BindsText)
    (h : l.check s imports = .ok es) :
    List.Forall₂ Import.BoundTo imports es := by
  obtain ⟨hresolve, hfits⟩ := exists_of_check h
  refine List.forall₂_iff_zip.mpr ⟨hresolve.length_eq, fun {i x} hmem hspace => ?_⟩
  have hi : l.resolveImport i = .ok x := (List.forall₂_iff_zip.mp hresolve).2 hmem
  rw [Linker.resolveImport, hspace, hl] at hi
  cases hb : TextBuiltin.ofName? i.name with
  | none => simp [textImport?, hb] at hi
  | some b =>
    -- what is bound is a function, so it fits only if its type is the one that is declared
    have hx : x = .func (.builtin b) := by simpa [textImport?, hb] using hi.symm
    refine ⟨b, TextBuiltin.name_of_ofName? hb, ?_, hx⟩
    have hfit := hfits _ hmem
    rw [hx] at hfit
    exact (hm _ _).mp hfit

/-- Compiling does not refuse an import of a string builtin that linking accepts. -/
theorem checkBuiltins_of_check (hm : s.engine.MatchesFunctions) (hl : l.BindsText)
    (h : l.check s imports = .ok es) :
    imports.forM Engine.checkBuiltin = .ok ⟨⟩ := by
  refine forM_eq_ok_iff.mpr fun i hi => ?_
  have hbound := boundTo_of_check hm hl h
  obtain ⟨n, hn, rfl⟩ := List.mem_iff_getElem.mp hi
  exact (List.forall₂_iff_get.mp hbound).2 n hn (hbound.length_eq ▸ hn) |>.checkBuiltin

/-- The converse fails: a function reference is a reference, but not the one that is bound. -/
example :
    let i : Import := ⟨TextBuiltin.space, "test", .func ⟨[.funcref], [.i32]⟩⟩
    Engine.checkBuiltin i = .ok ⟨⟩ ∧
      i.type.misfit? (.func TextBuiltin.test.type) ≠ none := by decide

/-! ### Engines -/

namespace Engine

variable {e : Engine} {bytes : List UInt8} {c : Capabilities}

/-- The same engine, not knowing the string builtins. -/
def polyfilled (e : Engine) : Engine :=
  { e with config := { e.config with stringBuiltins := false } }

theorem probe_eq (e : Engine) :
    e.probe = ⟨e.config.referenceTypes && e.config.stringBuiltins⟩ := by
  obtain ⟨f, hf⟩ : ∃ f, probeModule.checkReferences = .error f := ⟨_, rfl⟩
  have hbodies : probeModule.checkBodies = .ok ⟨⟩ := rfl
  have hbuiltins : probeModule.imports.forM checkBuiltin = .ok ⟨⟩ := rfl
  unfold probe compileModule
  cases e.config.referenceTypes with
  | false => simp [hf, Except.mapError, bind, Except.bind, Capabilities.none]
  | true =>
    cases e.config.stringBuiltins with
    | false =>
      simp [hbodies, Except.mapError, bind, Except.bind, Capabilities.none, throw, throwThe,
        MonadExceptOf.throw]
    | true => simp [hbodies, hbuiltins, Except.mapError, bind, Except.bind]

theorem probe_polyfilled (e : Engine) : e.polyfilled.probe = .none := by
  rw [probe_eq]
  exact congrArg Capabilities.mk (Bool.and_false _)

/-- The check of a module's imports of string builtins, if the engine makes it; an engine without
references finds out that it does not support them. -/
def checkBuiltins (e : Engine) (d : Description) : Except Report Description := do
  if e.config.referenceTypes then d.imports.forM checkBuiltin
  return d

theorem checkBuiltins_of_ok (e : Engine) (h : d.imports.forM checkBuiltin = .ok ⟨⟩) :
    e.checkBuiltins d = .ok d := by
  unfold checkBuiltins
  split_ifs
  · rw [h]
    rfl
  · rfl

theorem eq_of_checkBuiltins {d' : Description} (h : e.checkBuiltins d = .ok d') : d' = d := by
  unfold checkBuiltins at h
  split_ifs at h
  · obtain ⟨⟨⟩, -, h⟩ := exists_of_bind_eq_ok h
    exact (Except.ok.inj h).symm
  · exact (Except.ok.inj h).symm

/-- With the string builtins a module is compiled as without them, and then its imports of string
builtins are checked. -/
theorem compileModule_builtins (he : e.config.stringBuiltins = true) (d : Description) :
    e.compileModule d ⟨true⟩
      = e.polyfilled.compileModule d .none >>= fun _ => d.imports.forM checkBuiltin := by
  unfold compileModule
  rw [show e.polyfilled.config.referenceTypes = e.config.referenceTypes from rfl]
  cases e.config.referenceTypes with
  | false =>
    -- both engines look for references first, as neither admits them
    cases d.checkReferences with
    | error f => rfl
    | ok _ =>
      cases d.checkBodies with
      | error f => rfl
      | ok _ => simp [he, Except.mapError, bind, Except.bind, pure, Except.pure, Capabilities.none]
  | true =>
    cases d.checkBodies with
    | error f => rfl
    | ok _ => simp [he, Except.mapError, bind, Except.bind, pure, Except.pure, Capabilities.none]

/-- Bytes are compiled with what the engine turns out to support as without it, and then the
imports of string builtins are checked. -/
theorem compile_probe_eq (he : e.config.stringBuiltins = true) (bytes : List UInt8) :
    e.compile bytes e.probe
      = e.polyfilled.compile bytes e.polyfilled.probe >>= e.checkBuiltins := by
  rw [probe_polyfilled, probe_eq, he, Bool.and_true]
  unfold compile checkBuiltins
  rw [show e.polyfilled.catalog = e.catalog from rfl]
  cases e.catalog.parse bytes with
  | error cause => rfl
  | ok d =>
    cases e.config.referenceTypes with
    | false =>
      have hnone : e.polyfilled.compileModule d .none = e.compileModule d ⟨false⟩ := rfl
      simp only [bind, Except.bind, hnone]
      cases e.compileModule d ⟨false⟩ with
      | error cause => rfl
      | ok _ => rfl
    | true =>
      simp only [bind, Except.bind, compileModule_builtins he]
      cases e.polyfilled.compileModule d .none with
      | error cause => rfl
      | ok _ => rfl

end Engine

end ModuleHost
