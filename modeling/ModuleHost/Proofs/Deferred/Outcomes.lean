/-
What becomes of a request, said of the session in which it is made.

A request obtains a module, the one that is kept under its name or what its name stands for, and if
the module's imports can be linked it makes an instance.  Both are functions of the session, so
requests in two sessions can be compared by comparing these.

* `Session.obtains`, `Session.accepts?` — the module and what its imports stand for;
* `obtainModule_eq` — obtaining a module, as an equation;
* `exists_serveRequest_of_not_accepted` — a module that cannot be linked;
* `serveRequest_of_accepted` — one that can.
-/
import Mathlib
import ModuleHost.Proofs.Deferred.Cache
import ModuleHost.Proofs.Deferred.Isolation
import ModuleHost.Proofs.Linking.TextImports

namespace ModuleHost

open Act

variable {γ : Type}

/-! ### Noting -/

/-- Noting an event changes what the module keeps for itself, by what it keeps, and nothing else. -/
def Machine.NotesBy (m : Machine γ) (note : Event → γ → γ) : Prop :=
  ∀ event w, m.note event w = .ok ⟨⟩ ⟨w.session, note event w.guest⟩

def Code.NotesBy (c : Code γ) (note : Event → γ → γ) : Prop :=
  ∀ event w, c.note event w = .ok ⟨⟩ ⟨w.session, note event w.guest⟩

theorem Code.NotesBy.machine {c : Code γ} {note : Event → γ → γ} (hc : c.NotesBy note) (depth : ℕ) :
    (c.machine depth).NotesBy note := by
  cases depth with
  | zero => exact hc
  | succ depth => exact hc

/-! ### The module of a request -/

namespace Session

/-- What a request for a name obtains: the module that is kept, or what the name stands for. -/
def obtains (s : Session) (name : String) : Except LoadError Description :=
  match s.deferred.cached? name with
  | some module => .ok module
  | none => s.provides name

/-- The module that a request for a name obtains and what its imports stand for, if it can be
linked. -/
def accepts? (s : Session) (name : String) : Option (Description × List Extern) := do
  let d ← (s.obtains name).toOption
  let l ← s.deferred.linker
  let es ← (l.check s d.imports).toOption
  return (d, es)

variable {s : Session} {name : String} {d : Description} {es : List Extern}

theorem accepts?_eq_some_iff :
    s.accepts? name = some (d, es) ↔ s.obtains name = .ok d ∧
      ∃ l, s.deferred.linker = some l ∧ l.check s d.imports = .ok es := by
  simp only [accepts?, Option.bind_eq_bind, Option.bind_eq_some_iff, toOption_eq_some_iff,
    Option.pure_def, Option.some.injEq, Prod.mk.injEq]
  constructor
  · rintro ⟨d, hd, l, hl, es, hes, rfl, rfl⟩
    exact ⟨hd, l, hl, hes⟩
  · rintro ⟨hd, l, hl, hes⟩
    exact ⟨d, hd, l, hl, es, hes, rfl, rfl⟩

/-- A module that is obtained but not accepted cannot be linked. -/
theorem exists_unlinkable (h : s.accepts? name = none) (hd : s.obtains name = .ok d) :
    ∃ cause, s.Unlinkable d cause := by
  cases hl : s.deferred.linker with
  | none => exact ⟨_, .notLinked hl⟩
  | some l =>
    cases hc : l.check s d.imports with
    | error cause => exact ⟨cause, .imports hl hc⟩
    | ok es =>
      have hsome : s.accepts? name = some (d, es) := accepts?_eq_some_iff.mpr ⟨hd, l, hl, hc⟩
      cases h.symm.trans hsome

/-- Obtaining a module changes nothing that linking looks at. -/
theorem obtaining_rest (s : Session) (name : String) :
    ∃ loads : DeferredLoads, s.obtaining name = { s with deferred := loads } ∧
      loads.loader = s.deferred.loader ∧ loads.linker = s.deferred.linker := by
  unfold obtaining
  split
  · exact ⟨_, rfl, rfl, rfl⟩
  · exact ⟨_, rfl, rfl, rfl⟩
  · exact ⟨s.deferred, rfl, rfl, rfl⟩

theorem Reachable.obtains_eq_provides (hs : s.Reachable) (hf : s.Functional) (name : String) :
    s.obtains name = s.provides name := by
  unfold obtains
  cases hk : s.deferred.cached? name with
  | none => rfl
  | some d => exact (hs.provides_of_cached hf hk).symm

/-- A module that a name stands for is one that the loader gives for it. -/
theorem exists_source_of_provides (h : s.provides name = .ok d) :
    ∃ loader source, s.deferred.loader = some loader ∧
      loader.load s.deferred.asked name = .ok source ∧
      s.engine.compileSource s.capabilities source = .ok d := by
  unfold provides at h
  split at h
  · cases h
  · rename_i loader hl
    split at h
    · cases h
    · rename_i source hload
      exact ⟨loader, source, hl, hload, h⟩

/-- A module that a request obtains is one that the loader gives at some time. -/
theorem Reachable.compiles_of_obtains (hs : s.Reachable) (h : s.obtains name = .ok d) :
    s.Compiles name d := by
  unfold obtains at h
  split at h
  · rename_i hk
    cases h
    exact hs.compiles hk
  · obtain ⟨loader, source, hl, hload, hcompiles⟩ := exists_source_of_provides h
    exact compiles_of_compileSource hl hload hcompiles

end Session

/-! ### Serving a request -/

section Requests

variable {m : Machine γ} {note : Event → γ → γ} {name : String} {w : World γ} {d : Description}
  {es : List Extern}

/-- What the module keeps for itself once a request for a name has its module. -/
def noting (note : Event → γ → γ) (name : String) (w : World γ) : γ :=
  match w.session.deferred.cached? name, w.session.deferred.loader with
  | none, some loader => note (answering name w loader) w.guest
  | _, _ => w.guest

/-- The world in which a request has its module, or has found that there is none. -/
def World.obtaining (note : Event → γ → γ) (name : String) (w : World γ) : World γ :=
  ⟨w.session.obtaining name, noting note name w⟩

theorem obtainModule_eq (hnote : m.NotesBy note) (name : String) (w : World γ) :
    obtainModule m name w.session.capabilities w
      = .ok (w.session.obtains name) (w.obtaining note name) := by
  unfold World.obtaining noting Session.obtains
  cases hk : w.session.deferred.cached? name with
  | some d =>
    rw [obtainModule_of_cached hk, Session.obtaining, hk]
  | none =>
    cases hl : w.session.deferred.loader with
    | none => rw [obtainModule_of_no_loader hk hl]
    | some loader => rw [obtainModule_of_asked hk hl (hnote _ _)]; rfl

/-- A request whose module cannot be linked fails, and no code has run. -/
theorem exists_serveRequest_of_not_accepted (hnote : m.NotesBy note)
    (h : w.session.accepts? name = none) :
    ∃ e, serveRequest m name w.session.capabilities w = .ok (.error e) (w.obtaining note name) := by
  have hserve : serveRequest m name w.session.capabilities w = _ :=
    bind_of_ok (obtainModule_eq hnote name w) _
  cases hd : w.session.obtains name with
  | error e =>
    rw [hd] at hserve
    exact ⟨e, hserve⟩
  | ok d =>
    rw [hd] at hserve
    obtain ⟨cause, hu⟩ := Session.exists_unlinkable h hd
    obtain ⟨loads, hobtaining, -, hlinker⟩ := w.session.obtaining_rest name
    -- linking looks at the session that has the module, which is as before in all that matters
    have hu' : (w.obtaining note name).session.Unlinkable d cause := by
      show (w.session.obtaining name).Unlinkable d cause
      rw [hobtaining]
      cases hu with
      | notLinked hl => exact .notLinked (hlinker.trans hl)
      | imports hl hc => exact .imports (hlinker.trans hl) hc
    exact ⟨.link cause, hserve.trans (linkModule_of_unlinkable hu')⟩

/-- A request whose module can be linked makes an instance of it. -/
theorem serveRequest_of_accepted (hnote : m.NotesBy note)
    (h : w.session.accepts? name = some (d, es)) :
    serveRequest m name w.session.capabilities w = (do
      let linked ← attempt (instantiate m d es)
      return linked.mapError fun e : Fault => LoadError.link e.report) (w.obtaining note name) := by
  obtain ⟨hd, l, hl, hes⟩ := Session.accepts?_eq_some_iff.mp h
  have hserve : serveRequest m name w.session.capabilities w = _ :=
    bind_of_ok (obtainModule_eq hnote name w) _
  rw [hd] at hserve
  obtain ⟨loads, hobtaining, -, hlinker⟩ := w.session.obtaining_rest name
  have hl' : (w.obtaining note name).session.deferred.linker = some l := by
    show (w.session.obtaining name).deferred.linker = some l
    rw [hobtaining]
    exact hlinker.trans hl
  have hes' : l.check (w.obtaining note name).session d.imports = .ok es := by
    show l.check (w.session.obtaining name) d.imports = .ok es
    rw [hobtaining]
    exact hes
  have hlink : linkModule m d (w.obtaining note name) = _ :=
    bind_of_ok (rfl : (session : Act γ Session) (w.obtaining note name)
      = .ok (w.obtaining note name).session (w.obtaining note name)) _
  rw [hl'] at hlink
  refine (hserve.trans hlink).trans (bind_of_eq ?_ _)
  rw [attempt, attempt, makeInstance_of_check_ok hes']

/-- A request with its record, from a world. -/
theorem load_run_eq (m : Machine γ) (name : String) (w : World γ) :
    load m name w = (do
      let outcome ← serveRequest m name w.session.capabilities
      modifySession fun s =>
        { s with deferred := s.deferred.push (.ended name w.session.capabilities outcome) }
      return outcome : Act γ (Except LoadError Instance)) w := by
  rw [load_eq]
  rfl

end Requests

end ModuleHost
