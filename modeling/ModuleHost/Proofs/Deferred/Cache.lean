/-
Keeping compiled modules changes nothing but how often the loader is asked.

With a loader that always answers a name in the same way, what a name stands for is settled when
the session begins: a module that is kept under it is the one that the loader would give again.
So a session that keeps modules and one that does not answer the same requests alike.

* `Session.provides` — what a name stands for;
* `Session.Reachable.provides_of_cached` — a module that is kept is what its name stands for;
* `Machine.Indifferent.load` — a request comes to the same in a session and in one that keeps no
  modules;
* `cache_is_transparent` — so do all requests of a sequence; a loader is not asked again for a name
  that has compiled, and always again for one that has not.

Design notes: requests that a module issues while it is linked are requests to the machine, so
the argument is an induction on the depth of calls; noting that a loader was asked is the one
thing that the two sessions do not do alike.
-/
import Mathlib
import ModuleHost.Proofs.Deferred.Records
import ModuleHost.Proofs.Session.Twins

namespace ModuleHost

open Act

variable {γ : Type}

/-! ### What a name stands for -/

/-- A loader answers a name always in the same way. -/
def Loader.Functional (l : Loader) : Prop :=
  ∀ asked asked' name, l.load asked name = l.load asked' name

namespace Session

/-- The loader of a session, if it has one, answers a name always in the same way. -/
def Functional (s : Session) : Prop := ∀ loader, s.deferred.loader = some loader → loader.Functional

/-- What a name stands for: what the loader gives for it, compiled. -/
def provides (s : Session) (name : String) : Except LoadError Description :=
  match s.deferred.loader with
  | none => .error .noLoader
  | some loader =>
    match loader.load s.deferred.asked name with
    | .error report => .error (.fetch report)
    | .ok source => s.engine.compileSource s.capabilities source

variable {s s' : Session} {name : String} {module : Description}

theorem Functional.evolves (hs : s.Functional) (hev : s.Evolves s') : s'.Functional := by
  intro loader hl
  rw [hev.settled.2.2] at hl
  exact hs loader hl

theorem Functional.provides_evolves (hs : s.Functional) (hev : s.Evolves s') :
    s'.provides name = s.provides name := by
  obtain ⟨hengine, hcapabilities, hloader⟩ := hev.settled
  unfold provides
  rw [hengine, hcapabilities, hloader]
  cases hl : s.deferred.loader with
  | none => rfl
  | some loader => simp only [hs loader hl s'.deferred.asked s.deferred.asked]

theorem Compiles.evolves (h : s.Compiles name module) (hev : s.Evolves s') :
    s'.Compiles name module := by
  obtain ⟨loader, asked, source, bytes, hl, hload, hread, hcompile⟩ := h
  obtain ⟨hengine, hcapabilities, hloader⟩ := hev.settled
  exact ⟨loader, asked, source, bytes, hloader.trans hl, hload, by rwa [hengine],
    by rwa [hengine, hcapabilities]⟩

theorem Compiles.provides (h : s.Compiles name module) (hs : s.Functional) :
    s.provides name = .ok module := by
  obtain ⟨loader, asked, source, bytes, hl, hload, hread, hcompile⟩ := h
  unfold Session.provides Engine.compileSource
  simp only [hl, hs loader hl s.deferred.asked asked, hload, hread, hcompile, Except.mapError]

/-! ### What is kept -/

theorem cached?_keep (d : DeferredLoads) (kept : String) (module : Description) (name : String) :
    (d.keep kept module).cached? name
      = if d.cache.isSome ∧ name = kept then some module else d.cached? name := by
  unfold DeferredLoads.keep DeferredLoads.cached?
  cases d.cache with
  | none => rfl
  | some modules =>
    by_cases hname : name = kept
    · simp [hname]
    · simp [List.lookup_cons, beq_eq_false_iff_ne.mpr hname, hname]

/-- Changes other than keeping a module leave the kept modules alone. -/
theorem Change.same_cache_or_kept (hc : s.Change s') :
    s'.deferred.cache = s.deferred.cache ∨ ∃ name module, s.Compiles name module ∧
      s' = { s with deferred := s.deferred.keep name module } := by
  cases hc with
  | kept name module compiles => exact .inr ⟨name, module, compiles, rfl⟩
  | recorded r _ => exact .inl (by rw [DeferredLoads.push])
  | _ => exact .inl rfl

/-- Every module that is kept under a name is one that the loader gives for it. -/
theorem Reachable.compiles (hs : s.Reachable) :
    ∀ {name module}, s.deferred.cached? name = some module → s.Compiles name module := by
  refine hs.invariant
    (P := fun s => ∀ {name module}, s.deferred.cached? name = some module → s.Compiles name module)
    (fun e c loader {name module} h => ?_) fun {a b} hc hp {name module} h => ?_
  · unfold Session.new DeferredLoads.cached? at h
    simp only at h
    split at h
    · cases h
    · cases h
  · rcases hc.same_cache_or_kept with same | ⟨kept, module', compiles, rfl⟩
    · have hbefore : a.deferred.cached? name = some module := by
        rwa [DeferredLoads.cached?, same] at h
      exact (hp hbefore).evolves hc.evolves
    · have hkept : a.Compiles name module := by
        simp only at h
        rw [cached?_keep] at h
        split at h
        · rename_i hname
          cases h
          rwa [hname.2]
        · exact hp h
      exact hkept.evolves hc.evolves

theorem Reachable.provides_of_cached (hs : s.Reachable) (hf : s.Functional)
    (hc : s.deferred.cached? name = some module) : s.provides name = .ok module :=
  (hs.compiles hc).provides hf

/-- A name under which a module is kept keeps one, and the loader is not asked for it. -/
theorem Evolves.not_asked (hev : s.Evolves s') (hc : s.deferred.cached? name ≠ none) :
    s'.deferred.cached? name ≠ none ∧
      s'.deferred.asked.count name = s.deferred.asked.count name := by
  refine hev.keeps (P := fun s' => s'.deferred.cached? name ≠ none ∧
    s'.deferred.asked.count name = s.deferred.asked.count name) (fun {a b} hc hp => ?_) ⟨hc, rfl⟩
  cases hc with
  | asked other missing =>
    have hother : other ≠ name := by
      rintro rfl
      exact hp.1 missing
    refine ⟨hp.1, ?_⟩
    simp [DeferredLoads.ask, List.count_append, hother, hp.2]
  | kept other module _ =>
    refine ⟨?_, hp.2⟩
    simp only
    rw [cached?_keep]
    split
    · exact Option.some_ne_none _
    · exact hp.1
  | recorded r _ =>
    simpa only [DeferredLoads.push, DeferredLoads.cached?] using hp
  | _ => exact hp

/-- The session once a request has its module, or has found that there is none. -/
def obtaining (s : Session) (name : String) : Session :=
  match s.deferred.cached? name, s.deferred.loader, s.provides name with
  | none, some _, .ok module => { s with deferred := (s.deferred.ask name).keep name module }
  | none, some _, .error _ => { s with deferred := s.deferred.ask name }
  | _, _, _ => s

end Session

section Requests

variable {m : Machine γ} {w : World γ} {name : String}

/-- What is noted when the loader is asked for a name. -/
def answering (name : String) (w : World γ) (loader : Loader) : Event :=
  .load name (answerOf (loader.load w.session.deferred.asked name))

/-- A request for which the loader is not asked has what its name stands for. -/
theorem obtainModule_of_kept {module : Description}
    (hk : w.session.deferred.cached? name = some module)
    (hp : w.session.provides name = .ok module) :
    obtainModule m name w.session.capabilities w
      = .ok (w.session.provides name) ⟨w.session.obtaining name, w.guest⟩ := by
  rw [obtainModule_of_cached hk, hp, Session.obtaining, hk]

theorem obtainModule_of_no_loader (hk : w.session.deferred.cached? name = none)
    (hl : w.session.deferred.loader = none) :
    obtainModule m name w.session.capabilities w
      = .ok (w.session.provides name) ⟨w.session.obtaining name, w.guest⟩ := by
  rw [obtainModule_of_not_cached hk, bind_of_ok (askLoader_of_none hl), Session.provides,
    Session.obtaining, hk, hl]
  rfl

/-- A request for which the loader is asked has what its name stands for, and keeps it. -/
theorem obtainModule_of_asked {loader : Loader} {g : γ}
    (hk : w.session.deferred.cached? name = none) (hl : w.session.deferred.loader = some loader)
    (hnote : m.note (answering name w loader) (asking name w)
      = .ok ⟨⟩ ⟨(asking name w).session, g⟩) :
    obtainModule m name w.session.capabilities w
      = .ok (w.session.provides name) ⟨w.session.obtaining name, g⟩ := by
  have hasked := (obtainModule_of_not_cached (m := m) (c := w.session.capabilities) hk).trans
    (bind_of_ok ((askLoader_of_some hl).trans (bind_of_ok hnote _)) _)
  rw [hasked]
  cases hs : loader.load w.session.deferred.asked name with
  | error report =>
    have hp : w.session.provides name = .error (.fetch report) := by
      simp only [Session.provides, hl, hs]
    rw [hp, Session.obtaining, hk, hl, hp]
    rfl
  | ok source =>
    have hp : w.session.provides name
        = w.session.engine.compileSource w.session.capabilities source := by
      simp only [Session.provides, hl, hs]
    rw [hp, Session.obtaining, hk, hl, hp]
    cases hd : w.session.engine.compileSource w.session.capabilities source with
    | error e => exact compileAndKeep_of_error hd
    | ok module => exact compileAndKeep_of_ok hd

end Requests

/-! ### A session that keeps no modules -/

namespace Session

/-- The same session keeping no modules, its loader having been asked for these names. -/
def uncached (s : Session) (asked : List String) : Session :=
  s.under { s.setting with
    cacheDeferred := false
    deferred := { s.deferred with cache := none, asked } }

variable {s : Session}

theorem Functional.provides_uncached (hs : s.Functional) (asked : List String) (name : String) :
    (s.uncached asked).provides name = s.provides name := by
  have hl' : (s.uncached asked).deferred.loader = s.deferred.loader := rfl
  unfold provides
  rw [hl']
  cases hl : s.deferred.loader with
  | none => rfl
  | some loader =>
    simp only [hs loader hl (s.uncached asked).deferred.asked s.deferred.asked]
    rfl

/-- A session that keeps no modules asks its loader once more for each request. -/
theorem Functional.obtaining_uncached {loader : Loader} (hs : s.Functional) (asked : List String)
    (name : String) (hl : s.deferred.loader = some loader) :
    (s.uncached asked).obtaining name = (s.obtaining name).uncached (asked ++ [name]) := by
  have hk : (s.uncached asked).deferred.cached? name = none := rfl
  have hl' : (s.uncached asked).deferred.loader = some loader := hl
  rw [obtaining, hk, hl', hs.provides_uncached, obtaining, hl]
  cases s.deferred.cached? name with
  | some module =>
    cases s.provides name with
    | error e => rfl
    | ok module => rfl
  | none =>
    cases s.provides name with
    | error e => rfl
    | ok module => rfl

/-- A session that keeps no modules keeps the same records. -/
theorem uncached_push (s : Session) (asked : List String) (r : LoadRecord) :
    ({ s.uncached asked with deferred := (s.uncached asked).deferred.push r } : Session)
      = ({ s with deferred := s.deferred.push r } : Session).uncached asked := by
  rw [push_eq, push_eq]
  generalize recordLimit = limit
  rfl

theorem evolves_obtaining (s : Session) (name : String) : s.Evolves (s.obtaining name) := by
  cases hk : s.deferred.cached? name with
  | some module =>
    rw [obtaining, hk]
    exact .refl
  | none =>
    cases hl : s.deferred.loader with
    | none =>
      rw [obtaining, hk, hl]
      exact .refl
    | some loader =>
      have hasked : s.Evolves { s with deferred := s.deferred.ask name } :=
        (Change.asked name hk).evolves
      cases hp : s.provides name with
      | error e =>
        rw [obtaining, hk, hl, hp]
        exact hasked
      | ok module =>
        rw [obtaining, hk, hl, hp]
        refine hasked.tail (.kept name module ?_)
        unfold provides at hp
        rw [hl] at hp
        cases hs : loader.load s.deferred.asked name with
        | error report =>
          simp only [hs] at hp
          cases hp
        | ok source =>
          simp only [hs] at hp
          exact compiles_of_compileSource (s := { s with deferred := s.deferred.ask name }) hl hs hp

end Session

/-- A setting that differs from that of a session in keeping no modules, the session being
reachable and its loader always giving the same. -/
structure KeepsNone (s : Session) (x : Setting) : Prop where
  reachable : s.Reachable
  functional : s.Functional
  setting : ∃ asked, x = (s.uncached asked).setting

theorem settled_keepsNone : Settled KeepsNone := by
  rintro s s' x hev hsetting ⟨hs, hf, asked, rfl⟩
  refine ⟨hs.evolves hev, hf.evolves hev, asked, ?_⟩
  have hdeferred : s'.deferred = s.deferred := congrArg Setting.deferred hsetting
  simp only [Session.uncached, Session.setting_under, hsetting, hdeferred]

theorem twins_keepsNone_iff {G : γ → γ → Prop} {v w : World γ} :
    Twins KeepsNone G v w ↔ v.session.Reachable ∧ v.session.Functional ∧
      (∃ asked, w.session = v.session.uncached asked) ∧ G v.guest w.guest := by
  constructor
  · rintro ⟨hsession, ⟨hv, hf, asked, hsetting⟩, hg⟩
    refine ⟨hv, hf, ⟨asked, ?_⟩, hg⟩
    rw [hsession, hsetting]
    rfl
  · rintro ⟨hv, hf, ⟨asked, hsession⟩, hg⟩
    exact ⟨by rw [hsession]; rfl, ⟨hv, hf, asked, by rw [hsession]⟩, hg⟩

/-! ### Requests in related worlds -/

section Related

variable {T : World γ → World γ → Prop} {m : Machine γ}

/-- A module is linked alike in twin worlds with the same linker. -/
theorem Act.Respects.linkModule {K : Session → Setting → Prop} {G : γ → γ → Prop} (hK : Settled K)
    (hm : m.Respects (Twins K G))
    (hlinker : ∀ {v w : World γ}, Twins K G v w →
      w.session.deferred.linker = v.session.deferred.linker) (module : Description) :
    Act.Respects (Twins K G) (ModuleHost.linkModule m module) := by
  intro v w h
  have hread : ∀ u : World γ, ModuleHost.linkModule m module u = _ := fun u =>
    bind_session _ u
  rw [hread v, hread w, hlinker h]
  cases v.session.deferred.linker with
  | none => exact .ok _ h
  | some linker =>
    have hlink : Act.Respects (Twins K G) (makeInstance m linker module) :=
      (Orderly.makeInstance linker module).respects hK hm
    exact hlink.attempt.bind (fun _ => .pure _) v w h

/-- A request ends alike in related worlds if its module is obtained and linked alike, and the
record that it leaves keeps them related. -/
theorem Act.Respects.load {name : String}
    (hcapabilities : ∀ {v w : World γ}, T v w → w.session.capabilities = v.session.capabilities)
    (hobtain : ∀ {v w : World γ}, T v w →
      EndsAlike T (obtainModule m name v.session.capabilities v)
        (obtainModule m name w.session.capabilities w))
    (hlink : ∀ module, Act.Respects T (ModuleHost.linkModule m module))
    (hpush : ∀ r : LoadRecord, r.Finished → ∀ {v w : World γ}, T v w →
      T ⟨{ v.session with deferred := v.session.deferred.push r }, v.guest⟩
        ⟨{ w.session with deferred := w.session.deferred.push r }, w.guest⟩) :
    Act.Respects T (ModuleHost.load m name) := by
  intro v w h
  have hserve : EndsAlike T (serveRequest m name v.session.capabilities v)
      (serveRequest m name w.session.capabilities w) := by
    refine (hobtain h).bind fun obtained v w h => ?_
    cases obtained with
    | error e => exact .ok _ h
    | ok module => exact hlink module v w h
  rw [load_eq]
  refine EndsAlike.bind (x := serveRequest m name v.session.capabilities) hserve
    fun outcome v' w' h' => ?_
  rw [hcapabilities h]
  exact .ok outcome (hpush _ (LoadRecord.finished_ended _ _ _) h')

end Related

/-! ### Requests in both sessions -/

/-- A machine that does not tell a session from one that keeps no modules.  Noting always succeeds
and changes nothing but what the module keeps for itself, which is alike also when only one of
the two has noted that its loader was asked. -/
structure Machine.Indifferent (m : Machine γ) (G : γ → γ → Prop) : Prop where
  respects : m.Respects (Twins KeepsNone G)
  notes : m.NotesOnly
  silent : ∀ {name : String} {answer : LoaderAnswer} {w : World γ} {g g' : γ},
    m.note (.load name answer) w = .ok ⟨⟩ ⟨w.session, g'⟩ → G g w.guest → G g g'

section Alike

variable {G : γ → γ → Prop} {m : Machine γ} {v w : World γ} {name : String}

/-- What a name stands for, and the sessions in which a request has it, in both worlds. -/
theorem EndsAlike.obtained {g g' : γ} (hv : v.session.Reachable) (hf : v.session.Functional)
    (hsession : ∃ asked, w.session.obtaining name = (v.session.obtaining name).uncached asked)
    (hprovides : w.session.provides name = v.session.provides name) (hg : G g g') :
    EndsAlike (Twins KeepsNone G)
      (.ok (v.session.provides name) ⟨v.session.obtaining name, g⟩)
      (.ok (w.session.provides name) ⟨w.session.obtaining name, g'⟩) := by
  rw [hprovides]
  have hev := v.session.evolves_obtaining name
  exact .ok _ (twins_keepsNone_iff.mpr ⟨hv.evolves hev, hf.evolves hev, hsession, hg⟩)

theorem twins_asking {G : γ → γ → Prop} (h : Twins KeepsNone G v w)
    (hk : v.session.deferred.cached? name = none) :
    Twins KeepsNone G (asking name v) (asking name w) := by
  obtain ⟨hv, hf, ⟨asked, hw⟩, hg⟩ := twins_keepsNone_iff.mp h
  have hev : v.session.Evolves (asking name v).session :=
    (Session.Change.asked name hk).evolves
  refine twins_keepsNone_iff.mpr ⟨hv.evolves hev, hf.evolves hev, ⟨asked ++ [name], ?_⟩, hg⟩
  show ({ w.session with deferred := w.session.deferred.ask name } : Session) = _
  rw [hw]
  rfl

/-- Both worlds obtain the same module, or fail to in the same way. -/
theorem Machine.Indifferent.obtainModule (hm : m.Indifferent G) (h : Twins KeepsNone G v w) :
    EndsAlike (Twins KeepsNone G) (obtainModule m name v.session.capabilities v)
      (obtainModule m name w.session.capabilities w) := by
  obtain ⟨hv, hf, ⟨asked, hw⟩, hg⟩ := twins_keepsNone_iff.mp h
  have hprovides : w.session.provides name = v.session.provides name := by
    rw [hw, hf.provides_uncached]
  have hk : w.session.deferred.cached? name = none := by rw [hw]; rfl
  have hl : w.session.deferred.loader = v.session.deferred.loader := by rw [hw]; rfl
  cases hload : v.session.deferred.loader with
  | none =>
    have hkv : v.session.deferred.cached? name = none := by
      by_contra hsome
      obtain ⟨module, hsome⟩ := Option.ne_none_iff_exists'.mp hsome
      obtain ⟨loader, _, _, _, hl', -⟩ := hv.compiles hsome
      cases hload.symm.trans hl'
    rw [obtainModule_of_no_loader hkv hload, obtainModule_of_no_loader hk (hl.trans hload)]
    refine .obtained hv hf ⟨asked, ?_⟩ hprovides hg
    rw [Session.obtaining, hk, hl, hload, Session.obtaining, hkv, hload]
    exact hw
  | some loader =>
    have hsession : ∃ asked,
        w.session.obtaining name = (v.session.obtaining name).uncached asked :=
      ⟨asked ++ [name], by rw [hw]; exact hf.obtaining_uncached asked name hload⟩
    obtain ⟨g', hnote'⟩ := hm.notes (answering name w loader) (asking name w)
    rw [obtainModule_of_asked hk (hl.trans hload) hnote']
    cases hkv : v.session.deferred.cached? name with
    | some module =>
      rw [obtainModule_of_kept hkv (hv.provides_of_cached hf hkv)]
      exact .obtained hv hf hsession hprovides (hm.silent hnote' hg)
    | none =>
      obtain ⟨g, hnote⟩ := hm.notes (answering name v loader) (asking name v)
      rw [obtainModule_of_asked hkv hload hnote]
      have hanswer : answering name w loader = answering name v loader :=
        congrArg (fun answer => Event.load name (answerOf answer)) (hf loader hload _ _ name)
      have hnoted := hm.respects.note (answering name v loader) _ _ (twins_asking h hkv)
      rw [hnote, ← hanswer, hnote'] at hnoted
      cases hnoted with
      | ok _ related => exact .obtained hv hf hsession hprovides related.guest

theorem Machine.Indifferent.linkModule (hm : m.Indifferent G) (module : Description) :
    Act.Respects (Twins KeepsNone G) (linkModule m module) := by
  refine .linkModule settled_keepsNone hm.respects (fun h => ?_) module
  obtain ⟨-, -, ⟨asked, hw⟩, -⟩ := twins_keepsNone_iff.mp h
  rw [hw]
  rfl

/-- A request ends alike in both worlds. -/
theorem Machine.Indifferent.load (hm : m.Indifferent G) (name : String) :
    Act.Respects (Twins KeepsNone G) (load m name) := by
  have hcapabilities : ∀ {v w : World γ}, Twins KeepsNone G v w →
      w.session.capabilities = v.session.capabilities := by
    intro v w h
    obtain ⟨-, -, ⟨asked, hw⟩, -⟩ := twins_keepsNone_iff.mp h
    rw [hw]
    rfl
  refine .load hcapabilities hm.obtainModule hm.linkModule fun r hr {v w} h => ?_
  obtain ⟨hv, hf, ⟨asked, hw⟩, hg⟩ := twins_keepsNone_iff.mp h
  have hev : v.session.Evolves { v.session with deferred := v.session.deferred.push r } :=
    (Session.Change.recorded r hr).evolves
  refine twins_keepsNone_iff.mpr ⟨hv.evolves hev, hf.evolves hev, ⟨asked, ?_⟩, hg⟩
  show ({ w.session with deferred := w.session.deferred.push r } : Session) = _
  rw [hw]
  exact v.session.uncached_push asked r

end Alike

/-- Code that does not tell a session from one that keeps no modules. -/
structure Code.Indifferent (c : Code γ) (G : γ → γ → Prop) : Prop where
  respects : c.Respects (Twins KeepsNone G)
  notes : ∀ e w, ∃ g, c.note e w = .ok ⟨⟩ { w with guest := g }
  silent : ∀ {name : String} {answer : LoaderAnswer} {w : World γ} {g g' : γ},
    c.note (.load name answer) w = .ok ⟨⟩ ⟨w.session, g'⟩ → G g w.guest → G g g'

/-- The machine of such code does not tell them apart, by induction on the depth of calls. -/
theorem Code.Indifferent.machine {c : Code γ} {G : γ → γ → Prop} (hc : c.Indifferent G)
    (depth : ℕ) : (c.machine depth).Indifferent G := by
  have hnote : ∀ depth, (c.machine depth).note = c.note := fun depth => by cases depth <;> rfl
  have hsilent : ∀ depth, (c.machine depth).Respects (Twins KeepsNone G) →
      (c.machine depth).Indifferent G := fun depth hm =>
    ⟨hm, Code.notesOnly_machine hc.notes depth, fun h => hc.silent (by rwa [hnote] at h)⟩
  refine hsilent depth (hc.respects.machine settled_keepsNone (fun depth hm => ?_) depth)
  exact (hsilent depth hm).load

/-! ### How often the loader is asked -/

section Asking

variable {m : Machine γ} {w w' : World γ} {name : String}

/-- A request obtains what its name stands for. -/
theorem exists_obtainModule_eq_provides (hnotes : m.NotesOnly) (hw : w.session.Reachable)
    (hf : w.session.Functional) (name : String) :
    ∃ g, obtainModule m name w.session.capabilities w
      = .ok (w.session.provides name) ⟨w.session.obtaining name, g⟩ := by
  cases hk : w.session.deferred.cached? name with
  | some module => exact ⟨w.guest, obtainModule_of_kept hk (hw.provides_of_cached hf hk)⟩
  | none =>
    cases hl : w.session.deferred.loader with
    | none => exact ⟨w.guest, obtainModule_of_no_loader hk hl⟩
    | some loader =>
      obtain ⟨g, hnote⟩ := hnotes (answering name w loader) (asking name w)
      exact ⟨g, obtainModule_of_asked hk hl hnote⟩

theorem Session.ne_link_of_provides {s : Session} {e : LoadError}
    (hp : s.provides name = .error e) (r : Report) : e ≠ .link r := by
  rintro rfl
  unfold Session.provides at hp
  split at hp
  · cases hp
  · split at hp
    · cases hp
    · unfold Engine.compileSource at hp
      split at hp
      · cases hp
      · cases hd : s.engine.compile _ s.capabilities with
        | error report => rw [hd] at hp; cases hp
        | ok module => rw [hd] at hp; cases hp

theorem exists_eq_link_of_linkModule {module : Description} {e : LoadError}
    (h : linkModule m module w = .ok (.error e) w') : ∃ r, e = .link r := by
  rw [show linkModule m module w = _ from
    bind_session _ w] at h
  cases hl : w.session.deferred.linker with
  | none =>
    rw [hl] at h
    cases h
    exact ⟨_, rfl⟩
  | some linker =>
    rw [hl] at h
    obtain ⟨linked, w₁, -, h⟩ := exists_of_bind_ok h
    cases linked with
    | ok i => cases h
    | error e => cases h; exact ⟨_, rfl⟩

/-- A name that stands for no module is answered with why, after asking the loader. -/
theorem load_of_provides_error {e : LoadError} (hnotes : m.NotesOnly) (hw : w.session.Reachable)
    (hf : w.session.Functional) (hp : w.session.provides name = .error e) :
    ∃ w', load m name w = .ok (.error e) w' ∧ w.session.Evolves w'.session ∧
      (w.session.deferred.loader ≠ none →
        w'.session.deferred.asked = w.session.deferred.asked ++ [name]) := by
  obtain ⟨g, hobtained⟩ := exists_obtainModule_eq_provides hnotes hw hf name
  rw [hp] at hobtained
  have hload := load_eq m name
  rw [hload]
  have hserve : serveRequest m name w.session.capabilities w
      = .ok (.error e) ⟨w.session.obtaining name, g⟩ := bind_of_ok hobtained _
  refine ⟨_, bind_of_ok hserve _, (w.session.evolves_obtaining name).tail
    (.recorded _ (LoadRecord.finished_ended _ _ _)), fun hl => ?_⟩
  have hk : w.session.deferred.cached? name = none := by
    by_contra hsome
    obtain ⟨module, hsome⟩ := Option.ne_none_iff_exists'.mp hsome
    rw [hw.provides_of_cached hf hsome] at hp
    cases hp
  obtain ⟨loader, hl⟩ := Option.ne_none_iff_exists'.mp hl
  rw [Session.obtaining, hk, hl, hp]
  show (DeferredLoads.push _ _).asked = _
  rw [Session.push_eq]
  rfl

/-- A request has its module compiled at some moment, and from then on the loader is not asked
for the name. -/
def AskedLast (m : Machine γ) (name : String) (w : World γ) : Prop :=
  ∃ s, w.session.Evolves s ∧ s.Evolves (final (load m name) w).session ∧
    (∀ e w', load m name w = .ok (.error e) w' → ∃ r, e = .link r) ∧
    ∀ s', s.Evolves s' → s'.deferred.asked.count name = s.deferred.asked.count name

/-- A request fails before its module is linked, and every later one asks the loader again, to
fail in the same way. -/
def AskedAgain (m : Machine γ) (name : String) (w : World γ) : Prop :=
  ∃ e w', load m name w = .ok (.error e) w' ∧ (∀ r, e ≠ .link r) ∧
    ∀ u : World γ, w'.session.Evolves u.session → ∃ u', load m name u = .ok (.error e) u' ∧
      (u.session.deferred.loader ≠ none →
        u'.session.deferred.asked = u.session.deferred.asked ++ [name])

theorem cached?_obtaining {s : Session} {module : Description} (hs : s.deferred.cache ≠ none)
    (hl : s.deferred.loader ≠ none) (hp : s.provides name = .ok module) :
    (s.obtaining name).deferred.cached? name ≠ none := by
  obtain ⟨loader, hl⟩ := Option.ne_none_iff_exists'.mp hl
  cases hk : s.deferred.cached? name with
  | some kept =>
    rw [Session.obtaining, hk, hl, hp]
    simp only [hk]
    exact Option.some_ne_none _
  | none =>
    rw [Session.obtaining, hk, hl, hp]
    simp only
    rw [Session.cached?_keep, if_pos ⟨Option.isSome_iff_ne_none.mpr hs, rfl⟩]
    exact Option.some_ne_none _

/-- With modules being kept, the loader is asked for a name until its module compiles. -/
theorem askedLast_or_askedAgain (hm : m.Evolving) (hnotes : m.NotesOnly)
    (hw : w.session.Reachable) (hf : w.session.Functional)
    (hcache : w.session.deferred.cache ≠ none) (name : String) :
    AskedLast m name w ∨ AskedAgain m name w := by
  cases hp : w.session.provides name with
  | error e =>
    obtain ⟨w', hload, hev, -⟩ := load_of_provides_error hnotes hw hf hp
    refine .inr ⟨e, w', hload, Session.ne_link_of_provides hp, fun u hu => ?_⟩
    have hpu : u.session.provides name = .error e := by
      rw [hf.provides_evolves (hev.trans hu), hp]
    obtain ⟨u', hagain, -, hasked⟩ :=
      load_of_provides_error hnotes (hw.evolves (hev.trans hu)) (hf.evolves (hev.trans hu)) hpu
    exact ⟨u', hagain, hasked⟩
  | ok module =>
    obtain ⟨g, hobtained⟩ := exists_obtainModule_eq_provides hnotes hw hf name
    rw [hp] at hobtained
    set w₁ : World γ := ⟨w.session.obtaining name, g⟩
    have hserve : serveRequest m name w.session.capabilities w = linkModule m module w₁ :=
      bind_of_ok hobtained _
    refine .inl ⟨w₁.session, w.session.evolves_obtaining name, ?_, fun e w' h => ?_,
      fun s' hev => (hev.not_asked ?_).2⟩
    · rw [load_eq]
      refine final_bind_keeps (x := serveRequest m name w.session.capabilities)
        (Q := fun w' => w₁.session.Evolves w'.session) ?_ fun {outcome w'} _ hev => ?_
      · rw [final, hserve]
        exact hm.linkModule module w₁
      · exact hev.tail (.recorded _ (LoadRecord.finished_ended _ _ outcome))
    · rw [load_eq] at h
      obtain ⟨outcome, w₂, hserved, h⟩ :=
        exists_of_bind_ok (x := serveRequest m name w.session.capabilities) h
      cases h
      exact exists_eq_link_of_linkModule (hserve.symm.trans hserved)
    · have hl : w.session.deferred.loader ≠ none := by
        intro hnone
        rw [Session.provides, hnone] at hp
        cases hp
      exact cached?_obtaining hcache hl hp

end Asking

/-! ### Sequences of requests -/

/-- The same world but for keeping no modules: the same session with the same records. -/
def SameRecords (v w : World γ) : Prop :=
  w.session.deferred.records = v.session.deferred.records ∧
    ∃ asked, w.session = v.session.uncached asked

theorem Twins.sameRecords {G : γ → γ → Prop} {v w : World γ} (h : Twins KeepsNone G v w) :
    SameRecords v w := by
  obtain ⟨-, -, ⟨asked, hw⟩, -⟩ := twins_keepsNone_iff.mp h
  exact ⟨by rw [hw]; rfl, asked, hw⟩

/-- With a loader that always answers a name in the same way, a session that keeps modules and one
that does not answer all requests of a sequence alike, and leave the same records.  A session
that keeps modules asks its loader for a name until the module has been compiled, whatever
becomes of linking it, and never again; while the name cannot be loaded or compiled, each
request asks again. -/
theorem cache_is_transparent {code : Code γ} {G : γ → γ → Prop} (hcode : code.Sandboxed)
    (halike : code.Indifferent G) (depth : ℕ) {v w : World γ} (hv : v.session.Reachable)
    (hf : v.session.Functional) (hw : ∃ asked, w.session = v.session.uncached asked)
    (hg : G v.guest w.guest) :
    (∀ names : List String, EndsAlike SameRecords
      (names.mapM (load (code.machine depth)) v) (names.mapM (load (code.machine depth)) w)) ∧
    (∀ requests : List Reference, EndsAlike SameRecords
      (requests.mapM (loadModule (code.machine depth)) v)
      (requests.mapM (loadModule (code.machine depth)) w)) ∧
    (v.session.deferred.cache ≠ none → ∀ name : String,
      AskedLast (code.machine depth) name v ∨ AskedAgain (code.machine depth) name v) := by
  have hm := halike.machine depth
  have htwins : Twins KeepsNone G v w := twins_keepsNone_iff.mpr ⟨hv, hf, hw, hg⟩
  refine ⟨fun names => ?_, fun requests => ?_, fun hcache name => ?_⟩
  · exact (Respects.mapM hm.load names v w htwins).mono Twins.sameRecords
  · have hload := Respects.loadModule settled_keepsNone hm.respects hm.load
    exact (Respects.mapM hload requests v w htwins).mono Twins.sameRecords
  · exact askedLast_or_askedAgain (hcode.machine depth) hm.notes hv hf hcache name

/-- A module that counts what it notes, and loads another one whenever it is called. -/
def reloading : Code (ℕ × ℕ) where
  own m _ _ _ := do
    let _ ← m.call .loadModule [.ref (.host (.string (.ofString "empty")))]
    return []
  supplied _ _ _ _ := return []
  native _ _ := return .undefined
  note e := modify fun w => ⟨w.session, match e with
    | .native _ => (w.guest.1 + 1, w.guest.2)
    | .load _ _ => (w.guest.1, w.guest.2 + 1)⟩

theorem reloading_sandboxed : reloading.Sandboxed where
  own _ hm _ _ _ := (hm.call _ _).bind fun _ => .pure _
  supplied _ _ _ _ _ := .pure _
  native _ _ := .pure _
  note _ _ := .refl

theorem reloading_indifferent : reloading.Indifferent fun g g' => g.1 = g'.1 where
  respects := {
    own := fun _ hm _ _ _ => (hm.call _ _).bind fun _ => .pure _
    supplied := fun _ _ _ _ _ => .pure _
    native := fun _ _ => .pure _
    note := fun e v w h => by
      refine .ok _ ⟨h.session, h.setting, ?_⟩
      cases e with
      | native args => exact congrArg (· + 1) h.guest
      | load name answer => exact h.guest }
  notes _ _ := ⟨_, rfl⟩
  silent h hg := by
    cases h
    exact hg

/-- A session that keeps modules, with one to load that loads another one when it is linked. -/
def keepingModules : World (ℕ × ℕ) :=
  let i : Instance :=
    ⟨[("$invokeCallback", .func (.own 1 (.named "$invokeCallback") ⟨[.i32], []⟩))]⟩
  let s := Session.new
    (.standard { Config.default with cacheDeferred := true } ⟨[([1], startingCallback)]⟩ true) .none
    (some (.static [("empty", Image.header), ("starting", [1])]))
  ⟨{ s with
    primary := some i
    memory := i.memory? "memory"
    deferred := { s.deferred with linker := some (deferredLinker .empty i) } }, (0, 0)⟩

theorem keepingModules_reachable : keepingModules.session.Reachable :=
  ⟨_, _, _, (Session.Change.linked _ _).evolves⟩

theorem keepingModules_functional : keepingModules.session.Functional := by
  rintro loader ⟨⟩ asked asked' name
  rfl

theorem cache_is_transparent_keepingModules :
    (reloading.Sandboxed ∧ (reloading.Indifferent fun g g' => g.1 = g'.1) ∧
      keepingModules.session.Reachable ∧ keepingModules.session.Functional ∧
      keepingModules.session.deferred.cache ≠ none) ∧
    EndsAlike SameRecords
      (["starting", "starting", "absent"].mapM (load (reloading.machine 4)) keepingModules)
      (["starting", "starting", "absent"].mapM (load (reloading.machine 4))
        ⟨keepingModules.session.uncached [], (0, 0)⟩) ∧
    (AskedLast (reloading.machine 4) "starting" keepingModules ∨
      AskedAgain (reloading.machine 4) "starting" keepingModules) := by
  obtain ⟨halike, -, hasked⟩ := cache_is_transparent reloading_sandboxed reloading_indifferent 4
    (v := keepingModules) (w := ⟨keepingModules.session.uncached [], (0, 0)⟩)
    keepingModules_reachable keepingModules_functional ⟨[], rfl⟩ rfl
  exact ⟨⟨reloading_sandboxed, reloading_indifferent, keepingModules_reachable,
    keepingModules_functional, nofun⟩, halike _, hasked nofun _⟩

/-- The one session asks its loader once for each name that it has, the other one each time. -/
example :
    (final (["starting", "starting", "absent"].mapM (load (reloading.machine 4)))
      keepingModules).session.deferred.asked = ["starting", "empty", "absent"] ∧
    (final (["starting", "starting", "absent"].mapM (load (reloading.machine 4)))
      ⟨keepingModules.session.uncached [], (0, 0)⟩).session.deferred.asked
        = ["starting", "empty", "starting", "empty", "absent"] := by
  decide +kernel

end ModuleHost
