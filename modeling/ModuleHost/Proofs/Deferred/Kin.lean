/-
Requests in sessions with and without native string builtins.

An engine that knows the string builtins rejects a wrong import of one when it compiles a module,
one that does not rejects it when the module is linked.  Whether a deferred module can be linked
does not depend on that, nor what its imports stand for, and so neither does which requests of a
sequence link a module.

* `EndsRelated` — computations with results and worlds that are related;
* `Session.Kin` — sessions with the one and the other engine in which the same can be linked;
* `Session.Kin.accepts?_eq` — the same modules can be linked in them;
* `LoadsAlike`, `Kin.mapM_load` — the same requests link a module, whatever is rejected on the way.

Design notes: kin need not have the same heap, records or kept modules, because after a rejection
they do not.  Its text is in a record and in an error value, and a module that is rejected when it
is linked has been kept.
-/
import Mathlib
import ModuleHost.Proofs.Deferred.Outcomes
import ModuleHost.Proofs.Linking.Opening

namespace ModuleHost

open Act

variable {γ α β δ ε : Type}

/-! ### Ending in related results -/

/-- Two computations end in related results or in the same fault, and in related worlds. -/
inductive EndsRelated (R : α → β → Prop) (T : World γ → World γ → Prop) :
    EStateM.Result Fault (World γ) α → EStateM.Result Fault (World γ) β → Prop
  | ok {a : α} {b : β} {v w : World γ} (results : R a b) (related : T v w) :
      EndsRelated R T (.ok a v) (.ok b w)
  | error (e : Fault) {v w : World γ} (related : T v w) : EndsRelated R T (.error e v) (.error e w)

namespace EndsRelated

variable {R : α → β → Prop} {S : δ → ε → Prop} {T T' : World γ → World γ → Prop}

theorem of_endsAlike {R : α → α → Prop} (hR : ∀ a, R a a)
    {r r' : EStateM.Result Fault (World γ) α} (h : EndsAlike T r r') : EndsRelated R T r r' := by
  cases h with
  | ok a related => exact .ok (hR a) related
  | error e related => exact .error e related

theorem bind {x : Act γ α} {y : Act γ β} {f : α → Act γ δ} {g : β → Act γ ε} {v w : World γ}
    (h : EndsRelated R T (x v) (y w))
    (hf : ∀ a b v w, R a b → T v w → EndsRelated S T' (f a v) (g b w))
    (herror : ∀ v w, T v w → T' v w) :
    EndsRelated S T' ((x >>= f) v) ((y >>= g) w) := by
  generalize hx : x v = r at h
  generalize hy : y w = r' at h
  cases h with
  | ok results related =>
    rw [bind_of_ok hx, bind_of_ok hy]
    exact hf _ _ _ _ results related
  | error e related =>
    rw [bind_of_error hx, bind_of_error hy]
    exact .error e (herror _ _ related)

theorem mono {r : EStateM.Result Fault (World γ) α} {r' : EStateM.Result Fault (World γ) β}
    (h : EndsRelated R T r r') (hT : ∀ {v w}, T v w → T' v w) : EndsRelated R T' r r' := by
  cases h with
  | ok results related => exact .ok results (hT related)
  | error e related => exact .error e (hT related)

/-- What evolves both worlds evolves them also where it ends in related worlds. -/
theorem evolving {x : Act γ α} {y : Act γ β} (hx : Evolving x) (hy : Evolving y) {v w : World γ}
    (h : EndsRelated R T (x v) (y w)) :
    EndsRelated R (fun v' w' => T v' w' ∧ v.session.Evolves v'.session ∧
      w.session.Evolves w'.session) (x v) (y w) := by
  generalize hr : x v = r at h
  generalize hr' : y w = r' at h
  cases h with
  | ok results related => exact .ok results ⟨related, hx.of_ok hr, hy.of_ok hr'⟩
  | error e related => exact .error e ⟨related, hx.of_error hr, hy.of_error hr'⟩

/-- A sequence of computations, each of which ends in related results. -/
theorem mapM {f : δ → Act γ α} {g : δ → Act γ β}
    (hf : ∀ d v w, T v w → EndsRelated R T (f d v) (g d w)) (ds : List δ) {v w : World γ}
    (h : T v w) : EndsRelated (List.Forall₂ R) T (ds.mapM f v) (ds.mapM g w) := by
  induction ds generalizing v w with
  | nil => exact .ok .nil h
  | cons d rest ih =>
    rw [List.mapM_cons, List.mapM_cons]
    refine (hf d v w h).bind (fun a b v w hab h => ?_) fun _ _ h => h
    exact (ih h).bind (fun as bs v w habs h => .ok (.cons hab habs) h) fun _ _ h => h

end EndsRelated

/-! ### Negotiated sessions -/

/-- A session of an engine and a loader that goes by what the engine turned out to support, with
the string builtins bound. -/
structure Session.Negotiated (e : Engine) (loader : Option Loader) (s : Session) : Prop where
  engine : s.engine = e
  capabilities : s.capabilities = e.probe
  loader : s.deferred.loader = loader
  linker : ∀ l, s.deferred.linker = some l → l.BindsText

variable {e : Engine} {loader : Option Loader} {name : String} {d : Description}
  {es : List Extern}

theorem Session.Negotiated.withDeferred {s : Session} (hs : s.Negotiated e loader)
    {loads : DeferredLoads} (hloader : loads.loader = s.deferred.loader)
    (hlinker : loads.linker = s.deferred.linker) :
    ({ s with deferred := loads } : Session).Negotiated e loader :=
  ⟨hs.engine, hs.capabilities, hloader.trans hs.loader, fun l hl => hs.linker l (hlinker ▸ hl)⟩

/-- A source is compiled by the one engine as by the other, and then checked. -/
theorem Engine.compileSource_probe_eq (he : e.config.stringBuiltins = true) (source : Source) :
    e.compileSource e.probe source
      = e.polyfilled.compileSource e.polyfilled.probe source >>=
          fun d => (e.checkBuiltins d).mapError .compile := by
  unfold compileSource
  rw [show e.polyfilled.config.chunkSize = e.config.chunkSize from rfl]
  cases source.read e.config.chunkSize with
  | error text => rfl
  | ok bytes =>
    simp only [compile_probe_eq he]
    cases e.polyfilled.compile bytes e.polyfilled.probe with
    | error cause => rfl
    | ok d => rfl

/-- What a name stands for in the one session, it stands for in the other, and is then checked. -/
theorem provides_eq (he : e.config.stringBuiltins = true) {s t : Session}
    (hs : s.Negotiated e loader) (ht : t.Negotiated e.polyfilled loader)
    (hanswer : ∀ l, loader = some l → l.load t.deferred.asked name = l.load s.deferred.asked name) :
    s.provides name
      = t.provides name >>= fun d => (e.checkBuiltins d).mapError .compile := by
  unfold Session.provides
  rw [hs.engine, hs.capabilities, hs.loader, ht.engine, ht.capabilities, ht.loader]
  cases hl : loader with
  | none => rfl
  | some l =>
    simp only [hanswer l hl]
    cases l.load s.deferred.asked name with
    | error report => rfl
    | ok source => simp only [Engine.compileSource_probe_eq he]

/-- What a request obtains in the one session, it obtains in the other, and conversely, if it passes
the check. -/
def ObtainsChecked (e : Engine) (name : String) (s t : Session) : Prop :=
  ∀ d, (s.obtains name = .ok d → t.obtains name = .ok d) ∧
    (t.obtains name = .ok d → e.checkBuiltins d = .ok d → s.obtains name = .ok d)

theorem obtainsChecked_of_eq {s t : Session}
    (h : s.obtains name = t.obtains name >>= fun d => (e.checkBuiltins d).mapError .compile) :
    ObtainsChecked e name s t := by
  intro d
  rw [h]
  constructor
  · intro hd
    obtain ⟨d', hd', hchecked⟩ := exists_of_bind_eq_ok hd
    cases hc : e.checkBuiltins d' with
    | error cause =>
      rw [hc] at hchecked
      cases hchecked
    | ok d'' =>
      rw [hc] at hchecked
      cases hchecked
      rwa [Engine.eq_of_checkBuiltins hc]
  · intro hd hc
    rw [hd]
    show (e.checkBuiltins d).mapError _ = _
    rw [hc]
    rfl

/-! ### Kin -/

/-- Sessions of engines with and without the string builtins in which the same can be linked. -/
structure Session.Kin (e : Engine) (loader : Option Loader) (s t : Session) : Prop where
  first : s.Negotiated e loader
  second : t.Negotiated e.polyfilled loader
  linker : t.deferred.linker = s.deferred.linker
  store : t.store = s.store

/-- Worlds whose sessions are kin, and what their modules keep for themselves is alike. -/
structure Kin (e : Engine) (loader : Option Loader) (G : γ → γ → Prop) (v w : World γ) : Prop where
  session : v.session.Kin e loader w.session
  guest : G v.guest w.guest

namespace Session.Kin

variable {s t : Session}

theorem withDeferred (h : s.Kin e loader t) {loads loads' : DeferredLoads}
    (hloader : loads.loader = s.deferred.loader) (hlinker : loads.linker = s.deferred.linker)
    (hloader' : loads'.loader = t.deferred.loader) (hlinker' : loads'.linker = t.deferred.linker) :
    ({ s with deferred := loads } : Session).Kin e loader { t with deferred := loads' } :=
  ⟨h.first.withDeferred hloader hlinker, h.second.withDeferred hloader' hlinker',
    hlinker'.trans (h.linker.trans hlinker.symm), h.store⟩

theorem obtaining (h : s.Kin e loader t) (name : String) :
    (s.obtaining name).Kin e loader (t.obtaining name) := by
  obtain ⟨loads, hs, hloader, hlinker⟩ := s.obtaining_rest name
  obtain ⟨loads', ht, hloader', hlinker'⟩ := t.obtaining_rest name
  rw [hs, ht]
  exact h.withDeferred hloader hlinker hloader' hlinker'

/-- Two sessions in which nothing is kept under a name, and the loader answers it alike. -/
theorem obtainsChecked_of_offers (h : s.Kin e loader t) (he : e.config.stringBuiltins = true)
    {answer : Except Report Source} (hs : s.Offers name answer) (ht : t.Offers name answer) :
    ObtainsChecked e name s t := by
  refine obtainsChecked_of_eq ?_
  have hs' : s.obtains name = s.provides name := by rw [obtains, hs.notKept]
  have ht' : t.obtains name = t.provides name := by rw [obtains, ht.notKept]
  rw [hs', ht']
  refine provides_eq he h.first h.second fun l hl => ?_
  obtain ⟨ls, hls, hload⟩ := hs.loader
  obtain ⟨lt, hlt, hload'⟩ := ht.loader
  rw [h.first.loader, hl] at hls
  rw [h.second.loader, hl] at hlt
  cases hls
  cases hlt
  exact hload'.trans hload.symm

/-- Two sessions that may keep modules, and the loader always answers in the same way. -/
theorem obtainsChecked_of_functional (h : s.Kin e loader t)
    (he : e.config.stringBuiltins = true) (hs : s.Reachable) (ht : t.Reachable)
    (hf : ∀ l, loader = some l → l.Functional) (name : String) : ObtainsChecked e name s t := by
  refine obtainsChecked_of_eq ?_
  rw [hs.obtains_eq_provides (fun l hl => hf l (h.first.loader ▸ hl)),
    ht.obtains_eq_provides (fun l hl => hf l (h.second.loader ▸ hl))]
  exact provides_eq he h.first h.second fun l hl => hf l hl _ _ name

/-- The same module can be linked, and its imports stand for the same. -/
theorem accepts?_eq (h : s.Kin e loader t) (hm : e.MatchesFunctions)
    (hsame : ObtainsChecked e name s t) : t.accepts? name = s.accepts? name := by
  have hengine : t.engine.misfit? = s.engine.misfit? := by
    rw [h.second.engine, h.first.engine]
    rfl
  ext ⟨d, es⟩
  rw [accepts?_eq_some_iff, accepts?_eq_some_iff, h.linker]
  constructor
  · rintro ⟨hd, l, hl, hes⟩
    have hm' : t.engine.MatchesFunctions := by
      rw [h.second.engine]
      exact hm
    have hchecked := checkBuiltins_of_check hm' (h.first.linker l hl) hes
    exact ⟨(hsame d).2 hd (e.checkBuiltins_of_ok hchecked), l, hl,
      (Linker.check_congr hengine h.store l d.imports).symm.trans hes⟩
  · rintro ⟨hd, l, hl, hes⟩
    exact ⟨(hsame d).1 hd, l, hl, (Linker.check_congr hengine h.store l d.imports).trans hes⟩

end Session.Kin

section Kin

variable {G : γ → γ → Prop} {m : Machine γ} {note : Event → γ → γ} {v w : World γ}

theorem storeRelation_kin : StoreRelation (Kin e loader G) where
  same {v w} h := by
    refine ⟨h.session.store, ?_, ?_⟩
    · rw [h.session.second.engine, h.session.first.engine]
      rfl
    · rw [h.session.second.engine, h.session.first.engine]
      rfl
  withStore _ h :=
    ⟨⟨⟨h.session.first.engine, h.session.first.capabilities, h.session.first.loader,
        h.session.first.linker⟩,
      ⟨h.session.second.engine, h.session.second.capabilities, h.session.second.loader,
        h.session.second.linker⟩, h.session.linker, rfl⟩, h.guest⟩

/-- Noting that a loader was asked leaves alike what the modules keep for themselves, also when only
one of them notes it. -/
def Silent (note : Event → γ → γ) (G : γ → γ → Prop) : Prop :=
  ∀ name answer g g', G g g' →
    G (note (.load name answer) g) g' ∧ G g (note (.load name answer) g')

theorem noting_cases (note : Event → γ → γ) (name : String) (w : World γ) :
    noting note name w = w.guest ∨
      ∃ answer, noting note name w = note (.load name answer) w.guest := by
  unfold noting
  split
  · exact .inr ⟨_, rfl⟩
  · exact .inl rfl

theorem Silent.noting (hsilent : Silent note G) (h : G v.guest w.guest) (name : String) :
    G (noting note name v) (noting note name w) := by
  rcases noting_cases note name v with hv | ⟨answer, hv⟩
  · rcases noting_cases note name w with hw | ⟨answer', hw⟩
    · rwa [hv, hw]
    · rw [hv, hw]
      exact (hsilent name answer' _ _ h).2
  · rcases noting_cases note name w with hw | ⟨answer', hw⟩
    · rw [hv, hw]
      exact (hsilent name answer _ _ h).1
    · rw [hv, hw]
      exact (hsilent name answer' _ _ (hsilent name answer _ _ h).1).2

theorem Kin.obtaining (h : Kin e loader G v w) (hsilent : Silent note G) (name : String) :
    Kin e loader G (v.obtaining note name) (w.obtaining note name) :=
  ⟨h.session.obtaining name, hsilent.noting h.guest name⟩

/-- Two outcomes of a request are the same: the same instance, or errors. -/
def SameOutcome (outcome outcome' : Except LoadError Instance) : Prop :=
  outcome'.toOption = outcome.toOption

/-- A request links a module in both worlds or in neither, if what the start function of the module
calls ends alike. -/
theorem EndsRelated.serveRequest (hnote : m.NotesBy note)
    (h : Kin e loader G (v.obtaining note name) (w.obtaining note name))
    (haccepts : w.session.accepts? name = v.session.accepts? name)
    (hcall : ∀ d es f args, v.session.accepts? name = some (d, es) →
      d.startCall? es = some (f, args) → Act.Respects (Kin e loader G) (m.call f args)) :
    EndsRelated SameOutcome (Kin e loader G)
      (serveRequest m name v.session.capabilities v)
      (serveRequest m name w.session.capabilities w) := by
  cases hv : v.session.accepts? name with
  | none =>
    -- both are rejected, the one perhaps by the compiler and the other by the linker
    obtain ⟨f, hf⟩ := exists_serveRequest_of_not_accepted hnote hv
    obtain ⟨f', hf'⟩ := exists_serveRequest_of_not_accepted hnote (haccepts.trans hv)
    rw [hf, hf']
    exact .ok rfl h
  | some accepted =>
    obtain ⟨d, es⟩ := accepted
    rw [serveRequest_of_accepted hnote hv, serveRequest_of_accepted hnote (haccepts.trans hv)]
    -- no imports are left to be checked
    have hinstance : Act.Respects (Kin e loader G) (instantiate m d es) :=
      .instantiate storeRelation_kin.linkingSteps fun f args => hcall d es f args hv
    have hends := (hinstance.attempt _ _ h).bind
      (f := fun linked => pure (linked.mapError fun e : Fault => LoadError.link e.report))
      (g := fun linked => pure (linked.mapError fun e : Fault => LoadError.link e.report))
      fun linked _ _ h => .ok _ h
    exact .of_endsAlike (R := SameOutcome) (fun _ => rfl) hends

/-- So does a request that keeps its record. -/
theorem EndsRelated.load (hnote : m.NotesBy note)
    (h : Kin e loader G (v.obtaining note name) (w.obtaining note name))
    (haccepts : w.session.accepts? name = v.session.accepts? name)
    (hcall : ∀ d es f args, v.session.accepts? name = some (d, es) →
      d.startCall? es = some (f, args) → Act.Respects (Kin e loader G) (m.call f args)) :
    EndsRelated SameOutcome (Kin e loader G) (load m name v) (load m name w) := by
  rw [load_run_eq, load_run_eq]
  refine (EndsRelated.serveRequest hnote h haccepts hcall).bind
    (fun outcome outcome' v' w' hsame h => ?_) fun _ _ h => h
  refine .ok hsame ⟨h.session.withDeferred ?_ ?_ ?_ ?_, h.guest⟩
  all_goals rw [Session.push_eq]

/-- What comes of a request for a name in two worlds. -/
structure LoadsAlike (e : Engine) (loader : Option Loader) (G : γ → γ → Prop) (m : Machine γ)
    (name : String) (v w : World γ) : Prop where
  /-- The same module can be linked, and its imports stand for the same. -/
  accepts : w.session.accepts? name = v.session.accepts? name
  /-- The imports of string builtins stand for them. -/
  bound : ∀ d es, v.session.accepts? name = some (d, es) →
    List.Forall₂ Import.BoundTo d.imports es
  /-- A module is linked in both worlds or in neither, if what its start function calls ends
  alike. -/
  ends : (∀ d es f args, v.session.accepts? name = some (d, es) →
      d.startCall? es = some (f, args) → Act.Respects (Kin e loader G) (m.call f args)) →
    EndsRelated SameOutcome (Kin e loader G) (load m name v) (load m name w)

theorem LoadsAlike.of_obtainsChecked (hm : e.MatchesFunctions) (hnote : m.NotesBy note)
    (hsession : v.session.Kin e loader w.session)
    (hsame : ObtainsChecked e name v.session w.session)
    (h : Kin e loader G (v.obtaining note name) (w.obtaining note name)) :
    LoadsAlike e loader G m name v w where
  accepts := hsession.accepts?_eq hm hsame
  bound d es hsome := by
    obtain ⟨-, l, hl, hes⟩ := Session.accepts?_eq_some_iff.mp hsome
    exact boundTo_of_check (hsession.first.engine ▸ hm) (hsession.first.linker l hl) hes
  ends hcall := .load hnote h (hsession.accepts?_eq hm hsame) hcall

/-- What the start functions of a loader's modules call ends alike. -/
def StartsAlike (e : Engine) (loader : Option Loader) (T : World γ → World γ → Prop)
    (m : Machine γ) : Prop :=
  ∀ (s : Session) name d es f args, s.Negotiated e loader → s.Reachable →
    s.accepts? name = some (d, es) → d.startCall? es = some (f, args) →
      Act.Respects T (m.call f args)

/-- The same requests of a sequence link a module, and the same one, whatever is rejected on the
way, if what the start functions call ends alike. -/
theorem Kin.mapM_load (hmatches : e.MatchesFunctions)
    (he : e.config.stringBuiltins = true) (hm : m.Evolving)
    (hnote : m.NotesBy note) (hsilent : Silent note G)
    (hf : ∀ l, loader = some l → l.Functional) (hcall : StartsAlike e loader (Kin e loader G) m)
    (names : List String) (h : Kin e loader G v w) (hv : v.session.Reachable)
    (hw : w.session.Reachable) :
    EndsRelated (List.Forall₂ SameOutcome) (Kin e loader G)
      (names.mapM (ModuleHost.load m) v) (names.mapM (ModuleHost.load m) w) := by
  -- kin in sessions that can come about, which the requests leave behind again
  let T : World γ → World γ → Prop := fun v w =>
    Kin e loader G v w ∧ v.session.Reachable ∧ w.session.Reachable
  have hload : ∀ name v w, T v w →
      EndsRelated SameOutcome T (ModuleHost.load m name v) (ModuleHost.load m name w) := by
    rintro name v w ⟨h, hv, hw⟩
    have hsame := h.session.obtainsChecked_of_functional he hv hw hf name
    have halike := LoadsAlike.of_obtainsChecked hmatches hnote h.session hsame
      (h.obtaining hsilent name)
    have hends := halike.ends fun d es f args =>
      hcall v.session name d es f args h.session.first hv
    exact (hends.evolving (hm.load name) (hm.load name)).mono fun ⟨h, hev, hev'⟩ =>
      ⟨h, hv.evolves hev, hw.evolves hev'⟩
  exact (EndsRelated.mapM hload names ⟨h, hv, hw⟩).mono And.left

end Kin

end ModuleHost
