/-
Deferred modules with native string builtins and with string builtins bound as host functions.

An engine that knows the string builtins rejects a wrong import of one when it compiles a module,
one that does not rejects it when the module is linked.  As long as nothing is rejected for such an
import, the two sessions stay the same but for their setting.  A rejection makes a difference: what
it says tells the stage, and module code can read it.

* `Counterparts` — worlds that are the same but for the engine;
* `counterparts_iff`, `Engine.Opens.negotiated` — a world in which a module was opened has one;
* `endsAlike_load` — a request ends alike in counterparts, if it obtains the same module;
* `Code.respects_machine_counterparts` — so does everything else, if no module is rejected;
* `bindings_are_interchangeable` — the main theorem;
* `rejections_are_told_apart` — code that reads what a rejection says.
-/
import Mathlib
import ModuleHost.Proofs.Deferred.Kin
import ModuleHost.Proofs.Linking.Opening

namespace ModuleHost

open Act

variable {γ : Type}

/-! ### Counterparts -/

/-- The setting of the same session with the string builtins bound as host functions. -/
structure Polyfills (e : Engine) (loader : Option Loader) (s : Session) (x : Setting) : Prop where
  negotiated : s.Negotiated e loader
  setting : x = s.setting.polyfilled

/-- Two worlds that are the same, but that the engine of the second does not know the string
builtins. -/
abbrev Counterparts (e : Engine) (loader : Option Loader) : World γ → World γ → Prop :=
  Twins (Polyfills e loader) (· = ·)

section Counterparts

variable {e : Engine} {loader : Option Loader} {v w : World γ} {name : String} {d : Description}
  {es : List Extern} {m : Machine γ} {note : Event → γ → γ}

theorem settled_polyfills : Settled (Polyfills e loader) := by
  rintro s s' x hev hsetting ⟨hs, rfl⟩
  obtain ⟨hengine, hcapabilities, hloader⟩ := hev.settled
  have hdeferred : s'.deferred = s.deferred := congrArg Setting.deferred hsetting
  refine ⟨⟨hengine.trans hs.engine, hcapabilities.trans hs.capabilities,
    hloader.trans hs.loader, fun l hl => hs.linker l (hdeferred ▸ hl)⟩, by rw [hsetting]⟩

theorem counterparts_iff :
    Counterparts e loader v w ↔ v.session.Negotiated e loader ∧ w = v.polyfilled := by
  constructor
  · exact fun h => ⟨h.setting.negotiated, eq_polyfilled_of_twins (fun s x h => h.setting) h⟩
  · rintro ⟨hv, rfl⟩
    exact ⟨rfl, ⟨hv, rfl⟩, rfl⟩

theorem Session.Negotiated.polyfilled {s : Session} (hs : s.Negotiated e loader) :
    s.polyfilled.Negotiated e.polyfilled loader where
  engine := by rw [engine_polyfilled, hs.engine]
  capabilities := e.probe_polyfilled.symm
  loader := hs.loader
  linker := hs.linker

/-- Sessions that are the same but for the engine are kin. -/
theorem Session.Negotiated.kin {s : Session} (hs : s.Negotiated e loader) :
    s.Kin e loader s.polyfilled := ⟨hs, hs.polyfilled, rfl, rfl⟩

theorem polyfilled_withDeferred (s : Session) (loads : DeferredLoads) (g : γ) :
    (⟨{ s with deferred := loads }, g⟩ : World γ).polyfilled
      = ⟨{ s.polyfilled with deferred := loads.plain }, g⟩ := rfl

/-! ### Requests in counterparts -/

/-- A request that obtains the same module leaves counterparts behind. -/
theorem counterparts_obtaining (h : Counterparts e loader v w)
    (hsame : w.session.obtains name = v.session.obtains name) :
    Counterparts e loader (v.obtaining note name) (w.obtaining note name) := by
  obtain ⟨hv, rfl⟩ := counterparts_iff.mp h
  have hk' : v.session.polyfilled.deferred.cached? name = v.session.deferred.cached? name := rfl
  have hl' : v.session.polyfilled.deferred.loader = v.session.deferred.loader := rfl
  have hsame' : v.session.polyfilled.obtains name = v.session.obtains name := hsame
  have hsession : v.session.polyfilled.obtaining name = (v.session.obtaining name).polyfilled := by
    unfold Session.obtains at hsame'
    rw [hk'] at hsame'
    unfold Session.obtaining
    rw [hk', hl']
    cases hk : v.session.deferred.cached? name with
    | some d => rfl
    | none =>
      -- the loader has been asked in both, and the same module is kept in both, or none
      simp only [hk] at hsame'
      rw [hsame']
      cases v.session.deferred.loader with
      | none => rfl
      | some l => cases v.session.provides name <;> rfl
  obtain ⟨loads, hobtaining, hloader, hlinker⟩ := v.session.obtaining_rest name
  refine counterparts_iff.mpr ⟨?_, ?_⟩
  · show (v.session.obtaining name).Negotiated e loader
    rw [hobtaining]
    exact hv.withDeferred hloader hlinker
  · show (⟨v.session.polyfilled.obtaining name, noting note name v⟩ : World γ) = _
    rw [hsession]
    rfl

/-- Records are added alike in both worlds. -/
theorem counterparts_push (h : Counterparts e loader v w) (name : String)
    (outcome : Except LoadError Instance) :
    Counterparts e loader
      (⟨{ v.session with
          deferred := v.session.deferred.push (.ended name e.probe outcome) }, v.guest⟩ : World γ)
      ⟨{ w.session with
          deferred := w.session.deferred.push (.ended name .none outcome) }, w.guest⟩ := by
  obtain ⟨hv, rfl⟩ := counterparts_iff.mp h
  -- a record says what the engine supports, so the two records are not the same
  have hplain : ((v.session.deferred.push (.ended name e.probe outcome)).plain)
      = v.session.deferred.plain.push (.ended name .none outcome) := by
    have hrecord : { LoadRecord.ended name e.probe outcome with capabilities := .none }
        = LoadRecord.ended name .none outcome := by cases outcome <;> rfl
    rw [Session.push_eq, Session.push_eq, ← hrecord]
    simp [DeferredLoads.plain, List.rtake, List.map_drop]
  refine counterparts_iff.mpr ⟨hv.withDeferred ?_ ?_, ?_⟩
  · rw [Session.push_eq]
  · rw [Session.push_eq]
  · refine Eq.trans ?_ (polyfilled_withDeferred _ _ _).symm
    rw [hplain]
    rfl

/-- A module is linked alike in both worlds, if what its start function calls ends alike. -/
theorem endsAlike_linkModule (h : Counterparts e loader v w)
    (hcall : ∀ l es f args, v.session.deferred.linker = some l →
      l.check v.session d.imports = .ok es → d.startCall? es = some (f, args) →
      Act.Respects (Counterparts e loader) (m.call f args)) :
    EndsAlike (Counterparts e loader) (linkModule m d v) (linkModule m d w) := by
  obtain ⟨hv, rfl⟩ := counterparts_iff.mp h
  have hread : ∀ u : World γ, linkModule m d u = _ := fun u =>
    bind_session _ u
  have hl' : v.polyfilled.session.deferred.linker = v.session.deferred.linker := rfl
  rw [hread v, hread v.polyfilled, hl']
  cases hl : v.session.deferred.linker with
  | none => exact .ok _ h
  | some l =>
    have hmake : EndsAlike (Counterparts e loader) (makeInstance m l d v)
        (makeInstance m l d v.polyfilled) :=
      EndsAlike.makeInstance settled_polyfills.linkingSteps h (Linker.check_congr rfl rfl _ _)
        fun es f args hes hf => hcall l es f args hl hes hf
    exact hmake.attempt.bind fun _ _ _ h => .ok _ h

/-- A request ends alike in both worlds, if it obtains the same module and what the start function
of that module calls ends alike. -/
theorem endsAlike_load (hnote : m.NotesBy note) (h : Counterparts e loader v w)
    (hsame : w.session.obtains name = v.session.obtains name)
    (hcall : ∀ d es f args, v.session.accepts? name = some (d, es) →
      d.startCall? es = some (f, args) → Act.Respects (Counterparts e loader) (m.call f args)) :
    EndsAlike (Counterparts e loader) (load m name v) (load m name w) := by
  have hserve : EndsAlike (Counterparts e loader)
      (serveRequest m name v.session.capabilities v)
      (serveRequest m name w.session.capabilities w) := by
    have hobtaining : Counterparts e loader (v.obtaining note name) (w.obtaining note name) :=
      counterparts_obtaining h hsame
    unfold serveRequest
    rw [bind_of_ok (obtainModule_eq hnote name v), bind_of_ok (obtainModule_eq hnote name w), hsame]
    cases hd : v.session.obtains name with
    | error e => exact .ok _ hobtaining
    | ok d =>
      refine endsAlike_linkModule hobtaining fun l es f args hl hes hf => ?_
      have haccepts : v.session.accepts? name = some (d, es) := by
        obtain ⟨loads, hrest, -, hlinker⟩ := v.session.obtaining_rest name
        have hl' : (v.session.obtaining name).deferred.linker = some l := hl
        have hes' : l.check (v.session.obtaining name) d.imports = .ok es := hes
        rw [hrest] at hl' hes'
        exact Session.accepts?_eq_some_iff.mpr ⟨hd, l, hlinker.symm.trans hl', hes'⟩
      exact hcall d es f args haccepts hf
  have hcapabilities : v.session.capabilities = e.probe ∧ w.session.capabilities = .none := by
    obtain ⟨hv, rfl⟩ := counterparts_iff.mp h
    exact ⟨hv.capabilities, rfl⟩
  rw [load_run_eq, load_run_eq]
  refine hserve.bind fun outcome v' w' h' => ?_
  rw [hcapabilities.1, hcapabilities.2]
  exact .ok outcome (counterparts_push h' name outcome)

/-- In both sessions the same is kept, and what is not kept is compiled alike and then checked. -/
theorem Session.Negotiated.obtainsChecked {s : Session} (hs : s.Negotiated e loader)
    (he : e.config.stringBuiltins = true) (name : String) :
    ObtainsChecked e name s s.polyfilled := by
  have hkept : s.polyfilled.deferred.cached? name = s.deferred.cached? name := rfl
  cases hk : s.deferred.cached? name with
  | some module =>
    have hsame : s.polyfilled.obtains name = s.obtains name := by
      rw [obtains, obtains, hkept, hk]
    exact fun d => ⟨hsame.trans, fun hd _ => hsame.symm.trans hd⟩
  | none =>
    refine obtainsChecked_of_eq ?_
    rw [obtains, obtains, hkept, hk]
    exact provides_eq he hs hs.polyfilled fun _ _ => rfl

/-- What becomes of a request in kin becomes of it in counterparts, and what they note is the
same. -/
theorem Counterparts.loadsAlike (hm : e.MatchesFunctions)
    (he : e.config.stringBuiltins = true) (hnote : m.NotesBy note)
    (h : Counterparts e loader v w) (name : String) :
    LoadsAlike e loader (· = ·) m name v w := by
  obtain ⟨hv, rfl⟩ := counterparts_iff.mp h
  exact .of_obtainsChecked hm hnote hv.kin (hv.obtainsChecked he name) ⟨hv.kin.obtaining name, rfl⟩

/-- In counterparts a module that can be linked is linked alike, if what its start function calls
ends alike. -/
theorem Counterparts.endsAlike_load (he : e.config.stringBuiltins = true) (hnote : m.NotesBy note)
    (h : Counterparts e loader v w) (hsome : v.session.accepts? name = some (d, es))
    (hcall : ∀ f args, d.startCall? es = some (f, args) →
      Act.Respects (Counterparts e loader) (m.call f args)) :
    EndsAlike (Counterparts e loader) (load m name v) (load m name w) := by
  obtain ⟨hv, rfl⟩ := counterparts_iff.mp h
  have hd := (Session.accepts?_eq_some_iff.mp hsome).1
  have hd' : v.polyfilled.session.obtains name = .ok d := (hv.obtainsChecked he name d).1 hd
  refine ModuleHost.endsAlike_load hnote h (hd'.trans hd.symm) fun d' es' f args hsome' hf => ?_
  cases hsome.symm.trans hsome'
  exact hcall f args hf

/-! ### Everything in counterparts -/

/-- Whatever a loader gives, if it compiles, declares its imports of string builtins rightly. -/
def WellDeclared (e : Engine) (loader : Option Loader) : Prop :=
  ∀ l asked name source d, loader = some l → l.load asked name = .ok source →
    e.polyfilled.compileSource e.polyfilled.probe source = .ok d →
    d.imports.forM Engine.checkBuiltin = .ok ⟨⟩

theorem Session.Negotiated.obtains_of_wellDeclared {s : Session} (hs : s.Negotiated e loader)
    (he : e.config.stringBuiltins = true) (hdeclared : WellDeclared e loader) (name : String) :
    s.polyfilled.obtains name = s.obtains name := by
  have hkept : s.polyfilled.deferred.cached? name = s.deferred.cached? name := rfl
  unfold obtains
  rw [hkept]
  cases s.deferred.cached? name with
  | some d => rfl
  | none =>
    simp only
    rw [provides_eq he hs hs.polyfilled fun _ _ => rfl]
    cases hd : s.polyfilled.provides name with
    | error e => rfl
    | ok d =>
      obtain ⟨l, source, hl, hload, hcompiles⟩ := exists_source_of_provides hd
      rw [hs.polyfilled.engine, hs.polyfilled.capabilities] at hcompiles
      have hchecked := e.checkBuiltins_of_ok
        (hdeclared l _ name source d (hs.polyfilled.loader ▸ hl) hload hcompiles)
      show _ = (e.checkBuiltins d).mapError _
      rw [hchecked]
      rfl

/-- If every module that the loader offers declares its imports of string builtins rightly, the
machine of code that does not tell the two worlds apart does not, by induction on the depth of
calls. -/
theorem Code.respects_machine_counterparts (he : e.config.stringBuiltins = true)
    (hdeclared : WellDeclared e loader) {c : Code γ} (hc : c.Respects (Counterparts e loader))
    (hnote : c.NotesBy note) (depth : ℕ) :
    (c.machine depth).Respects (Counterparts e loader) ∧
      ∀ name, Act.Respects (Counterparts e loader) (load (c.machine depth) name) := by
  have hload : ∀ depth, (c.machine depth).Respects (Counterparts e loader) →
      ∀ name, Act.Respects (Counterparts e loader) (load (c.machine depth) name) := by
    intro depth hm name v w h
    obtain ⟨hv, rfl⟩ := counterparts_iff.mp h
    exact endsAlike_load (hnote.machine depth) h (hv.obtains_of_wellDeclared he hdeclared name)
      fun _ _ f args _ _ => hm.call f args
  have hm := hc.machine settled_polyfills hload depth
  exact ⟨hm, hload depth hm⟩

end Counterparts

/-! ### The main theorem -/

section Interchangeable

variable {e : Engine} {loader : Option Loader} {c : Code γ} {depth : ℕ} {g : γ}
  {bytes : List UInt8} {d : Description} {w : World γ}

/-- The imports of an opened module are what they are wherever string builtins are bound, and the
instance of the session is made of them. -/
theorem Engine.Opens.exists_bound (hmatches : e.MatchesFunctions)
    (hbinds : e.config.stringPolyfill = true)
    (h : e.Opens (c.machine depth) loader g bytes d w) :
    ∃ es own, List.Forall₂ Import.BoundTo d.imports es ∧
      (∀ b : TextBinding, b ≠ .absent →
        (primaryLinker (sharedLinker b [])).resolveAll d.imports = .ok es) ∧
      w.session.primary = some ((⟨es, own⟩ : Parts).toInstance d.exports) := by
  obtain ⟨es, own, hes, hprimary, -⟩ := exists_check_of_linkPrimary h.links
  have hb : bindingOf e.probe e.config ≠ .absent := bindingOf_ne_absent hbinds _
  refine ⟨es, own, boundTo_of_check hmatches (Linker.bindsText_primaryLinker hb) hes,
    fun b hb' => ?_, hprimary⟩
  obtain ⟨es', hresolve, hrest⟩ := exists_of_bind_eq_ok hes
  obtain ⟨⟨⟩, -, hrest⟩ := exists_of_bind_eq_ok hrest
  cases hrest
  rw [sharedLinker_of_ne_absent hb', ← sharedLinker_of_ne_absent hb]
  exact hresolve

/-- A session in which a module has been opened goes by what its engine turned out to support. -/
theorem Engine.Opens.negotiated (hbinds : e.config.stringPolyfill = true)
    (h : e.Opens (c.machine depth) loader g bytes d w) : w.session.Negotiated e loader := by
  obtain ⟨hengine, hcapabilities, hloader⟩ := (h.evolves hbinds).settled
  obtain ⟨_, _, -, -, i, hlinker⟩ := exists_check_of_linkPrimary h.links
  refine ⟨hengine, hcapabilities, hloader, fun l hl => ?_⟩
  rw [hlinker] at hl
  cases hl
  exact Linker.bindsText_deferredLinker (bindingOf_ne_absent hbinds _) i

theorem Engine.Opens.reachable (hbinds : e.config.stringPolyfill = true)
    (h : e.Opens (c.machine depth) loader g bytes d w) : w.session.Reachable :=
  ⟨_, _, _, h.evolves hbinds⟩

/-- How sessions with native string builtins and sessions with string builtins bound as host
functions compare. -/
structure Interchangeable (e : Engine) (c : Code γ) (depth : ℕ) (loader : Option Loader) :
    Prop where
  /-- Bytes are opened by the one engine exactly when they are opened by the other, as the same
  module, and the worlds that are left are the same but for the setting of the session. -/
  opens : ∀ g bytes d w', e.polyfilled.Opens (c.machine depth) loader g bytes d w' ↔
    ∃ w, e.Opens (c.machine depth) loader g bytes d w ∧ w' = w.polyfilled
  /-- The imports of string builtins stand for the builtins of their names, whichever way these
  are bound, and the instance of the session is made of what the imports stand for. -/
  bound : ∀ g bytes d w, e.Opens (c.machine depth) loader g bytes d w →
    ∃ es own, List.Forall₂ Import.BoundTo d.imports es ∧
      (∀ b : TextBinding, b ≠ .absent →
        (primaryLinker (sharedLinker b [])).resolveAll d.imports = .ok es) ∧
      w.session.primary = some ((⟨es, own⟩ : Parts).toInstance d.exports)
  /-- The opened sessions are counterparts, and so they are kin. -/
  related : ∀ g bytes d w, e.Opens (c.machine depth) loader g bytes d w →
    Counterparts e loader w w.polyfilled ∧ w.session.Kin e loader w.polyfilled.session ∧
      w.session.Reachable ∧ w.polyfilled.session.Reachable
  /-- In counterparts, a request links a module exactly if it does in the other, and then it ends
  alike. -/
  linked : ∀ note, c.NotesBy note → ∀ v w : World γ, Counterparts e loader v w → ∀ name,
    LoadsAlike e loader (· = ·) (c.machine depth) name v w ∧
    ∀ d es, v.session.accepts? name = some (d, es) →
      (∀ f args, d.startCall? es = some (f, args) →
        Act.Respects (Counterparts e loader) ((c.machine depth).call f args)) →
      EndsAlike (Counterparts e loader) (load (c.machine depth) name v)
        (load (c.machine depth) name w)
  /-- In kin, a request links a module exactly if it does in the other, when the loader gives the
  same. -/
  offered : ∀ note G, c.NotesBy note → Silent note G → ∀ v w : World γ, Kin e loader G v w →
    ∀ name answer, v.session.Offers name answer → w.session.Offers name answer →
      LoadsAlike e loader G (c.machine depth) name v w
  /-- So do all requests of a sequence, whatever is rejected on the way, when the loader always
  answers in the same way. -/
  requested : ∀ note G, c.NotesBy note → Silent note G → c.Sandboxed →
    (∀ l, loader = some l → l.Functional) → ∀ v w : World γ, Kin e loader G v w →
    v.session.Reachable → w.session.Reachable →
      (∀ name, LoadsAlike e loader G (c.machine depth) name v w) ∧
      (StartsAlike e loader (Kin e loader G) (c.machine depth) → ∀ names : List String,
        EndsRelated (List.Forall₂ SameOutcome) (Kin e loader G)
          (names.mapM (load (c.machine depth)) v) (names.mapM (load (c.machine depth)) w))
  /-- Unless a module with a wrong import of a string builtin is offered, everything ends alike in
  counterparts. -/
  declared : ∀ note, c.NotesBy note → WellDeclared e loader → c.Respects (Counterparts e loader) →
    (∀ {α : Type} {x : Act γ α}, Orderly (c.machine depth) x →
      Act.Respects (Counterparts e loader) x) ∧
    ∀ names : List String,
      Act.Respects (Counterparts e loader) (names.mapM (load (c.machine depth)))

/-- If the string builtins are bound in any case, and functions are compared by their types, whether
the engine knows them makes no difference to which modules are linked and to what their imports
stand for. -/
theorem bindings_are_interchangeable (hmatches : e.MatchesFunctions)
    (hknows : e.config.stringBuiltins = true) (hbinds : e.config.stringPolyfill = true)
    (c : Code γ) (depth : ℕ) (loader : Option Loader) :
    Interchangeable e c depth loader where
  opens _ _ _ _ := opens_polyfilled_iff hmatches hknows hbinds depth
  bound _ _ _ _ h := h.exists_bound hmatches hbinds
  related g bytes d w h := by
    have hw := h.negotiated hbinds
    have hpolyfilled := (opens_polyfilled_iff hmatches hknows hbinds depth).mpr ⟨w, h, rfl⟩
    exact ⟨counterparts_iff.mpr ⟨hw, rfl⟩, hw.kin, h.reachable hbinds,
      hpolyfilled.reachable (e := e.polyfilled) hbinds⟩
  linked note hnote v w h name := by
    have hnoted := hnote.machine depth
    exact ⟨h.loadsAlike hmatches hknows hnoted name, fun d es => h.endsAlike_load hknows hnoted⟩
  offered note G hnote hsilent v w h name answer hv hw :=
    .of_obtainsChecked hmatches (hnote.machine depth) h.session
      (h.session.obtainsChecked_of_offers hknows hv hw) (h.obtaining hsilent name)
  requested note G hnote hsilent hc hf v w h hv hw := by
    have hnoted := hnote.machine depth
    refine ⟨fun name => ?_, fun hcall names => ?_⟩
    · exact .of_obtainsChecked hmatches hnoted h.session
        (h.session.obtainsChecked_of_functional hknows hv hw hf name) (h.obtaining hsilent name)
    · exact h.mapM_load hmatches hknows (hc.machine depth) hnoted hsilent hf hcall names hv hw
  declared note hnote hdeclared hc := by
    obtain ⟨hm, hload⟩ := Code.respects_machine_counterparts hknows hdeclared hc hnote depth
    exact ⟨fun hx => hx.respects settled_polyfills hm, fun names => .mapM hload names⟩

end Interchangeable

/-- A module that loads another one and, if that fails, looks for a hundred and first character in
what it is told. -/
def inspecting : Code Unit := releaseCode fun m _ => do
  let [.ref error] ← m.call .loadModule [.ref (.host (.string (.ofString "misdeclaring")))] | return
  let [.ref message] ← m.call (.host .errorMessage) [.ref error] | return
  let _ ← m.call (.builtin .charCodeAt) [.ref message, .i32 100]

/-- What that module declares. -/
def listening : Description :=
  { Description.empty with
    imports :=
      [⟨deferredSpace, loadModuleName, .func ⟨[.externref], [.externref]⟩⟩,
        ⟨HostFunc.space, "error_message", .func ⟨[.externref], [.externref]⟩⟩,
        ⟨TextBuiltin.space, "charCodeAt", .func TextBuiltin.charCodeAt.type⟩]
    exports := [⟨"$invokeCallback", .own ⟨[.i32], []⟩⟩] }

/-- A module that imports a string builtin. -/
def measuring : Description :=
  { Description.empty with
    imports := [⟨TextBuiltin.space, "length", .func TextBuiltin.length.type⟩] }

/-- A module that imports a string builtin that there is not. -/
def misdeclaring : Description :=
  { Description.empty with imports := [⟨TextBuiltin.space, "x", .func ⟨[], []⟩⟩] }

/-- An engine that can read these modules and one that runs the callback of the primary one. -/
def readingEngine : Engine :=
  .standard .default
    ⟨[([1], listening), ([2], measuring), ([3], startingCallback), ([4], misdeclaring)]⟩ true

/-- A session with the first of them, and modules to load. -/
def listeningWorld (modules : List (String × List UInt8)) : World Unit :=
  final (linkPrimary (inspecting.machine 6) listening [])
    ⟨.new readingEngine readingEngine.probe (some (.static modules)), ()⟩

theorem opens_listening (modules : List (String × List UInt8)) :
    readingEngine.Opens (inspecting.machine 6) (some (.static modules)) () [1] listening
      (listeningWorld modules) where
  compiles := rfl
  declares := rfl
  links := rfl

theorem inspecting_respects {K : Session → Setting → Prop} {G : Unit → Unit → Prop} :
    inspecting.Respects (Twins K G) where
  own m hm _ _ args := by
    unfold inspecting releaseCode
    simp only
    split
    · refine ((hm.call _ _).bind fun results => ?_).bind fun _ => .pure _
      split
      · refine (hm.call _ _).bind fun results => ?_
        split
        · exact (hm.call _ _).bind fun _ => .pure _
        · exact .pure _
      · exact .pure _
    · exact .pure _
  supplied _ _ _ _ _ := .pure _
  native _ _ := .pure _
  note _ := .pure _

theorem inspecting_sandboxed : inspecting.Sandboxed := by
  refine releaseCode_sandboxed fun m hm _ => (hm.call _ _).bind fun results => ?_
  split
  · refine (hm.call _ _).bind fun results => ?_
    split
    · exact (hm.call _ _).bind fun _ => .pure _
    · exact .pure _
  · exact .pure _

theorem inspecting_notesBy : inspecting.NotesBy fun _ => id := fun _ _ => rfl

/-- The bytes that a table of modules offers are in it. -/
theorem Loader.mem_of_static_load {modules : List (String × List UInt8)} {asked : List String}
    {name : String} {source : Source}
    (h : (Loader.static modules).load asked name = .ok source) :
    ∃ bytes, (name, bytes) ∈ modules ∧ source = .bytes bytes := by
  unfold Loader.load at h
  simp only at h
  split at h
  · rename_i bytes hlookup
    cases h
    obtain ⟨before, after, rfl, -⟩ := List.lookup_eq_some_iff.mp hlookup
    exact ⟨bytes, by simp, rfl⟩
  · cases h

/-- A table of modules of which one imports a string builtin and one imports a string builtin that
there is not. -/
def offeredModules : List (String × List UInt8) := [("misdeclaring", [4]), ("measuring", [2])]

/-- What the latter table offers has no start function. -/
theorem startsAlike_offeredModules {T : World Unit → World Unit → Prop} {m : Machine Unit} :
    StartsAlike readingEngine (some (.static offeredModules)) T m := by
  intro s name d es f args hs hreachable hd hcall
  obtain ⟨l, asked, source, bytes, hl, hload, hread, hcompile⟩ :=
    hreachable.compiles_of_obtains (Session.accepts?_eq_some_iff.mp hd).1
  rw [hs.loader] at hl
  cases hl
  rw [hs.engine] at hread hcompile
  rw [hs.capabilities] at hcompile
  obtain ⟨bytes', hmem, rfl⟩ := Loader.mem_of_static_load hload
  cases hread
  have hmisdeclaring : ∃ cause, readingEngine.compile [4] readingEngine.probe = .error cause :=
    ⟨_, rfl⟩
  have hmeasuring : readingEngine.compile [2] readingEngine.probe = .ok measuring := rfl
  rcases List.mem_cons.mp hmem with hbad | hgood
  · obtain ⟨cause, hcause⟩ := hmisdeclaring
    obtain ⟨rfl, rfl⟩ := Prod.mk.inj hbad
    cases hcause.symm.trans hcompile
  · obtain ⟨rfl, rfl⟩ := Prod.mk.inj (List.mem_singleton.mp hgood)
    cases hmeasuring.symm.trans hcompile
    cases hcall

theorem wellDeclared_measuring :
    WellDeclared readingEngine (some (.static [("measuring", [2])])) := by
  rintro l asked name source d ⟨⟩ hload hd
  obtain ⟨bytes, hmem, rfl⟩ := Loader.mem_of_static_load hload
  obtain ⟨rfl, rfl⟩ := Prod.mk.inj (List.mem_singleton.mp hmem)
  have hmeasuring : readingEngine.polyfilled.compileSource readingEngine.polyfilled.probe
      (.bytes [2]) = .ok measuring := rfl
  rw [hmeasuring] at hd
  cases hd
  rfl

theorem bindings_are_interchangeable_measuring :
    let m := inspecting.machine 6
    let offered : Option Loader := some (.static offeredModules)
    let w := listeningWorld offeredModules
    let declared : Option Loader := some (.static [("measuring", [2])])
    ((readingEngine.MatchesFunctions ∧ readingEngine.config.stringBuiltins = true ∧
        readingEngine.config.stringPolyfill = true) ∧
      readingEngine.Opens m offered () [1] listening w ∧
      (inspecting.NotesBy (fun _ => id) ∧ Silent (fun _ => (id : Unit → Unit)) (· = ·)) ∧
      inspecting.Sandboxed ∧ (∀ l, offered = some l → l.Functional) ∧
      StartsAlike readingEngine offered (Kin readingEngine offered (· = ·)) m ∧
      WellDeclared readingEngine declared ∧
      inspecting.Respects (Counterparts readingEngine declared)) ∧
    readingEngine.polyfilled.Opens m offered () [1] listening w.polyfilled ∧
    (∃ es own, List.Forall₂ Import.BoundTo listening.imports es ∧
      w.session.primary = some ((⟨es, own⟩ : Parts).toInstance listening.exports)) ∧
    w.polyfilled.session.accepts? "measuring"
      = some (measuring, [.func (.builtin .length)]) ∧
    EndsAlike (Counterparts readingEngine offered) (load m "measuring" w)
      (load m "measuring" w.polyfilled) ∧
    EndsRelated (List.Forall₂ SameOutcome) (Kin readingEngine offered (· = ·))
      (["misdeclaring", "measuring"].mapM (load m) w)
      (["misdeclaring", "measuring"].mapM (load m) w.polyfilled) ∧
    Act.Respects (Counterparts readingEngine declared) (["measuring", "absent"].mapM (load m)) := by
  intro m offered w declared
  have hmatches : readingEngine.MatchesFunctions := Engine.standard_matchesFunctions _ _ _
  have hsame : Interchangeable readingEngine inspecting 6 offered :=
    bindings_are_interchangeable hmatches rfl rfl inspecting 6 offered
  have hdeclared : Interchangeable readingEngine inspecting 6 declared :=
    bindings_are_interchangeable hmatches rfl rfl inspecting 6 declared
  have hw : readingEngine.Opens m offered () [1] listening w := opens_listening _
  have hsilent : Silent (fun _ => (id : Unit → Unit)) (· = ·) := fun _ _ _ _ h => ⟨h, h⟩
  have hfunctional : ∀ l, offered = some l → l.Functional := by
    intro l hl asked asked' name
    rw [← Option.some.inj hl]
    rfl
  obtain ⟨es, own, hbound, -, hprimary⟩ := hsame.bound _ _ _ _ hw
  obtain ⟨hcounterparts, hkin, hreachable, hreachable'⟩ := hsame.related _ _ _ _ hw
  obtain ⟨hname, hlinked⟩ := hsame.linked _ inspecting_notesBy _ _ hcounterparts "measuring"
  obtain ⟨-, hnames⟩ := hsame.requested _ _ inspecting_notesBy hsilent inspecting_sandboxed
    hfunctional w w.polyfilled ⟨hkin, rfl⟩ hreachable hreachable'
  refine ⟨⟨⟨hmatches, rfl, rfl⟩, hw, ⟨inspecting_notesBy, hsilent⟩, inspecting_sandboxed,
      hfunctional, startsAlike_offeredModules, wellDeclared_measuring, inspecting_respects⟩,
    (hsame.opens _ _ _ _).mpr ⟨w, hw, rfl⟩, ⟨es, own, hbound, hprimary⟩, ?_,
    hlinked measuring _ rfl nofun, hnames startsAlike_offeredModules _,
    (hdeclared.declared _ inspecting_notesBy wellDeclared_measuring inspecting_respects).2 _⟩
  rw [hname.accepts]
  rfl

/-- Whether a request links a module, if it returns. -/
def links? (name : String) (w : World Unit) : Option Bool :=
  match load (inspecting.machine 6) name w with
  | .ok outcome _ => some outcome.isOk
  | .error _ _ => none

/-- A session in which that callback loads a module whose import of a string builtin is wrong. -/
def inspectedWorld : World Unit := listeningWorld [("starting", [3]), ("misdeclaring", [4])]

theorem links?_starting : links? "starting" inspectedWorld = some false := by decide +kernel

theorem links?_starting_polyfilled : links? "starting" inspectedWorld.polyfilled = some true := by
  decide +kernel

/-- The stage at which a module is rejected can be told from what its rejection says, and code that
looks at that can make another load succeed in one session and fail in the other. -/
theorem rejections_are_told_apart :
    (links? "starting" inspectedWorld = some false ∧
      links? "starting" inspectedWorld.polyfilled = some true) ∧
    ¬ ∀ (e : Engine) (c : Code Unit) (depth : ℕ) (loader : Option Loader) (bytes : List UInt8)
      (d : Description) (w : World Unit), e.MatchesFunctions → e.config.stringBuiltins = true →
      e.config.stringPolyfill = true → e.Opens (c.machine depth) loader () bytes d w →
      ∀ name, (∃ i w', load (c.machine depth) name w = .ok (.ok i) w') ↔
        ∃ i w', load (c.machine depth) name w.polyfilled = .ok (.ok i) w' := by
  refine ⟨⟨links?_starting, links?_starting_polyfilled⟩, fun h => ?_⟩
  have hsame := h readingEngine inspecting 6 _ [1] listening inspectedWorld
    (Engine.standard_matchesFunctions _ _ _) rfl rfl (opens_listening _) "starting"
  have hlinks := links?_starting_polyfilled
  have hfails := links?_starting
  unfold links? at hlinks hfails
  split at hlinks
  · rename_i outcome w' hload
    cases outcome with
    | error f => cases hlinks
    | ok i =>
      obtain ⟨i', w'', hload'⟩ := hsame.mpr ⟨i, w', hload⟩
      rw [hload'] at hfails
      cases hfails
  · cases hlinks

end ModuleHost
