/-
A request without its record.

`load` walks a record through the states of a request and stops at the first step that fails.
Told without the record, a request obtains a compiled module, kept or new, links it, and leaves one
record that says how it ended.

* `load_eq` — the two are the same, so nothing later looks at the states on the way;
* `obtainModule`, `linkModule` — the two halves, each with the errors it can end in.

Design notes: no step is ever refused for its state, so `invalidTransition` is an error of neither
half.
-/
import Mathlib
import ModuleHost.Proofs.Session.Evolving

namespace ModuleHost

open Act

variable {γ α β : Type}

/-! ### The steps -/

/-- How a loader's answer is noted. -/
def LoaderAnswer.of : Source → LoaderAnswer
  | .bytes _ => .bytes
  | .stream _ => .stream

/-- Ask the loader for a name. -/
def askLoader (m : Machine γ) (name : String) : Act γ (Except LoadError Source) := do
  let deferred := (← session).deferred
  match deferred.loader with
  | none => return .error .noLoader
  | some loader =>
    modifySession fun s => { s with deferred := s.deferred.ask name }
    match loader.load deferred.asked name with
    | .ok source =>
      m.note (.load name (.of source))
      return .ok source
    | .error report =>
      m.note (.load name .refused)
      return .error (.fetch report)

/-- What a source compiles to. -/
def Engine.compileSource (e : Engine) (c : Capabilities) (source : Source) :
    Except LoadError Description :=
  match source.read e.config.chunkSize with
  | .error text => .error (.source text)
  | .ok bytes => (e.compile bytes c).mapError .compile

theorem Engine.ne_invalidTransition_of_compileSource {e : Engine} {c : Capabilities}
    {source : Source} {error : LoadError} (h : e.compileSource c source = .error error)
    (before after : LoadState) : error ≠ .invalidTransition before after := by
  rintro rfl
  unfold compileSource at h
  split at h
  · cases h
  · cases hd : e.compile _ c with
    | error report => rw [hd] at h; cases h
    | ok d => rw [hd] at h; cases h

/-- Compile what the loader gave for a name, and keep it. -/
def compileAndKeep (name : String) (c : Capabilities) :
    Except LoadError Source → Act γ (Except LoadError Description)
  | .error e => return .error e
  | .ok source => do
    match (← session).engine.compileSource c source with
    | .error e => return .error e
    | .ok module =>
      modifySession fun s => { s with deferred := s.deferred.keep name module }
      return .ok module

/-- Compile a module that is not kept. -/
def obtainNew (m : Machine γ) (name : String) (c : Capabilities) :
    Act γ (Except LoadError Description) := do
  compileAndKeep name c (← askLoader m name)

/-- The compiled module of a name: the one that is kept, or else a new one. -/
def obtainModule (m : Machine γ) (name : String) (c : Capabilities) :
    Act γ (Except LoadError Description) := do
  match (← session).deferred.cached? name with
  | some module => return .ok module
  | none => obtainNew m name c

/-- Link a compiled module against the primary instance. -/
def linkModule (m : Machine γ) (module : Description) : Act γ (Except LoadError Instance) := do
  match (← session).deferred.linker with
  | none => return .error (.link (.of "primary instance is not linked"))
  | some linker =>
    let linked ← attempt (makeInstance m linker module)
    return linked.mapError fun e => .link e.report

/-- Obtain a module and link it. -/
def serveRequest (m : Machine γ) (name : String) (c : Capabilities) :
    Act γ (Except LoadError Instance) := do
  match ← obtainModule m name c with
  | .error e => return .error e
  | .ok module => linkModule m module

/-- The record of a request that is over. -/
def LoadRecord.ended (name : String) (c : Capabilities) : Except LoadError Instance → LoadRecord
  | .ok i => ⟨name, .linked, c, some i, none⟩
  | .error e => ⟨name, .failed, c, none, some e.message⟩

theorem LoadRecord.finished_ended (name : String) (c : Capabilities)
    (outcome : Except LoadError Instance) : (LoadRecord.ended name c outcome).Finished := by
  cases outcome with
  | ok i => exact ⟨rfl, ⟨fun _ => rfl, fun _ => rfl⟩, ⟨fun _ => rfl, fun _ => rfl⟩⟩
  | error e => exact ⟨rfl, ⟨nofun, nofun⟩, ⟨nofun, nofun⟩⟩

/-! ### Running with a record -/

/-- The record after a part of a request that has ended so. -/
def LoadRecord.closed (r : LoadRecord) : Except LoadError α → LoadRecord
  | .ok _ => r
  | .error e => r.fail e

/-- Failing in another state comes to the same, as long as the request is not over. -/
theorem LoadRecord.fail_withState {r : LoadRecord} (state : LoadState) (e : LoadError)
    (hr : r.state.isTerminal = false) (hs : state.isTerminal = false) :
    { r with state }.fail e = r.fail e := by
  simp [LoadRecord.fail, hr, hs]

namespace Loading

/-- A part of a request run from a record: its outcome, and the record after it, which is closed
if the part failed. -/
def runOn (x : Loading γ α) (r : LoadRecord) : Act γ (Except LoadError α × LoadRecord) := do
  let (outcome, r) ← (ExceptT.run x).run r
  return (outcome, r.closed outcome)

variable {x : Loading γ α} {f : α → Loading γ β} {r : LoadRecord} {m : Machine γ}

theorem runOn_bind :
    runOn (x >>= f) r = runOn x r >>= fun (outcome, r) =>
      match outcome with
      | .ok a => runOn (f a) r
      | .error e => pure (.error e, r) := by
  unfold runOn
  rw [bind_assoc]
  show ((ExceptT.run x).run r >>= fun out => StateT.run (ExceptT.bindCont f out.1) out.2) >>= _ = _
  rw [bind_assoc]
  refine bind_congr fun out => ?_
  obtain ⟨outcome, r⟩ := out
  cases outcome with
  | ok a => rfl
  | error e => rfl

theorem runOn_ofExcept (y : Except LoadError α) :
    runOn (ofExcept y : Loading γ α) r = pure (y, r.closed y) := rfl

theorem runOn_pure (a : α) : runOn (pure a : Loading γ α) r = pure (.ok a, r) := rfl

theorem runOn_record : runOn (record : Loading γ LoadRecord) r = pure (.ok r, r) := rfl

theorem runOn_onSession (y : Act γ α) :
    runOn (onSession y) r = y >>= fun a => pure (.ok a, r) := by
  show ((y >>= fun a => pure (a, r)) >>= fun out : α × LoadRecord =>
    pure (Except.ok out.1, out.2)) >>= _ = _
  rw [bind_assoc, bind_assoc]
  rfl

/-- A step that the state allows. -/
theorem runOn_advance {next : LoadState} (h : r.state.canAdvance next = true) :
    runOn (advance next : Loading γ Unit) r = pure (.ok (), { r with state := next }) := by
  have hok : r.advance next = .ok { r with state := next } := by rw [LoadRecord.advance, if_pos h]
  unfold advance
  rw [runOn_bind, runOn_record, pure_bind]
  show runOn (ofExcept (r.advance next) >>= _) r = _
  rw [runOn_bind, hok]
  rfl

theorem runOn_fetch (name : String) :
    runOn (fetch m name) r
      = askLoader m name >>= fun outcome => pure (outcome, r.closed outcome) := by
  unfold fetch askLoader
  rw [runOn_bind, runOn_onSession, bind_assoc, bind_assoc]
  refine bind_congr fun s => ?_
  rw [pure_bind]
  simp only
  cases hl : s.deferred.loader with
  | none => rfl
  | some loader =>
    simp only [runOn_bind, runOn_onSession, bind_assoc, pure_bind]
    refine bind_congr fun _ => ?_
    cases ha : loader.load s.deferred.asked name with
    | ok source =>
      cases source <;>
        simp only [runOn_bind, runOn_onSession, runOn_pure, bind_assoc, pure_bind] <;> rfl
    | error report =>
      simp only [runOn_bind, runOn_onSession, runOn_ofExcept, bind_assoc, pure_bind]

theorem runOn_compileNew (name : String) (hr : r.state = .fetching) :
    runOn (compileNew m name) r = obtainNew m name r.capabilities >>= fun outcome =>
      pure (outcome, ({ r with state := .compiling } : LoadRecord).closed outcome) := by
  unfold compileNew obtainNew compileAndKeep
  rw [runOn_bind, runOn_fetch, bind_assoc, bind_assoc]
  refine bind_congr fun fetched => ?_
  cases fetched with
  | error e =>
    have hfail := LoadRecord.fail_withState (r := r) .compiling e (by rw [hr]; rfl) rfl
    simp only [pure_bind, LoadRecord.closed, hfail]
  | ok source =>
    have hadvance : r.state.canAdvance .compiling = true := by
      rw [hr]
      rfl
    simp only [pure_bind, LoadRecord.closed, runOn_bind, runOn_advance hadvance, runOn_onSession,
      bind_assoc, runOn_ofExcept, runOn_record, runOn_pure]
    refine bind_congr fun s => ?_
    cases hb : source.read s.engine.config.chunkSize with
    | error text =>
      simp only [Engine.compileSource, hb]
      rfl
    | ok bytes =>
      cases hd : s.engine.compile bytes r.capabilities with
      | error report =>
        simp only [Engine.compileSource, hb, hd, Except.mapError, pure_bind]
      | ok module =>
        simp only [Engine.compileSource, hb, hd, Except.mapError, pure_bind, bind_assoc]

theorem runOn_compiled (name : String) (hr : r.state = .fetching) :
    runOn (compiled m name) r = obtainModule m name r.capabilities >>= fun outcome =>
      pure (outcome, ({ r with state := .compiling } : LoadRecord).closed outcome) := by
  have hadvance : r.state.canAdvance .compiling = true := by
    rw [hr]
    rfl
  unfold compiled obtainModule
  rw [runOn_bind, runOn_onSession, bind_assoc, bind_assoc]
  refine bind_congr fun s => ?_
  rw [pure_bind]
  cases hc : s.deferred.cached? name with
  | some module =>
    simp only [hc, runOn_bind, runOn_advance hadvance, runOn_pure, pure_bind, LoadRecord.closed]
  | none =>
    simp only [hc]
    exact runOn_compileNew name hr

theorem runOn_link (module : Description) :
    runOn (link m module) r
      = linkModule m module >>= fun outcome => pure (outcome, r.closed outcome) := by
  unfold link linkModule
  rw [runOn_bind, runOn_onSession, bind_assoc, bind_assoc]
  refine bind_congr fun s => ?_
  rw [pure_bind]
  cases hl : s.deferred.linker with
  | none => simp only [hl, runOn_ofExcept, pure_bind]
  | some linker =>
    simp only [hl, runOn_bind, runOn_onSession, runOn_ofExcept, bind_assoc, pure_bind]

theorem runOn_serve (name : String) (c : Capabilities) :
    runOn (serve m name) (.begin name c) = serveRequest m name c >>= fun outcome =>
      pure (outcome, .ended name c outcome) := by
  unfold serve serveRequest
  rw [runOn_bind, runOn_advance rfl, pure_bind, bind_assoc]
  simp only
  rw [runOn_bind, runOn_compiled name rfl, bind_assoc]
  refine bind_congr fun obtained => ?_
  cases obtained with
  | error e => rfl
  | ok module =>
    simp only [pure_bind, LoadRecord.closed]
    rw [runOn_bind, runOn_advance rfl, pure_bind]
    simp only
    rw [runOn_bind, runOn_link, bind_assoc]
    refine bind_congr fun linked => ?_
    cases linked with
    | error e => rfl
    | ok i => rfl

end Loading

/-! ### Asking the loader -/

/-- The world in which the loader is being asked for a name. -/
def asking (name : String) (w : World γ) : World γ :=
  ⟨{ w.session with deferred := w.session.deferred.ask name }, w.guest⟩

/-- What is noted of a loader's answer. -/
def answerOf : Except Report Source → LoaderAnswer
  | .ok source => .of source
  | .error _ => .refused

section Asking

variable {m : Machine γ} {name : String} {c : Capabilities} {w : World γ}

theorem askLoader_of_none (hl : w.session.deferred.loader = none) :
    askLoader m name w = .ok (.error .noLoader) w := by
  refine (bind_session _ w).trans ?_
  rw [hl]
  rfl

theorem askLoader_of_some {loader : Loader} (hl : w.session.deferred.loader = some loader) :
    askLoader m name w = (do
      m.note (.load name (answerOf (loader.load w.session.deferred.asked name)))
      return (loader.load w.session.deferred.asked name).mapError LoadError.fetch) (asking name w) := by
  refine (bind_session _ w).trans ?_
  rw [hl]
  have hask : (modifySession (fun s => { s with deferred := s.deferred.ask name }) : Act γ Unit) w
      = .ok ⟨⟩ (asking name w) := rfl
  refine (bind_of_ok hask _).trans ?_
  cases loader.load w.session.deferred.asked name with
  | ok source => rfl
  | error report => rfl

theorem compileAndKeep_of_error {source : Source} {e : LoadError}
    (he : w.session.engine.compileSource c source = .error e) :
    compileAndKeep name c (.ok source) w = .ok (.error e) w := by
  refine (bind_session _ w).trans ?_
  rw [he]
  rfl

theorem compileAndKeep_of_ok {source : Source} {module : Description}
    (hm : w.session.engine.compileSource c source = .ok module) :
    compileAndKeep name c (.ok source) w = .ok (.ok module)
      ⟨{ w.session with deferred := w.session.deferred.keep name module }, w.guest⟩ := by
  refine (bind_session _ w).trans ?_
  rw [hm]
  rfl

theorem obtainModule_of_cached {module : Description}
    (hc : w.session.deferred.cached? name = some module) :
    obtainModule m name c w = .ok (.ok module) w := by
  refine (bind_session _ w).trans ?_
  rw [hc]
  rfl

theorem obtainModule_of_not_cached (hc : w.session.deferred.cached? name = none) :
    obtainModule m name c w = (askLoader m name >>= compileAndKeep name c) w := by
  refine (bind_session _ w).trans ?_
  rw [hc]
  rfl

end Asking

/-! ### The whole request -/

/-- A request serves the name and leaves one record that says how it ended. -/
theorem load_eq (m : Machine γ) (name : String) :
    load m name = (do
      let begun ← session
      let outcome ← serveRequest m name begun.capabilities
      modifySession fun s =>
        { s with deferred := s.deferred.push (.ended name begun.capabilities outcome) }
      return outcome) := by
  refine bind_congr fun begun => ?_
  have hserve := Loading.runOn_serve (m := m) name begun.capabilities
  rw [Loading.runOn] at hserve
  have hpush := congrArg (· >>= fun out : Except LoadError Instance × LoadRecord => do
    modifySession fun s => { s with deferred := s.deferred.push out.2 }
    return out.1) hserve
  simp only [bind_assoc, pure_bind] at hpush
  refine Eq.trans (bind_congr fun out => ?_) hpush
  obtain ⟨outcome, r⟩ := out
  cases outcome with
  | ok i => rfl
  | error e => rfl

end ModuleHost
