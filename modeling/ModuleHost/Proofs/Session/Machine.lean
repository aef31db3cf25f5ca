/-
Whatever runs in a session evolves it.

Module code is sandboxed: it reaches the session through the calls it makes and through what
belongs to it, its memory, its tables and the references it holds.  `Code.Sandboxed` says so
of its own and of supplied functions, given a machine to call.  By induction on the depth of
calls the machine of sandboxed code evolves the session, and so does everything the embedder
drives with it.

* `Code.Sandboxed.machine` — the machine of sandboxed code is evolving;
* `Act.Orderly.runMain`, `.pump`, `Act.Patient.callExport`, `.callValue` — what the embedder asks
  for is orderly.
-/
import Mathlib
import ModuleHost.Session.Machine
import ModuleHost.Session.Run
import ModuleHost.Proofs.Deferred.Requests
import ModuleHost.Proofs.Session.HostCalls

namespace ModuleHost

open Act

variable {γ α β : Type} {m : Machine γ}

/-! ### Linking -/

namespace Act

theorem Patient.accept (x : Except Report α) : Patient m (accept x : Act γ α) := by
  cases x with
  | ok a => exact .pure a
  | error r => exact .throw _

/-- What comes of a computation on the store of a session. -/
def stepStore (x : StoreAct α) (s : Session) : Except Report α × Session :=
  match x s.store with
  | .ok a st => (.ok a, s.withStore st)
  | .error r st => (.error r, s.withStore st)

theorem onStore_eq_step (x : StoreAct α) :
    (onStore x : Act γ α) = (Act.step fun s => .ok (stepStore x s)) >>= accept := by
  funext w
  have hstep : (Act.step fun s => .ok (stepStore x s) : Act γ (Except Report α)) w
      = .ok (stepStore x w.session).1 ⟨(stepStore x w.session).2, w.guest⟩ := rfl
  rw [bind_of_ok hstep, onStore, stepStore]
  cases x w.session.store with
  | ok a st => rfl
  | error r st => rfl

theorem blindStep_stepStore (x : StoreAct α) :
    Session.BlindStep fun s => .ok (stepStore x s) where
  evolves {s r} h := by
    cases h
    unfold stepStore
    split
    · exact (Session.Change.stored _).evolves
    · exact (Session.Change.stored _).evolves
  blind s y := by
    unfold stepStore
    rw [show (s.under y).store = s.store from rfl]
    split
    · rfl
    · rfl

theorem Patient.onStore (x : StoreAct α) : Patient m (onStore x : Act γ α) := by
  rw [onStore_eq_step]
  refine (Patient.step (blindStep_stepStore x) fun {s r} h => ?_).bind Patient.accept
  cases h
  unfold stepStore
  split
  · exact .refl rfl
  · exact .refl rfl

theorem Patient.runStart (p : Parts) (s : StartDecl) : Patient m (runStart m p s) := by
  cases s with
  | unreachable => exact .throw _
  | call index args =>
    cases hf : funcAt? p.imports index with
    | none =>
      simp only [ModuleHost.runStart, hf]
      exact .throw _
    | some f =>
      simp only [ModuleHost.runStart, hf]
      exact Patient.takeStack.bind fun _ => (Patient.call f _).bind fun _ => .pure _

theorem Patient.startInstance (p : Parts) (s : StartDecl) : Patient m (startInstance m p s) := by
  refine (Patient.runStart p s).attempt.bind fun r => ?_
  cases r with
  | ok _ => exact .pure _
  | error e => exact .throw _

theorem Patient.instantiate (d : Description) (imports : List Extern) :
    Patient m (instantiate m d imports) :=
  .read (fun _ _ => rfl) fun _ => (Patient.onStore _).bind fun _ =>
    (Patient.optionForM (Patient.startInstance _) _).bind fun _ => .pure _

theorem Patient.makeInstance (l : Linker) (d : Description) : Patient m (makeInstance m l d) :=
  (Patient.accept _).bind fun imports => .read (fun _ _ => rfl) fun _ =>
    (Patient.accept _).bind fun _ => .instantiate d imports

theorem Orderly.makeInstance (l : Linker) (d : Description) : Orderly m (makeInstance m l d) :=
  (Patient.makeInstance l d).orderly

end Act

namespace Machine.Evolving

theorem linkPrimary (hm : m.Evolving) (d : Description) (supplied : List Supplied) :
    Act.Evolving (linkPrimary m d supplied) :=
  Act.Evolving.session.bind fun _ => ((Orderly.makeInstance _ d).evolving hm).bind fun i =>
    .modifySession fun _ => (Session.Change.linked i _).evolves

end Machine.Evolving

/-! ### Deferred loading -/

/-- A source that the loader has given compiles, if it does, to a module that may be kept. -/
theorem Session.compiles_of_compileSource {s : Session} {loader : Loader} {asked : List String}
    {name : String} {source : Source} {module : Description}
    (hl : s.deferred.loader = some loader) (hs : loader.load asked name = .ok source)
    (hm : s.engine.compileSource s.capabilities source = .ok module) : s.Compiles name module := by
  unfold Engine.compileSource at hm
  cases hb : source.read s.engine.config.chunkSize with
  | error text => rw [hb] at hm; cases hm
  | ok bytes =>
    rw [hb] at hm
    cases hd : s.engine.compile bytes s.capabilities with
    | error report => simp only [hd, Except.mapError] at hm; cases hm
    | ok d =>
      simp only [hd, Except.mapError] at hm
      cases hm
      exact ⟨loader, asked, source, bytes, hl, hs, hb, hd⟩

/-- What asking the loader, noting its answer and keeping a module do not change, obtaining a
module does not change. -/
theorem obtainModule_keeps {P : Session → Prop} {name : String} {w : World γ}
    (hp : P w.session)
    (hsettled : ∀ {s}, P s → s.engine = w.session.engine ∧
      s.capabilities = w.session.capabilities ∧ s.deferred.loader = w.session.deferred.loader)
    (hask : ∀ {s}, P s → s.deferred.cached? name = none →
      P { s with deferred := s.deferred.ask name })
    (hnote : ∀ {e} {w' : World γ}, P w'.session → P (final (m.note e) w').session)
    (hkeep : ∀ {s module}, P s → s.Compiles name module →
      P { s with deferred := s.deferred.keep name module }) :
    P (final (obtainModule m name w.session.capabilities) w).session := by
  cases hc : w.session.deferred.cached? name with
  | some module =>
    rw [final, obtainModule_of_cached hc]
    exact hp
  | none =>
    have hnew := obtainModule_of_not_cached (m := m) (c := w.session.capabilities) hc
    cases hl : w.session.deferred.loader with
    | none =>
      rw [final, hnew.trans (bind_of_ok (askLoader_of_none hl) _)]
      exact hp
    | some loader =>
      have hasked := hnew.trans (bind_of_eq (askLoader_of_some hl) _)
      rw [bind_assoc] at hasked
      rw [final, hasked]
      refine final_bind_keeps (Q := fun w' => P w'.session) (hnote (hask hp hc)) ?_
      intro _ w' _ hp'
      rw [pure_bind]
      cases hs : loader.load w.session.deferred.asked name with
      | error report => exact hp'
      | ok source =>
        obtain ⟨-, hcap, hload⟩ := hsettled hp'
        cases hd : w'.session.engine.compileSource w.session.capabilities source with
        | error e =>
          rw [final]
          simp only [Except.mapError, compileAndKeep_of_error hd]
          exact hp'
        | ok module =>
          rw [final]
          simp only [Except.mapError, compileAndKeep_of_ok hd]
          rw [← hcap] at hd
          exact hkeep hp' (Session.compiles_of_compileSource (hload.trans hl) hs hd)

namespace Machine.Evolving

theorem obtainModule (hm : m.Evolving) {name : String} {w : World γ} :
    w.session.Evolves (final (obtainModule m name w.session.capabilities) w).session :=
  obtainModule_keeps .refl (fun hev => hev.settled) (fun hev hc => hev.tail (.asked name hc))
    (fun hev => hev.trans (hm.note _ _)) (fun hev hc => hev.tail (.kept name _ hc))

theorem linkModule (hm : m.Evolving) (module : Description) :
    Act.Evolving (linkModule m module) := by
  refine Act.Evolving.session.bind fun s => ?_
  cases s.deferred.linker with
  | none => exact .pure _
  | some linker =>
    exact ((Orderly.makeInstance linker module).evolving hm).attempt.bind fun _ => .pure _

theorem serveRequest (hm : m.Evolving) (name : String) (w : World γ) :
    w.session.Evolves (final (serveRequest m name w.session.capabilities) w).session := by
  refine final_bind_keeps (Q := fun w' => w.session.Evolves w'.session) hm.obtainModule ?_
  intro obtained w' _ hev
  cases obtained with
  | error e => exact hev
  | ok module => exact hev.trans (hm.linkModule module w')

theorem load (hm : m.Evolving) (name : String) : Act.Evolving (load m name) := by
  rw [load_eq]
  refine Act.Evolving.session_bind fun w => ?_
  refine final_bind_keeps (Q := fun w' => w.session.Evolves w'.session)
    (hm.serveRequest name w) ?_
  intro outcome w' _ hev
  exact hev.tail (.recorded _ (LoadRecord.finished_ended _ _ outcome))

theorem loadModule (hm : m.Evolving) (name : Reference) : Act.Evolving (loadModule m name) := by
  refine (Act.Evolving.arg name).bind fun _ => (Act.Evolving.orFail _).bind fun text => ?_
  refine (hm.load _).bind fun outcome => ?_
  cases outcome with
  | ok i =>
    exact (Act.Evolving.onHeap fun _ => (Heap.Change.newModule _).evolves).bind fun _ => .give _
  | error e =>
    exact (Act.Evolving.onHeap fun _ => (Heap.Change.newError _).evolves).bind fun _ => .give _

end Machine.Evolving

/-! ### Code -/

/-- Code reaches the session through the machine that it calls and what belongs to it; native
functions have only values. -/
structure Code.Sandboxed (c : Code γ) : Prop where
  own : ∀ m : Machine γ, m.Evolving →
    ∀ number place args, Act.Evolving (c.own m number place args)
  supplied : ∀ m : Machine γ, m.Evolving → ∀ tag t args, Act.Evolving (c.supplied m tag t args)
  native : ∀ id args, Act.Evolving (c.runNative id args)
  note : ∀ e, Act.Evolving (c.note e)

namespace Code.Sandboxed

variable {c : Code γ}

theorem run (hc : c.Sandboxed) (hm : m.Evolving) (f : Func) (args : List Val) :
    Act.Evolving (c.run m f args) := by
  cases f with
  | host i => exact (HostCall.orderly_run i args).evolving hm
  | builtin b => exact (b.orderly_run args).evolving hm
  | loadModule =>
    unfold Code.run
    split
    · contradiction
    · contradiction
    · exact (hm.loadModule _).bind fun _ => .pure _
    · exact .throw _
    all_goals contradiction
  | supplied tag t => exact hc.supplied m hm tag t args
  | own number place t => exact hc.own m hm number place args
  | const n => exact (Patient.takeStack.bind fun _ => .pure _).orderly.evolving hm
  | relay f => exact (Patient.takeStack.bind fun _ => .call f args).orderly.evolving hm

/-- The machine of sandboxed code is evolving, by induction on the depth of calls. -/
theorem machine (hc : c.Sandboxed) (depth : Nat) : (c.machine depth).Evolving := by
  induction depth with
  | zero => exact ⟨fun _ _ => .throw _, hc.native, hc.note⟩
  | succ depth ih => exact ⟨hc.run ih, hc.native, hc.note⟩

end Code.Sandboxed

/-! ### Driving a session -/

namespace Act

theorem Orderly.takeMicrotask : Orderly m (takeMicrotask : Act γ (Option Int32)) :=
  .step (f := fun s => .ok (s.timers.takeMicrotask.1, { s with timers := s.timers.takeMicrotask.2 }))
    ⟨fun h => by cases h; exact (Session.Change.timers .unqueued).evolves, fun _ _ => rfl⟩

theorem takeDue_eq_step (instant : Nat) :
    (takeDue instant : Act γ (Option Int32)) = (do
      match ← Act.step fun s => .ok ((s.timers.takeDue instant).1,
        { s with timers := (s.timers.takeDue instant).2 }) with
      | .nothing => return none
      | .fired callback => return some callback
      | .overflow => MonadExcept.throw .panic) := rfl

theorem Orderly.takeDue (instant : Nat) : Orderly m (takeDue instant : Act γ (Option Int32)) := by
  rw [takeDue_eq_step]
  refine (Orderly.step ⟨fun h => ?_, fun _ _ => rfl⟩).bind fun popped => ?_
  · cases h
    exact (Session.Change.timers (.due instant)).evolves
  · cases popped with
    | nothing => exact .pure _
    | fired callback => exact .pure _
    | overflow => exact .throw _

theorem Orderly.drainMicrotasks (budget : Nat) : Orderly m (drainMicrotasks m budget) := by
  induction budget with
  | zero => exact .throw _
  | succ budget ih =>
    refine Orderly.takeMicrotask.bind fun callback => ?_
    cases callback with
    | none => exact .pure _
    | some callback =>
      exact (Patient.runCallback callback).orderly.bind fun _ => ih.bind fun _ => .pure _

theorem Orderly.fireTimers (instant budget : Nat) : Orderly m (fireTimers m instant budget) := by
  induction budget with
  | zero => exact .throw _
  | succ budget ih =>
    refine (Orderly.takeDue instant).bind fun callback => ?_
    cases callback with
    | none => exact .pure _
    | some callback =>
      exact (Patient.runCallback callback).orderly.bind fun _ =>
        (Orderly.drainMicrotasks budget).bind fun _ => ih.bind fun _ => .pure _

theorem Orderly.settle (budget : Nat) : Orderly m (settle m budget) :=
  (Orderly.drainMicrotasks budget).bind fun _ => Orderly.announceOrphans.bind fun _ =>
    Patient.runCleanups.orderly.bind fun _ => .pure _

theorem Orderly.pump (budget instant : Nat) : Orderly m (pump m budget instant) :=
  (Orderly.fireTimers instant budget).bind fun _ => (Orderly.settle budget).bind fun _ => .pure _

theorem Orderly.runMain (budget : Nat) (args : List Value) : Orderly m (runMain m budget args) :=
  (Patient.requireExport _).orderly.bind fun main =>
    (Patient.onHeap fun _ => .newArray args).orderly.bind fun _ =>
      ((Patient.callAny main _).holding _).orderly.bind fun _ => .settle budget

theorem Patient.callExport (name : String) (args : List Val) : Patient m (callExport m name args) :=
  (Patient.requireExport name).bind fun f => .callAny f args

theorem Patient.callValue (f : FunctionRef) (args : List Value) : Patient m (callValue m f args) :=
  (Patient.applyFunction f args).tryCatch fun _ => .throw _

end Act

end ModuleHost
