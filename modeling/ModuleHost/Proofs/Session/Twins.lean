/-
Sessions that differ only in their setting.

Two worlds are twins if their sessions are the same but for how modules are compiled, bound and
loaded, and what their modules keep for themselves is alike.  Orderly computations do not look at
the setting, so in twin worlds they come to the same and leave twin worlds behind.

* `Act.Respects` — from related worlds a computation ends alike, in related worlds;
* `Act.Orderly.respects` — an orderly computation respects twins, if calls and notes do;
* `Code.Respects.machine` — so does the machine of code that does, if loading a module does.
-/
import Mathlib
import ModuleHost.Proofs.Session.Machine

namespace ModuleHost

open Act

variable {γ α β : Type}

/-! ### Ending alike -/

/-- Two computations end in the same result or fault, and in related worlds. -/
inductive EndsAlike (T : World γ → World γ → Prop) :
    EStateM.Result Fault (World γ) α → EStateM.Result Fault (World γ) α → Prop
  | ok (a : α) {v w : World γ} (related : T v w) : EndsAlike T (.ok a v) (.ok a w)
  | error (e : Fault) {v w : World γ} (related : T v w) : EndsAlike T (.error e v) (.error e w)

/-- From related worlds a computation ends alike, in related worlds. -/
def Act.Respects (T : World γ → World γ → Prop) (x : Act γ α) : Prop :=
  ∀ v w, T v w → EndsAlike T (x v) (x w)

theorem EndsAlike.mono {T T' : World γ → World γ → Prop}
    {r r' : EStateM.Result Fault (World γ) α} (h : EndsAlike T r r')
    (hT : ∀ {v w}, T v w → T' v w) : EndsAlike T' r r' := by
  cases h with
  | ok a related => exact .ok a (hT related)
  | error e related => exact .error e (hT related)

/-- Computations that begin alike, and then go on alike, end alike. -/
theorem EndsAlike.bind {T : World γ → World γ → Prop} {x y : Act γ α} {f g : α → Act γ β}
    {v w : World γ} (h : EndsAlike T (x v) (y w))
    (hf : ∀ a v w, T v w → EndsAlike T (f a v) (g a w)) :
    EndsAlike T ((x >>= f) v) ((y >>= g) w) := by
  generalize hx : x v = r at h
  generalize hy : y w = r' at h
  cases h with
  | ok a related =>
    rw [bind_of_ok hx, bind_of_ok hy]
    exact hf a _ _ related
  | error e related =>
    rw [bind_of_error hx, bind_of_error hy]
    exact .error e related

theorem EndsAlike.attempt {T : World γ → World γ → Prop} {x y : Act γ α} {v w : World γ}
    (h : EndsAlike T (x v) (y w)) : EndsAlike T (x.attempt v) (y.attempt w) := by
  unfold Act.attempt
  generalize x v = r at h
  generalize y w = r' at h
  cases h with
  | ok a related => exact .ok _ related
  | error e related =>
    simp only
    split
    · exact .ok _ related
    · exact .error e related

namespace Act.Respects

variable {T : World γ → World γ → Prop}

theorem pure (a : α) : Respects T (Pure.pure a : Act γ α) := fun _ _ h => .ok a h

theorem throw (e : Fault) : Respects T (throw e : Act γ α) := fun _ _ h => .error e h

theorem bind {x : Act γ α} {f : α → Act γ β} (hx : Respects T x) (hf : ∀ a, Respects T (f a)) :
    Respects T (x >>= f) := fun v w h => (hx v w h).bind fun a v w h => hf a v w h

theorem attempt {x : Act γ α} (hx : Respects T x) : Respects T x.attempt :=
  fun v w h => (hx v w h).attempt

theorem tryCatch {x : Act γ α} {handle : Fault → Act γ α} (hx : Respects T x)
    (hh : ∀ e, Respects T (handle e)) : Respects T (tryCatch x handle) := by
  intro v w h
  have hends := hx v w h
  show EndsAlike T (EStateM.tryCatch x handle v) (EStateM.tryCatch x handle w)
  unfold EStateM.tryCatch
  generalize x v = r at hends
  generalize x w = r' at hends
  cases hends with
  | ok a related => exact .ok a related
  | error e related => exact hh e _ _ related

theorem after {x : Act γ α} {f : World γ → World γ} (hx : Respects T x)
    (hf : ∀ {v w}, T v w → T (f v) (f w)) : Respects T (x.after f) := by
  intro v w h
  have hends := hx v w h
  unfold Act.after
  generalize x v = r at hends
  generalize x w = r' at hends
  cases hends with
  | ok a related => exact .ok a (hf related)
  | error e related => exact .error e (hf related)

theorem mapM {f : α → Act γ β} (hf : ∀ a, Respects T (f a)) (l : List α) :
    Respects T (l.mapM f) := by
  induction l with
  | nil => exact .pure _
  | cons a rest ih =>
    rw [List.mapM_cons]
    exact (hf a).bind fun _ => ih.bind fun _ => .pure _

end Act.Respects

/-! ### Twins -/

/-- Two worlds whose sessions differ only in their settings, related so. -/
structure Twins (K : Session → Setting → Prop) (G : γ → γ → Prop) (v w : World γ) : Prop where
  session : w.session = v.session.under w.session.setting
  setting : K v.session w.session.setting
  guest : G v.guest w.guest

/-- A relation to another setting that an evolution in the same setting keeps. -/
def Settled (K : Session → Setting → Prop) : Prop :=
  ∀ (s s' : Session) (x : Setting), s.Evolves s' → s'.setting = s.setting → K s x → K s' x

theorem Session.Blind.setting {f : Session → Session} (hf : Session.Blind f) (s : Session) :
    (f s).setting = s.setting := by
  have h := hf.blind s s.setting
  rw [Session.under_setting] at h
  rw [h, Session.setting_under]

theorem Session.BlindStep.setting {f : Session → Except Fault (α × Session)}
    (hf : Session.BlindStep f) {s : Session} {r : α × Session} (hr : f s = .ok r) :
    r.2.setting = s.setting := by
  have h := hf.blind s s.setting
  rw [Session.under_setting, hr] at h
  rw [show r.2 = r.2.under s.setting from congrArg Prod.snd (Except.ok.inj h),
    Session.setting_under]

section Twins

variable {K : Session → Setting → Prop} {G : γ → γ → Prop} {m : Machine γ}

theorem Twins.blind (hK : Settled K) {f : Session → Session} (hf : Session.Blind f)
    {v w : World γ} (h : Twins K G v w) :
    Twins K G ⟨f v.session, v.guest⟩ ⟨f w.session, w.guest⟩ := by
  have hw : f w.session = (f v.session).under w.session.setting := by
    rw [← hf.blind, ← h.session]
  refine ⟨?_, ?_, h.guest⟩
  · rw [hf.setting]
    exact hw
  · rw [hf.setting]
    exact hK _ _ _ (hf.evolves _) (hf.setting _) h.setting

theorem Act.Respects.step (hK : Settled K) {f : Session → Except Fault (α × Session)}
    (hf : Session.BlindStep f) : Respects (Twins K G) (step f : Act γ α) := by
  intro v w h
  have hw : f w.session = (f v.session).map fun r => (r.1, r.2.under w.session.setting) := by
    rw [← hf.blind, ← h.session]
  unfold Act.step
  rw [hw]
  cases hr : f v.session with
  | error e => exact .error e h
  | ok r => exact .ok r.1 ⟨rfl, hK _ _ _ (hf.evolves hr) (hf.setting hr) h.setting, h.guest⟩

/-- Calls and notes of a machine respect related worlds. -/
structure Machine.Respects (m : Machine γ) (T : World γ → World γ → Prop) : Prop where
  call : ∀ f args, Act.Respects T (m.call f args)
  native : ∀ id args, Act.Respects T (m.native id args)
  note : ∀ e, Act.Respects T (m.note e)

/-- Orderly computations do not tell twins apart, if calls and notes do not. -/
theorem Act.Orderly.respects {x : Act γ α} (hx : Orderly m x) (hK : Settled K)
    (hm : m.Respects (Twins K G)) : Respects (Twins K G) x := by
  induction hx with
  | call f args => exact hm.call f args
  | native id args => exact hm.native id args
  | note e => exact hm.note e
  | step hf => exact .step hK hf
  | @read _ f blind _ ih =>
    intro v w h
    have hw : f w.session = f v.session := by rw [h.session, blind]
    show EndsAlike _ (f v.session v) (f w.session w)
    rw [hw]
    exact ih v.session v w h
  | bind _ _ ihx ihf => exact ihx.bind ihf
  | attempt _ ih => exact ih.attempt
  | tryCatch _ _ ihx ihh => exact ihx.tryCatch ihh
  | afterwards _ hf ih => exact ih.after fun h => h.blind hK hf

/-! ### Code -/

/-- Code does not tell related worlds apart, if the machine that it calls does not. -/
structure Code.Respects (c : Code γ) (T : World γ → World γ → Prop) : Prop where
  own : ∀ m : Machine γ, m.Respects T →
    ∀ number place args, Act.Respects T (c.own m number place args)
  supplied : ∀ m : Machine γ, m.Respects T → ∀ tag t args, Act.Respects T (c.supplied m tag t args)
  native : ∀ id args, Act.Respects T (c.runNative id args)
  note : ∀ e, Act.Respects T (c.note e)

theorem Act.Respects.loadModule (hK : Settled K) (hm : m.Respects (Twins K G))
    (hload : ∀ name, Act.Respects (Twins K G) (load m name)) (name : Reference) :
    Act.Respects (Twins K G) (loadModule m name) := by
  refine ((Patient.arg name).orderly.respects hK hm).bind fun _ =>
    ((Patient.orFail _).orderly.respects hK hm).bind fun text => (hload _).bind fun outcome => ?_
  cases outcome with
  | ok i =>
    exact ((Patient.onHeap fun _ => (Heap.Change.newModule _).evolves).bind
      fun _ => .give _).orderly.respects hK hm
  | error e =>
    exact ((Patient.onHeap fun _ => (Heap.Change.newError _).evolves).bind
      fun _ => .give _).orderly.respects hK hm

namespace Code.Respects

variable {c : Code γ}

theorem run (hc : c.Respects (Twins K G)) (hK : Settled K) (hm : m.Respects (Twins K G))
    (hload : ∀ name, Act.Respects (Twins K G) (load m name)) (f : Func) (args : List Val) :
    Act.Respects (Twins K G) (c.run m f args) := by
  cases f with
  | host i => exact (HostCall.orderly_run i args).respects hK hm
  | builtin b => exact (b.orderly_run args).respects hK hm
  | loadModule =>
    unfold Code.run
    split
    · contradiction
    · contradiction
    · exact (Act.Respects.loadModule hK hm hload _).bind fun _ => .pure _
    · exact .throw _
    all_goals contradiction
  | supplied tag t => exact hc.supplied m hm tag t args
  | own number place t => exact hc.own m hm number place args
  | const n => exact (Patient.takeStack.bind fun _ => .pure _).orderly.respects hK hm
  | relay f => exact (Patient.takeStack.bind fun _ => .call f args).orderly.respects hK hm

/-- If loading a module does not tell twins apart, given a machine that does not, then the machine
of such code does not, by induction on the depth of calls. -/
theorem machine (hc : c.Respects (Twins K G)) (hK : Settled K)
    (hload : ∀ depth, (c.machine depth).Respects (Twins K G) →
      ∀ name, Act.Respects (Twins K G) (load (c.machine depth) name)) (depth : ℕ) :
    (c.machine depth).Respects (Twins K G) := by
  induction depth with
  | zero => exact ⟨fun _ _ => .throw _, hc.native, hc.note⟩
  | succ depth ih => exact ⟨hc.run hK ih (hload depth ih), hc.native, hc.note⟩

end Code.Respects

end Twins

end ModuleHost
