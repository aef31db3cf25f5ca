/-
Computations that are put together from steps of the session and calls of a machine.

What the host does for a module reads and changes the session, and calls back into the module.
None of it looks at how modules are compiled, bound and loaded, which is the setting of the
session.  `Act.Orderly m x` says so of a computation by the way it is put together; what follows
for all such computations is then an induction on that.

* `Session.under` — the same session in another setting;
* `Act.Orderly` — a computation put together from blind steps and calls;
* `Act.Orderly.evolving` — with an evolving machine it evolves the session.

Design notes: the size of the stack is read by running code, and so is what the engine does to make
an instance, so they are not part of the setting; every step is an evolution of the session it
finds, also where its single changes depend on what was read before.
-/
import Mathlib
import ModuleHost.Proofs.Session.Evolving

namespace ModuleHost

variable {γ α β : Type}

/-! ### Settings -/

/-- How modules are compiled, bound and loaded in a session. -/
structure Setting where
  cacheDeferred : Bool
  stringBuiltins : Bool
  capabilities : Capabilities
  binding : TextBinding
  deferred : DeferredLoads

namespace Session

/-- The setting of a session. -/
def setting (s : Session) : Setting :=
  ⟨s.engine.config.cacheDeferred, s.engine.config.stringBuiltins, s.capabilities, s.binding,
    s.deferred⟩

/-- The same session in another setting. -/
def under (s : Session) (x : Setting) : Session :=
  { s with
    engine := { s.engine with
      config := { s.engine.config with
        cacheDeferred := x.cacheDeferred
        stringBuiltins := x.stringBuiltins } }
    capabilities := x.capabilities
    binding := x.binding
    deferred := x.deferred }

theorem under_setting (s : Session) : s.under s.setting = s := rfl

theorem setting_under (s : Session) (x : Setting) : (s.under x).setting = x := rfl

/-- A change of the session that does not look at the setting. -/
structure Blind (f : Session → Session) : Prop where
  evolves : ∀ s : Session, s.Evolves (f s)
  blind : ∀ (s : Session) (x : Setting), f (s.under x) = (f s).under x

/-- A step of the session that does not look at the setting, and may fail. -/
structure BlindStep (f : Session → Except Fault (α × Session)) : Prop where
  evolves : ∀ {s : Session} {r : α × Session}, f s = .ok r → s.Evolves r.2
  blind : ∀ (s : Session) (x : Setting), f (s.under x) = (f s).map fun r => (r.1, r.2.under x)

end Session

namespace Act

/-- Work on the session as it stands; a step that fails changes nothing. -/
def step (f : Session → Except Fault (α × Session)) : Act γ α := fun w =>
  match f w.session with
  | .ok (a, s) => .ok a ⟨s, w.guest⟩
  | .error e => .error e w

/-- Change the session after a computation, whatever its outcome. -/
def afterwards (x : Act γ α) (f : Session → Session) : Act γ α :=
  x.after fun w => { w with session := f w.session }

/-- A computation put together from blind steps of the session and calls of a machine. -/
inductive Orderly (m : Machine γ) : {α : Type} → Act γ α → Prop
  | call (f : Func) (args : List Val) : Orderly m (m.call f args)
  | native (id : ℕ) (args : List Value) : Orderly m (m.native id args)
  | note (e : Event) : Orderly m (m.note e)
  | step {α : Type} {f : Session → Except Fault (α × Session)} (hf : Session.BlindStep f) :
      Orderly m (step f)
  /-- It goes on with what it reads in the session. -/
  | read {α : Type} {f : Session → Act γ α}
      (blind : ∀ (s : Session) (x : Setting), f (s.under x) = f s)
      (hf : ∀ s, Orderly m (f s)) : Orderly m (session >>= f)
  | bind {α β : Type} {x : Act γ α} {f : α → Act γ β} (hx : Orderly m x)
      (hf : ∀ a, Orderly m (f a)) : Orderly m (x >>= f)
  | attempt {α : Type} {x : Act γ α} (hx : Orderly m x) : Orderly m x.attempt
  | tryCatch {α : Type} {x : Act γ α} {handle : Fault → Act γ α} (hx : Orderly m x)
      (hh : ∀ e, Orderly m (handle e)) : Orderly m (tryCatch x handle)
  | afterwards {α : Type} {x : Act γ α} {f : Session → Session} (hx : Orderly m x)
      (hf : Session.Blind f) : Orderly m (x.afterwards f)

variable {m : Machine γ}

/-! ### The rules -/

theorem Orderly.pure (a : α) : Orderly m (Pure.pure a : Act γ α) :=
  .step (f := fun s => .ok (a, s)) ⟨fun h => by cases h; exact .refl, fun _ _ => rfl⟩

theorem Orderly.throw (e : Fault) : Orderly m (throw e : Act γ α) :=
  .step (f := fun _ => .error e) ⟨nofun, fun _ _ => rfl⟩

theorem Orderly.holding (vs : List Value) {x : Act γ α} (hx : Orderly m x) :
    Orderly m (holding vs x) :=
  hx.afterwards ⟨fun _ => .ofHeap (.releaseAll vs), fun _ _ => rfl⟩

end Act

/-! ### Evolving machines -/

/-- Calls and notes of a machine evolve the session. -/
structure Machine.Evolving (m : Machine γ) : Prop where
  call : ∀ f args, Act.Evolving (m.call f args)
  native : ∀ id args, Act.Evolving (m.native id args)
  note : ∀ e, Act.Evolving (m.note e)

namespace Act

theorem Evolving.step {f : Session → Except Fault (α × Session)}
    (hf : ∀ {s r}, f s = .ok r → s.Evolves r.2) : Evolving (step f : Act γ α) := by
  intro w
  unfold final Act.step
  cases hr : f w.session with
  | error e => exact .refl
  | ok r => exact hf hr

/-- With an evolving machine, an orderly computation evolves the session. -/
theorem Orderly.evolving {m : Machine γ} {x : Act γ α} (hx : Orderly m x) (hm : m.Evolving) :
    Evolving x := by
  induction hx with
  | call f args => exact hm.call f args
  | native id args => exact hm.native id args
  | note e => exact hm.note e
  | step hf => exact .step hf.evolves
  | read _ _ ih => exact Evolving.session.bind ih
  | bind _ _ ihx ihf => exact ihx.bind ihf
  | attempt _ ih => exact ih.attempt
  | tryCatch _ _ ihx ihh => exact ihx.tryCatch ihh
  | afterwards _ hf ih => exact ih.after fun w => hf.evolves w.session

end Act

end ModuleHost
