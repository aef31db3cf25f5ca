/-
What making an instance depends on.

Once the imports of a module are known, an instance of it is made in the store of the session, by
what its engine does there, and only the start function calls anything.  So it ends alike in worlds
that agree on these and on the size of the stack, if what the start function calls does.

* `Description.startCall?` — what the start function of a module calls;
* `LinkingSteps` — a relation that the single steps respect;
* `Act.Respects.instantiate` — making an instance, if the call ends alike;
* `Settled.linkingSteps`, `StoreRelation.linkingSteps` — the steps respect twins, and they respect
  worlds that have the same store.
-/
import Mathlib
import ModuleHost.Proofs.Linking.Checks
import ModuleHost.Proofs.Session.Twins

namespace ModuleHost

open Act

variable {γ α β : Type}

/-! ### The start function -/

/-- What the start function of a module calls, given what its imports stand for. -/
def Description.startCall? (d : Description) (es : List Extern) : Option (Func × List Val) :=
  match d.start with
  | some (.call index args) =>
    (funcAt? es index).map (·, args.map StartArg.toVal)
  | _ => none

theorem mem_of_startCall? {d : Description} {es : List Extern} {f : Func} {args : List Val}
    (h : d.startCall? es = some (f, args)) :
    .func f ∈ es ∧ ∃ args' : List StartArg, args = args'.map StartArg.toVal := by
  unfold Description.startCall? at h
  split at h
  · obtain ⟨f', hf, h⟩ := Option.map_eq_some_iff.mp h
    cases h
    refine ⟨?_, _, rfl⟩
    unfold funcAt? at hf
    split at hf
    · rename_i hget
      cases hf
      exact List.mem_of_getElem? hget
    · cases hf
  · cases h

/-! ### The steps -/

/-- The single steps of making an instance respect a relation. -/
structure LinkingSteps (T : World γ → World γ → Prop) : Prop where
  stock : ∀ d es, Act.Respects T (session >>= fun s => onStore (s.engine.stock d es))
  takeStack : Act.Respects T takeStack

namespace Act.Respects

variable {T : World γ → World γ → Prop}

/-- A computation that goes on with what it reads alike in both sessions. -/
theorem read {f : Session → Act γ α} (hread : ∀ {v w}, T v w → f w.session = f v.session)
    (hf : ∀ s, Respects T (f s)) : Respects T (session >>= f) := by
  intro v w h
  show EndsAlike T (f v.session v) (f w.session w)
  rw [hread h]
  exact hf v.session v w h

end Act.Respects

section Instances

variable {T : World γ → World γ → Prop} {m : Machine γ} {d : Description} {es : List Extern}

theorem Act.Respects.startInstance (hT : LinkingSteps T) {own : Own} {start : StartDecl}
    (hstart : d.start = some start)
    (hcall : ∀ f args, d.startCall? es = some (f, args) → Act.Respects T (m.call f args)) :
    Act.Respects T (startInstance m ⟨es, own⟩ start) := by
  have hrun : Act.Respects T (runStart m ⟨es, own⟩ start) := by
    cases start with
    | unreachable => exact .throw _
    | call index args =>
      cases hf : funcAt? es index with
      | none =>
        simp only [runStart, hf]
        exact .throw _
      | some f =>
        have hcalled : d.startCall? es = some (f, args.map StartArg.toVal) := by
          rw [Description.startCall?, hstart]
          simp only [hf, Option.map_some]
        simp only [runStart, hf]
        exact hT.takeStack.bind fun _ => (hcall f _ hcalled).bind fun _ => .pure _
  refine hrun.attempt.bind fun r => ?_
  cases r with
  | ok _ => exact .pure _
  | error e => exact .throw _

/-- Making an instance ends alike, if what the start function calls does. -/
theorem Act.Respects.instantiate (hT : LinkingSteps T)
    (hcall : ∀ f args, d.startCall? es = some (f, args) → Act.Respects T (m.call f args)) :
    Act.Respects T (instantiate m d es) := by
  have hsplit : ModuleHost.instantiate m d es
      = (session >>= fun s => onStore (s.engine.stock d es)) >>= fun own => do
          d.start.forM (ModuleHost.startInstance m ⟨es, own⟩)
          return (⟨es, own⟩ : Parts).toInstance d.exports := (bind_assoc ..).symm
  rw [hsplit]
  refine (hT.stock d es).bind fun own => .bind ?_ fun _ => .pure _
  cases hstart : d.start with
  | none => exact .pure _
  | some start => exact .startInstance hT hstart hcall

/-- Linking a module ends alike in sessions that come to the same about its imports. -/
theorem EndsAlike.makeInstance (hT : LinkingSteps T) {v w : World γ} (h : T v w) {l l' : Linker}
    (hcheck : l'.check w.session d.imports = l.check v.session d.imports)
    (hcall : ∀ es f args, l.check v.session d.imports = .ok es →
      d.startCall? es = some (f, args) → Act.Respects T (m.call f args)) :
    EndsAlike T (makeInstance m l d v) (makeInstance m l' d w) := by
  rw [makeInstance_eq, makeInstance_eq, hcheck]
  cases hc : l.check v.session d.imports with
  | error cause => exact .error _ h
  | ok es => exact Act.Respects.instantiate hT (fun f args => hcall es f args hc) v w h

end Instances

/-! ### Twins -/

/-- A machine that runs nothing. -/
def Machine.inert : Machine γ :=
  ⟨fun _ _ => throw .exhausted, fun _ _ => throw .exhausted, fun _ => pure ⟨⟩⟩

section Twins

variable {K : Session → Setting → Prop} {G : γ → γ → Prop}

/-- What calls nothing does not tell twins apart. -/
theorem Act.Orderly.respects_of_inert {x : Act γ α} (hx : Orderly .inert x) (hK : Settled K) :
    Respects (Twins K G) x :=
  hx.respects hK ⟨fun _ _ => .throw _, fun _ _ => .throw _, fun _ => .pure _⟩

theorem Settled.linkingSteps (hK : Settled K) : LinkingSteps (Twins K G) where
  stock _ _ :=
    (Orderly.read (fun _ _ => rfl) fun _ => (Patient.onStore _).orderly).respects_of_inert hK
  takeStack := Patient.takeStack.orderly.respects_of_inert hK

end Twins

/-! ### Worlds that agree on what the steps work on -/

namespace Session

/-- Two sessions have the same store, and the same is made in it. -/
structure SameStore (s t : Session) : Prop where
  store : t.store = s.store
  stock : t.engine.stock = s.engine.stock
  stack : t.engine.config.hasStack = s.engine.config.hasStack

end Session

/-- A relation of worlds that have the same store, and that does not depend on what it is. -/
structure StoreRelation (T : World γ → World γ → Prop) : Prop where
  same : ∀ {v w}, T v w → v.session.SameStore w.session
  withStore : ∀ {v w} (st : Store), T v w →
    T ⟨v.session.withStore st, v.guest⟩ ⟨w.session.withStore st, w.guest⟩

namespace StoreRelation

variable {T : World γ → World γ → Prop}

theorem onStore (hT : StoreRelation T) (x : StoreAct α) : Act.Respects T (onStore x) := by
  intro v w h
  have hstore := (hT.same h).store
  cases hx : x v.session.store with
  | ok a st =>
    rw [onStore_of_ok hx, onStore_of_ok (hstore ▸ hx)]
    exact .ok a (hT.withStore st h)
  | error r st =>
    rw [onStore_of_error hx, onStore_of_error (hstore ▸ hx)]
    exact .error _ (hT.withStore st h)

theorem linkingSteps (hT : StoreRelation T) : LinkingSteps T where
  stock _ _ := .read (fun h => by rw [(hT.same h).stock]) fun _ => hT.onStore _
  takeStack :=
    .read (fun h => by simp only [(hT.same h).stack]) fun s => by
      split
      · exact .throw _
      · exact .pure _

end StoreRelation

end ModuleHost
