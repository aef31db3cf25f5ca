/-
Computations that ask for timers and microtasks, and take none.

Orderly computations of the host work on the timers through requests only, as long as the machine
that they call does.  `Act.Patient m x` says both of a computation, by rules for putting
computations together, so what the host does for a module is gone through once.

* `Act.Asking` — a computation that leaves behind a timer queue to which requests have been made;
* `Act.Patient` — a computation that is orderly and, with a machine that only asks, only asks;
* `Act.Patient.onHeap`, `.tryHeap`, `.modifySession`, ... — one rule for each way of working on
  the session.
-/
import Mathlib
import ModuleHost.Proofs.Session.Orderly
import ModuleHost.Proofs.Timer.Asking

namespace ModuleHost

variable {γ α β : Type}

/-! ### Asking -/

namespace Session

/-- Requests lead from the timers of one session to those of the other. -/
def Asks (s s' : Session) : Prop := s.timers.Asks s'.timers

theorem Asks.refl {s s' : Session} (h : s'.timers = s.timers) : s.Asks s' := by
  rw [Asks, h]
  exact TimerQueue.Asks.refl

instance : IsPreorder Session Asks where
  refl _ := .refl rfl
  trans _ _ _ := TimerQueue.Asks.trans

end Session

namespace Act

/-- A computation that takes nothing out of the queue of timers. -/
def Asking (x : Act γ α) : Prop := Along Session.Asks x

theorem Asking.pure (a : α) : Asking (Pure.pure a : Act γ α) := Along.pure a

theorem Asking.throw (e : Fault) : Asking (throw e : Act γ α) := Along.throw e

theorem Asking.session : Asking (session : Act γ Session) := Along.session

theorem Asking.bind {x : Act γ α} {f : α → Act γ β} (hx : Asking x) (hf : ∀ a, Asking (f a)) :
    Asking (x >>= f) := Along.bind hx hf

theorem Asking.attempt {x : Act γ α} (hx : Asking x) : Asking x.attempt := Along.attempt hx

theorem Asking.modifySession {f : Session → Session} (hf : ∀ s : Session, s.Asks (f s)) :
    Asking (modifySession f : Act γ Unit) := Along.modifySession hf

theorem Asking.step {f : Session → Except Fault (α × Session)}
    (hf : ∀ {s r}, f s = .ok r → s.Asks r.2) : Asking (step f : Act γ α) := by
  intro w
  unfold final Act.step
  cases hr : f w.session with
  | error e => exact .refl rfl
  | ok r => exact hf hr

end Act

/-- Calls and notes of a machine take nothing out of the queue of timers. -/
structure Machine.Asking (m : Machine γ) : Prop where
  call : ∀ f args, Act.Asking (m.call f args)
  native : ∀ id args, Act.Asking (m.native id args)
  note : ∀ e, Act.Asking (m.note e)

namespace Act

/-- A computation that is orderly and, with a machine that only asks, only asks. -/
structure Patient (m : Machine γ) (x : Act γ α) : Prop where
  orderly : Orderly m x
  asking : m.Asking → Asking x

variable {m : Machine γ}

/-! ### The rules -/

theorem Patient.call (f : Func) (args : List Val) : Patient m (m.call f args) :=
  ⟨.call f args, fun hm => hm.call f args⟩

theorem Patient.native (id : ℕ) (args : List Value) : Patient m (m.native id args) :=
  ⟨.native id args, fun hm => hm.native id args⟩

theorem Patient.note (e : Event) : Patient m (m.note e) := ⟨.note e, fun hm => hm.note e⟩

theorem Patient.step {f : Session → Except Fault (α × Session)} (hf : Session.BlindStep f)
    (asks : ∀ {s r}, f s = .ok r → s.Asks r.2) : Patient m (step f : Act γ α) :=
  ⟨.step hf, fun _ => .step asks⟩

theorem Patient.pure (a : α) : Patient m (Pure.pure a : Act γ α) := ⟨.pure a, fun _ => .pure a⟩

theorem Patient.throw (e : Fault) : Patient m (throw e : Act γ α) :=
  ⟨.throw e, fun _ => .throw e⟩

theorem Patient.read {f : Session → Act γ α}
    (blind : ∀ (s : Session) (x : Setting), f (s.under x) = f s) (hf : ∀ s, Patient m (f s)) :
    Patient m (session >>= f) :=
  ⟨.read blind fun s => (hf s).orderly, fun hm => .bind .session fun s => (hf s).asking hm⟩

theorem Patient.bind {x : Act γ α} {f : α → Act γ β} (hx : Patient m x)
    (hf : ∀ a, Patient m (f a)) : Patient m (x >>= f) :=
  ⟨hx.orderly.bind fun a => (hf a).orderly,
    fun hm => (hx.asking hm).bind fun a => (hf a).asking hm⟩

theorem Patient.attempt {x : Act γ α} (hx : Patient m x) : Patient m x.attempt :=
  ⟨hx.orderly.attempt, fun hm => (hx.asking hm).attempt⟩

theorem Patient.tryCatch {x : Act γ α} {handle : Fault → Act γ α} (hx : Patient m x)
    (hh : ∀ e, Patient m (handle e)) : Patient m (tryCatch x handle) :=
  ⟨hx.orderly.tryCatch fun e => (hh e).orderly,
    fun hm => Along.tryCatch (hx.asking hm) fun e => (hh e).asking hm⟩

theorem Patient.afterwards {x : Act γ α} {f : Session → Session} (hx : Patient m x)
    (hf : Session.Blind f) (asks : ∀ s : Session, s.Asks (f s)) : Patient m (x.afterwards f) :=
  ⟨hx.orderly.afterwards hf, fun hm => Along.after (hx.asking hm) fun w => asks w.session⟩

theorem Patient.ite {c : Prop} [Decidable c] {x y : Act γ α} (hx : Patient m x) (hy : Patient m y) :
    Patient m (if c then x else y) := by
  split
  · exact hx
  · exact hy

/-- A computation that goes on unless a condition holds. -/
theorem Patient.unless {c : Prop} [Decidable c] {e : Fault} {f : PUnit → Act γ α}
    (hf : Patient m (f ⟨⟩)) : Patient m (if c then MonadExcept.throw e >>= f else f ⟨⟩) := by
  split
  · exact (Patient.throw e).bind fun _ => hf
  · exact hf

/-- A computation that goes on after either branch. -/
theorem Patient.ite_bind {c : Prop} [Decidable c] {x y : Act γ α} {f : α → Act γ β}
    (hx : Patient m x) (hy : Patient m y) (hf : ∀ a, Patient m (f a)) :
    Patient m (if c then x >>= f else y >>= f) :=
  .ite (hx.bind hf) (hy.bind hf)

theorem Patient.forM {f : α → Act γ PUnit} (hf : ∀ a, Patient m (f a)) (l : List α) :
    Patient m (l.forM f) := by
  induction l with
  | nil => exact .pure _
  | cons a rest ih => exact (hf a).bind fun _ => ih

theorem Patient.mapM {f : α → Act γ β} (hf : ∀ a, Patient m (f a)) (l : List α) :
    Patient m (l.mapM f) := by
  induction l with
  | nil => exact .pure _
  | cons a rest ih =>
    rw [List.mapM_cons]
    exact (hf a).bind fun _ => ih.bind fun _ => .pure _

theorem Patient.optionForM {f : α → Act γ PUnit} (hf : ∀ a, Patient m (f a)) (o : Option α) :
    Patient m (o.forM f) := by
  cases o with
  | none => exact .pure _
  | some a => exact hf a

/-! ### The session and its heap -/

theorem Patient.heap : Patient m (heap : Act γ Heap) := .read (fun _ _ => rfl) fun _ => .pure _

theorem Patient.memoryAt (id : Nat) : Patient m (memoryAt id : Act γ Memory) :=
  .read (fun _ _ => rfl) fun _ => .pure _

theorem Patient.modifySession {f : Session → Session} (hf : Session.Blind f)
    (asks : ∀ s : Session, s.Asks (f s)) : Patient m (modifySession f : Act γ Unit) :=
  .step (f := fun s => .ok ((), f s))
    ⟨fun h => by cases h; exact hf.evolves _, fun s x => by rw [hf.blind]; rfl⟩
    fun h => by cases h; exact asks _

theorem Patient.modifyHeap {f : Heap → Heap} (hf : ∀ h : Heap, h.Evolves (f h)) :
    Patient m (modifyHeap f : Act γ Unit) :=
  .modifySession ⟨fun s => .ofHeap (hf s.heap), fun _ _ => rfl⟩ fun _ => .refl rfl

theorem Patient.orFail (x : Except ConversionError α) : Patient m (orFail x : Act γ α) := by
  cases x with
  | ok a => exact .pure a
  | error e => exact .throw _

/-- An operation of the heap that may fail. -/
theorem blindStep_heap {f : Heap → Except Fault (α × Heap)}
    (hf : ∀ {h r}, f h = .ok r → h.Evolves r.2) :
    Session.BlindStep fun s => (f s.heap).map fun r => (r.1, { s with heap := r.2 }) where
  evolves {s r} h := by
    cases hr : f s.heap with
    | error e => rw [hr] at h; cases h
    | ok r' =>
      rw [hr] at h
      cases h
      exact .ofHeap (hf hr)
  blind s x := by
    show (f s.heap).map _ = ((f s.heap).map _).map _
    cases f s.heap with
    | error e => rfl
    | ok r => rfl

theorem Patient.stepHeap {f : Heap → Except Fault (α × Heap)}
    (hf : ∀ {h r}, f h = .ok r → h.Evolves r.2) :
    Patient m (Act.step fun s : Session =>
      (f s.heap).map fun r => (r.1, { s with heap := r.2 }) : Act γ α) := by
  refine .step (blindStep_heap hf) fun {s r} h => ?_
  cases hr : f s.heap with
  | error e => rw [hr] at h; cases h
  | ok r' =>
    rw [hr] at h
    cases h
    exact .refl rfl

theorem Patient.tryHeap {f : Heap → Except ConversionError (α × Heap)}
    (hf : ∀ {h r}, f h = .ok r → h.Evolves r.2) : Patient m (tryHeap f : Act γ α) := by
  have hstep : (Act.tryHeap f : Act γ α) = Act.step fun s =>
      ((f s.heap).mapError Fault.marshal).map fun r => (r.1, { s with heap := r.2 }) := by
    funext w
    cases hr : f w.session.heap with
    | error e => rw [tryHeap_of_error hr, Act.step, hr]; rfl
    | ok r => rw [tryHeap_of_ok hr, Act.step, hr]; rfl
  rw [hstep]
  refine .stepHeap (f := fun h => (f h).mapError Fault.marshal) fun {h r} hr => ?_
  cases hfh : f h with
  | error e => rw [hfh] at hr; cases hr
  | ok r' =>
    rw [hfh] at hr
    cases hr
    exact hf hfh

theorem Patient.onHeap {f : Heap → α × Heap} (hf : ∀ h : Heap, h.Evolves (f h).2) :
    Patient m (onHeap f : Act γ α) :=
  .stepHeap (f := fun h => .ok (f h)) fun {h r} hr => by cases hr; exact hf h

theorem Patient.tryChange {f : Heap → Except ConversionError Heap}
    (hf : ∀ {h h'}, f h = .ok h' → h.Evolves h') : Patient m (tryChange f : Act γ Unit) := by
  have hstep : (Act.tryChange f : Act γ Unit) =
      Act.tryHeap fun h => (f h).map fun h => ((), h) := by
    funext w
    refine (bind_of_ok (rfl : (Act.heap : Act γ Heap) w = .ok w.session.heap w) _).trans ?_
    refine Eq.trans ?_
      (bind_of_ok (rfl : (Act.heap : Act γ Heap) w = .ok w.session.heap w) _).symm
    beta_reduce
    cases f w.session.heap with
    | error e => rfl
    | ok h => rfl
  rw [hstep]
  refine .tryHeap fun {h r} hr => ?_
  cases hfh : f h with
  | error e => rw [hfh] at hr; cases hr
  | ok h' =>
    rw [hfh] at hr
    cases hr
    exact hf hfh

theorem Patient.holding (vs : List Value) {x : Act γ α} (hx : Patient m x) :
    Patient m (holding vs x) :=
  hx.afterwards ⟨fun _ => .ofHeap (.releaseAll vs), fun _ _ => rfl⟩ fun _ => .refl rfl

theorem Patient.keeping (vs : List Value) {x : Act γ α} (hx : Patient m x) :
    Patient m (keeping vs x) :=
  (Patient.modifyHeap fun _ => .retainAll vs).bind fun _ => hx.holding vs

theorem blind_sweep : Session.Blind fun s =>
    { s with crossed := [], heap := s.heap.releaseAll s.crossed } :=
  ⟨fun s => (Session.Change.crossed []).evolves.trans (.ofHeap (.releaseAll s.crossed)),
    fun _ _ => rfl⟩

theorem Patient.sweep : Patient m (sweep : Act γ Unit) :=
  .modifySession blind_sweep fun _ => .refl rfl

theorem Patient.cross (v : Value) : Patient m (cross v : Act γ Unit) :=
  .modifySession ⟨fun _ => (Session.Change.crossed _).evolves, fun _ _ => rfl⟩ fun _ => .refl rfl

theorem Patient.give (v : Value) : Patient m (give v : Act γ Reference) :=
  (Patient.cross v).bind fun _ => .pure _

theorem Patient.giveStored (v : Value) : Patient m (giveStored v : Act γ Reference) :=
  (Patient.modifyHeap fun _ => .retain v).bind fun _ => .give v

theorem Patient.arg (r : Reference) : Patient m (arg r : Act γ Value) := .orFail _

theorem Patient.index (i : Int32) : Patient m (index i : Act γ Nat) := by
  unfold Act.index
  exact .ite (.throw _) (.pure _)

theorem Patient.count (n : Nat) : Patient m (count n : Act γ Int32) := by
  unfold Act.count
  exact .ite (.pure _) (.throw _)

theorem Patient.now : Patient m (now : Act γ Nat) :=
  (Patient.modifySession ⟨fun _ => Session.Change.ticked.evolves, fun _ _ => rfl⟩
    fun _ => .refl rfl).bind fun _ => .read (fun _ _ => rfl) fun _ => .pure _

theorem Patient.takeStack : Patient m (takeStack : Act γ Unit) :=
  .read (fun _ _ => rfl) fun _ => .ite (.throw _) (.pure _)

theorem Patient.setMemory (id : Nat) (memory : Memory) :
    Patient m (setMemory id memory : Act γ Unit) :=
  .modifySession
    ⟨fun s => (Session.Change.stored { s.store with memories := _ }).evolves, fun _ _ => rfl⟩
    fun _ => .refl rfl

end Act

end ModuleHost
