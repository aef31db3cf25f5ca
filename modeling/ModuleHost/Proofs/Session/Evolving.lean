/-
Computations that only evolve the session.

`Act.Evolving x` says that `x`, whatever its outcome, leaves behind a session that has evolved
from the one it found.  There is one rule for each way in which computations are put
together, so a computation is dealt with by following its text.

* `Act.Along` — the same for any relation of sessions that is reflexive and transitive;
* `Act.Evolving.bind`, `.tryCatch`, `.after`, `.attempt` — computations put together;
* `Act.Evolving.onHeap`, `.tryHeap`, `.modifySession` — computations that change something;
* `Act.Evolving.session_bind` — for a change that depends on the session that was read.
-/
import Mathlib
import ModuleHost.Proofs.Session.Change

namespace ModuleHost

variable {γ α β : Type}

/-! ### One computation after another -/

section Outcomes

variable {ε σ : Type} {x : EStateM ε σ α} {s s' : σ}

/-- A computation that begins with one that has been run. -/
theorem bind_of_ok {a : α} (h : x s = .ok a s') (k : α → EStateM ε σ β) : (x >>= k) s = k a s' := by
  show EStateM.bind x k s = _
  rw [EStateM.bind, h]

theorem bind_of_error {e : ε} (h : x s = .error e s') (k : α → EStateM ε σ β) :
    (x >>= k) s = .error e s' := by
  show EStateM.bind x k s = _
  rw [EStateM.bind, h]

/-- What a computation that returned went through. -/
theorem exists_of_bind_ok {k : α → EStateM ε σ β} {b : β} (h : (x >>= k) s = .ok b s') :
    ∃ a s₁, x s = .ok a s₁ ∧ k a s₁ = .ok b s' := by
  cases hx : x s with
  | error e s₁ =>
    rw [bind_of_error hx] at h
    exact absurd h (by simp)
  | ok a s₁ =>
    rw [bind_of_ok hx] at h
    exact ⟨a, s₁, rfl, h⟩

end Outcomes

section Bind

variable {x : Act γ α} {w w' : World γ}

/-- Two computations that come to the same are followed by the same. -/
theorem bind_of_eq {y : Act γ α} (h : x w = y w') (k : α → Act γ β) :
    (x >>= k) w = (y >>= k) w' := by
  show EStateM.bind x k w = EStateM.bind y k w'
  rw [EStateM.bind, EStateM.bind, h]

/-- A computation that begins by reading the session. -/
theorem bind_session (k : Session → Act γ β) (w : World γ) :
    ((Act.session : Act γ Session) >>= k) w = k w.session w := rfl

theorem Act.attempt_of_ok {a : α} (h : x w = .ok a w') : x.attempt w = .ok (.ok a) w' := by
  rw [attempt, h]

theorem Act.attempt_of_error {e : Fault} (h : x w = .error e w') (he : e.isError = true) :
    x.attempt w = .ok (.error e) w' := by
  rw [attempt, h]
  exact if_pos he

/-- What is not an error is not caught. -/
theorem Act.attempt_of_uncaught {e : Fault} (h : x w = .error e w') (he : e.isError = false) :
    x.attempt w = .error e w' := by
  rw [attempt, h]
  exact if_neg (by rw [he]; exact Bool.false_ne_true)

end Bind

/-! ### Loops -/

section Loops

variable {f : α → Act γ PUnit} {w w' moment : World γ}

/-- Once a loop is through with some items, it goes on with the others from there. -/
theorem forM_append_of_ok {before : List α} (after : List α)
    (hok : before.forM f w = .ok ⟨⟩ moment) :
    (before ++ after).forM f w = after.forM f moment := by
  induction before generalizing w with
  | nil =>
    cases hok
    rfl
  | cons a rest ih =>
    obtain ⟨_, w₁, ha, hrest⟩ := exists_of_bind_ok hok
    exact (bind_of_ok ha _).trans (ih hrest)

/-- A loop fails at one of its items, being through with those before it. -/
theorem exists_of_forM_eq_error {l : List α} {e : Fault} (h : l.forM f w = .error e w') :
    ∃ before a after moment, l = before ++ a :: after ∧
      before.forM f w = .ok ⟨⟩ moment ∧ f a moment = .error e w' := by
  induction l generalizing w with
  | nil => cases h
  | cons a rest ih =>
    cases ha : f a w with
    | error e₁ w₁ =>
      obtain ⟨rfl, rfl⟩ := EStateM.Result.error.inj ((bind_of_error ha _).symm.trans h)
      exact ⟨[], a, rest, w, rfl, rfl, ha⟩
    | ok r w₁ =>
      obtain ⟨before, b, after, moment, rfl, hok, herr⟩ := ih ((bind_of_ok ha _).symm.trans h)
      exact ⟨a :: before, b, after, moment, rfl, (bind_of_ok ha _).trans hok, herr⟩

end Loops

namespace Act

/-- The world that a computation leaves behind, whatever its outcome. -/
def final (x : Act γ α) (w : World γ) : World γ :=
  match x w with
  | .ok _ w => w
  | .error _ w => w

/-- The fault in which a computation ends. -/
def fault? (x : Act γ α) (w : World γ) : Option Fault :=
  match x w with
  | .ok _ _ => none
  | .error e _ => some e

theorem eq_error_of_fault? {x : Act γ α} {w : World γ} {e : Fault} (h : fault? x w = some e) :
    x w = .error e (final x w) := by
  unfold fault? at h
  unfold final
  cases hx : x w with
  | ok a w₁ =>
    rw [hx] at h
    cases h
  | error e₁ w₁ =>
    rw [hx] at h
    cases h
    rfl

theorem exists_eq_ok_of_fault? {x : Act γ α} {w : World γ} (h : fault? x w = none) :
    ∃ a, x w = .ok a (final x w) := by
  unfold fault? at h
  unfold final
  cases hx : x w with
  | ok a w₁ => exact ⟨a, rfl⟩
  | error e w₁ =>
    rw [hx] at h
    cases h

/-- What a computation keeps, and what follows it keeps, both keep. -/
theorem final_bind_keeps {Q : World γ → Prop} {x : Act γ α} {f : α → Act γ β} {w : World γ}
    (hx : Q (final x w)) (hf : ∀ {a w'}, x w = .ok a w' → Q w' → Q (final (f a) w')) :
    Q (final (x >>= f) w) := by
  unfold final at hx
  cases hr : x w with
  | ok a w' =>
    rw [hr] at hx
    rw [final, bind_of_ok hr]
    exact hf hr hx
  | error e w' =>
    rw [hr] at hx
    rw [final, bind_of_error hr]
    exact hx

/-! ### Along a relation -/

/-- A computation leaves behind a session that is related to the one it found. -/
def Along (R : Session → Session → Prop) (x : Act γ α) : Prop :=
  ∀ w : World γ, R w.session (final x w).session

section Along

variable {R : Session → Session → Prop} {x : Act γ α}

theorem Along.of_ok (hx : Along R x) {a : α} {w w' : World γ} (h : x w = .ok a w') :
    R w.session w'.session := by
  have hw := hx w
  rwa [final, h] at hw

theorem Along.of_error (hx : Along R x) {e : Fault} {w w' : World γ} (h : x w = .error e w') :
    R w.session w'.session := by
  have hw := hx w
  rwa [final, h] at hw

theorem Along.ite {c : Prop} [Decidable c] {y : Act γ α} (hx : Along R x) (hy : Along R y) :
    Along R (if c then x else y) := by
  split
  · exact hx
  · exact hy

theorem Along.attempt (hx : Along R x) : Along R x.attempt := by
  intro w
  have h := hx w
  unfold final Act.attempt at *
  cases hr : x w with
  | ok a w₁ =>
    rw [hr] at h
    exact h
  | error e w₁ =>
    rw [hr] at h
    cases he : e.isError with
    | true => simpa [he] using h
    | false => simpa [he] using h

/-- A computation that goes on with the session it finds. -/
theorem Along.session_bind {f : Session → Act γ α}
    (hf : ∀ w : World γ, R w.session (final (f w.session) w).session) :
    Along R (Act.session >>= f) := hf

theorem Along.modifySession {f : Session → Session} (hf : ∀ s : Session, R s (f s)) :
    Along R (modifySession f : Act γ Unit) := fun w => hf w.session

variable [IsPreorder Session R]

theorem Along.pure (a : α) : Along R (Pure.pure a : Act γ α) := fun w => refl_of R w.session

theorem Along.throw (e : Fault) : Along R (throw e : Act γ α) := fun w => refl_of R w.session

theorem Along.session : Along R (session : Act γ Session) := fun w => refl_of R w.session

theorem Along.bind {f : α → Act γ β} (hx : Along R x) (hf : ∀ a, Along R (f a)) :
    Along R (x >>= f) := fun w =>
  final_bind_keeps (Q := fun w' => R w.session w'.session) (hx w)
    fun {a w'} _ hw' => trans_of R hw' (hf a w')

theorem Along.tryCatch {handle : Fault → Act γ α} (hx : Along R x)
    (hh : ∀ e, Along R (handle e)) : Along R (tryCatch x handle) := by
  intro w
  have h := hx w
  unfold final at h ⊢
  show R w.session (match EStateM.tryCatch x handle w with | .ok _ w => w | .error _ w => w).session
  unfold EStateM.tryCatch
  cases hr : x w with
  | ok a w₁ =>
    simp only [hr] at h ⊢
    exact h
  | error e w₁ =>
    simp only [hr] at h ⊢
    exact trans_of R h (hh e w₁)

theorem Along.after {f : World γ → World γ} (hx : Along R x)
    (hf : ∀ w : World γ, R w.session (f w).session) : Along R (x.after f) := by
  intro w
  have h := hx w
  unfold final Act.after at *
  cases hr : x w with
  | ok a w₁ =>
    rw [hr] at h
    exact trans_of R h (hf w₁)
  | error e w₁ =>
    rw [hr] at h
    exact trans_of R h (hf w₁)

end Along

/-! ### The rules -/

/-- A computation leaves behind a session that has evolved from the one it found. -/
def Evolving (x : Act γ α) : Prop := ∀ w : World γ, w.session.Evolves (final x w).session

instance : IsPreorder Session Session.Evolves where
  refl _ := .refl
  trans _ _ _ := .trans

theorem Evolving.of_ok {x : Act γ α} (hx : Evolving x) {a : α} {w w' : World γ}
    (h : x w = .ok a w') : w.session.Evolves w'.session := Along.of_ok hx h

theorem Evolving.of_error {x : Act γ α} (hx : Evolving x) {e : Fault} {w w' : World γ}
    (h : x w = .error e w') : w.session.Evolves w'.session := Along.of_error hx h

theorem Evolving.pure (a : α) : Evolving (Pure.pure a : Act γ α) := Along.pure a

theorem Evolving.throw (e : Fault) : Evolving (throw e : Act γ α) := Along.throw e

theorem Evolving.bind {x : Act γ α} {f : α → Act γ β} (hx : Evolving x)
    (hf : ∀ a, Evolving (f a)) : Evolving (x >>= f) := Along.bind hx hf

theorem Evolving.ite {c : Prop} [Decidable c] {x y : Act γ α} (hx : Evolving x)
    (hy : Evolving y) : Evolving (if c then x else y) := Along.ite hx hy

theorem Evolving.tryCatch {x : Act γ α} {handle : Fault → Act γ α} (hx : Evolving x)
    (hh : ∀ e, Evolving (handle e)) : Evolving (tryCatch x handle) := Along.tryCatch hx hh

theorem Evolving.after {x : Act γ α} {f : World γ → World γ} (hx : Evolving x)
    (hf : ∀ w : World γ, w.session.Evolves (f w).session) : Evolving (x.after f) :=
  Along.after hx hf

theorem Evolving.attempt {x : Act γ α} (hx : Evolving x) : Evolving x.attempt := Along.attempt hx

/-! ### The session and its heap -/

theorem Evolving.session : Evolving (session : Act γ Session) := Along.session

theorem Evolving.session_bind {f : Session → Act γ α}
    (hf : ∀ w : World γ, w.session.Evolves (final (f w.session) w).session) :
    Evolving (Act.session >>= f) := Along.session_bind hf

theorem Evolving.modifySession {f : Session → Session} (hf : ∀ s : Session, s.Evolves (f s)) :
    Evolving (modifySession f : Act γ Unit) := Along.modifySession hf

theorem Evolving.modifyHeap {f : Heap → Heap} (hf : ∀ h : Heap, h.Evolves (f h)) :
    Evolving (modifyHeap f : Act γ Unit) := fun w => .ofHeap (hf w.session.heap)

theorem Evolving.orFail (x : Except ConversionError α) : Evolving (orFail x : Act γ α) := by
  cases x with
  | ok a => exact .pure a
  | error e => exact .throw _

theorem Evolving.onHeap {f : Heap → α × Heap} (hf : ∀ h : Heap, h.Evolves (f h).2) :
    Evolving (onHeap f : Act γ α) := fun w => .ofHeap (hf w.session.heap)

section TryHeap

variable {f : Heap → Except ConversionError (α × Heap)} {w w' : World γ}

theorem tryHeap_of_ok {r : α × Heap} (hf : f w.session.heap = .ok r) :
    tryHeap f w = .ok r.1 ⟨{ w.session with heap := r.2 }, w.guest⟩ := by
  refine (bind_of_ok (rfl : (Act.heap : Act γ Heap) w = .ok w.session.heap w) _).trans ?_
  rw [hf]
  rfl

theorem tryHeap_of_error {e : ConversionError} (hf : f w.session.heap = .error e) :
    tryHeap f w = .error (.marshal e) w := by
  refine (bind_of_ok (rfl : (Act.heap : Act γ Heap) w = .ok w.session.heap w) _).trans ?_
  rw [hf]
  rfl

theorem heap_of_tryHeap {a : α} (h : tryHeap f w = .ok a w') :
    f w.session.heap = .ok (a, w'.session.heap) := by
  cases hf : f w.session.heap with
  | error e => cases (tryHeap_of_error hf).symm.trans h
  | ok r =>
    cases (tryHeap_of_ok hf).symm.trans h
    rfl

theorem Evolving.tryHeap (hf : ∀ {h r}, f h = .ok r → h.Evolves r.2) :
    Evolving (tryHeap f : Act γ α) := by
  intro w
  cases hr : f w.session.heap with
  | error e =>
    rw [final, tryHeap_of_error hr]
    exact .refl
  | ok r =>
    rw [final, tryHeap_of_ok hr]
    exact .ofHeap (hf hr)

end TryHeap

section TryChange

variable {f : Heap → Except ConversionError Heap} {w : World γ}

theorem tryChange_of_ok {h : Heap} (hf : f w.session.heap = .ok h) :
    tryChange f w = .ok ⟨⟩ ⟨{ w.session with heap := h }, w.guest⟩ := by
  refine (bind_of_ok (rfl : (Act.heap : Act γ Heap) w = .ok w.session.heap w) _).trans ?_
  rw [hf]
  rfl

theorem tryChange_of_error {e : ConversionError} (hf : f w.session.heap = .error e) :
    tryChange f w = .error (.marshal e) w := by
  refine (bind_of_ok (rfl : (Act.heap : Act γ Heap) w = .ok w.session.heap w) _).trans ?_
  rw [hf]
  rfl

end TryChange

section OnStore

variable {x : StoreAct α} {w : World γ} {st : Store}

theorem onStore_of_ok {a : α} (h : x w.session.store = .ok a st) :
    onStore x w = .ok a ⟨w.session.withStore st, w.guest⟩ := by
  rw [onStore, h]

theorem onStore_of_error {r : Report} (h : x w.session.store = .error r st) :
    onStore x w = .error (.failed r) ⟨w.session.withStore st, w.guest⟩ := by
  rw [onStore, h]

end OnStore

theorem evolves_swept (w : World γ) : w.session.Evolves (swept w).session :=
  (Session.Change.crossed []).evolves.trans (.ofHeap (.releaseAll w.session.crossed))

theorem Evolving.cross (v : Value) : Evolving (cross v : Act γ Unit) :=
  .modifySession fun _ => (Session.Change.crossed _).evolves

theorem Evolving.give (v : Value) : Evolving (give v : Act γ Reference) :=
  (Evolving.cross v).bind fun _ => .pure _

theorem Evolving.arg (r : Reference) : Evolving (arg r : Act γ Value) := .orFail _

end Act

end ModuleHost
