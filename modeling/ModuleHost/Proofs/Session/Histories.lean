/-
Histories of what is dispatched.

A history says when a microtask was queued, when one was dispatched, also if its callback failed,
and when a timer fired.  Histories follow the text of the loops, so that they go on after a failure
where the next drive takes up the queue.  What they say is dispatched or fires is on record: the
host calls the export for callbacks once for each, with its callback, in this order.

* `drainHistory`, `fireHistory`, `settleHistory`, `pumpHistory` — the histories;
* `drainHistory_of_cons`, `fireHistory_of_handsOut` — one round of them;
* `Invokes`, `Act.Invoking` — the calls of callbacks that run one after the other;
* `Machine.Evolving.drainMicrotasks_invoking`, `.fireTimers_invoking` — by induction on the budget;
* `fired_fireHistory_of_fires` — the timers that fire in a history are those of the rounds.
-/
import Mathlib
import ModuleHost.Proofs.Session.Guests
import ModuleHost.Proofs.Session.Recording
import ModuleHost.Proofs.Timer.Pumping

namespace ModuleHost

open Act

variable {γ α β : Type}

/-! ### Histories -/

/-- Something that happens to the microtasks of a session, or a timer that fires. -/
inductive Happening where
  | queued (callback : Int32)
  | dispatched (callback : Int32)
  | fired (callback : Int32)
  deriving DecidableEq

namespace Happening

def queued? : Happening → Option Int32
  | queued callback => some callback
  | _ => none

def dispatched? : Happening → Option Int32
  | dispatched callback => some callback
  | _ => none

def fired? : Happening → Option Int32
  | fired callback => some callback
  | _ => none

end Happening

/-- What happens, in order. -/
abbrev History := List Happening

namespace History

variable {h h' : History}

/-- The microtasks that are queued in a history. -/
def queued (h : History) : List Int32 := h.filterMap Happening.queued?

/-- The microtasks that are dispatched in a history. -/
def dispatched (h : History) : List Int32 := h.filterMap Happening.dispatched?

/-- The callbacks of the timers that fire in a history. -/
def fired (h : History) : List Int32 := h.filterMap Happening.fired?

@[simp] theorem queued_append : queued (h ++ h') = queued h ++ queued h' := List.filterMap_append

@[simp] theorem dispatched_append : dispatched (h ++ h') = dispatched h ++ dispatched h' :=
  List.filterMap_append

@[simp] theorem fired_append : fired (h ++ h') = fired h ++ fired h' := List.filterMap_append

/-- The history of a computation that queues microtasks. -/
def asked (callbacks : List Int32) : History := callbacks.map .queued

variable {callbacks : List Int32}

@[simp] theorem queued_asked : queued (asked callbacks) = callbacks := by
  simp [queued, asked, List.filterMap_map, Function.comp_def, Happening.queued?]

@[simp] theorem dispatched_asked : dispatched (asked callbacks) = [] := by
  simp [dispatched, asked, Happening.dispatched?]

@[simp] theorem fired_asked : fired (asked callbacks) = [] := by
  simp [fired, asked, Happening.fired?]

end History

open History

/-- What happens after a computation, if it returns. -/
def onReturn (x : Act γ α) (w : World γ) (rest : World γ → History) : History :=
  match x w with
  | .ok _ w' => rest w'
  | .error _ _ => []

theorem onReturn_of_ok {x : Act γ α} {w w' : World γ} {a : α} (h : x w = .ok a w')
    (rest : World γ → History) : onReturn x w rest = rest w' := by
  unfold onReturn
  rw [h]

theorem onReturn_of_error {x : Act γ α} {w w' : World γ} {e : Fault} (h : x w = .error e w')
    (rest : World γ → History) : onReturn x w rest = [] := by
  unfold onReturn
  rw [h]

theorem onReturn_nil (x : Act γ α) (w : World γ) : onReturn x w (fun _ => []) = [] := by
  unfold onReturn
  cases x w <;> rfl

/-- The history of a computation of the module, or of anything else that only asks. -/
def askHistory (x : Act γ α) (w : World γ) : History := asked (queues x w)

/-- The world after the first microtask has been taken out of the queue. -/
def afterTakingMicrotask (w : World γ) : World γ :=
  ⟨{ w.session with timers := w.session.timers.takeMicrotask.2 }, w.guest⟩

section Histories

variable (m : Machine γ) (budget : ℕ)

/-- The history of running microtasks until none is queued. -/
def drainHistory : ℕ → World γ → History
  | 0, _ => []
  | budget + 1, w =>
    match w.queued with
    | [] => []
    | callback :: _ =>
      let taken := afterTakingMicrotask w
      .dispatched callback :: (askHistory (runCallback m callback) taken
        ++ onReturn (runCallback m callback) taken (drainHistory budget))

/-- The history of firing due timers until none is left, each followed by microtasks. -/
def fireHistory (instant : ℕ) : ℕ → World γ → History
  | 0, _ => []
  | budget + 1, w =>
    match takeDue instant w with
    | .ok (some callback) taken =>
      .fired callback :: (askHistory (runCallback m callback) taken
        ++ onReturn (runCallback m callback) taken fun ran => drainHistory m budget ran
          ++ onReturn (drainMicrotasks m budget) ran (fireHistory instant budget))
    | _ => []

/-- The history of settling. -/
def settleHistory (w : World γ) : History :=
  drainHistory m budget w ++ onReturn (drainMicrotasks m budget) w fun drained =>
    askHistory (announceOrphans m) drained
      ++ onReturn (announceOrphans m) drained (askHistory (runCleanups m))

def pumpHistory (instant : ℕ) (w : World γ) : History :=
  fireHistory m instant budget w
    ++ onReturn (fireTimers m instant budget) w (settleHistory m budget)

end Histories

/-! ### Rounds -/

section Rounds

variable {m : Machine γ} {x : Act γ α} {w w' : World γ} {budget : ℕ}

theorem takeMicrotask_eq (w : World γ) :
    takeMicrotask w = .ok w.session.timers.takeMicrotask.1 (afterTakingMicrotask w) := rfl

theorem takeMicrotask_of_nil (hw : w.queued = []) : takeMicrotask w = .ok none w := by
  have htake : w.session.timers.takeMicrotask = (none, w.session.timers) := by
    rw [TimerQueue.takeMicrotask, show w.session.timers.microtasks = [] from hw]
  rw [takeMicrotask_eq, afterTakingMicrotask, htake]

theorem takeMicrotask_of_cons {callback : Int32} {rest : List Int32}
    (hw : w.queued = callback :: rest) :
    takeMicrotask w = .ok (some callback) (afterTakingMicrotask w) ∧
      (afterTakingMicrotask w).queued = rest := by
  have htake : w.session.timers.takeMicrotask
      = (some callback, { w.session.timers with microtasks := rest }) := by
    rw [TimerQueue.takeMicrotask, show w.session.timers.microtasks = callback :: rest from hw]
  rw [takeMicrotask_eq, World.queued, afterTakingMicrotask, htake]
  exact ⟨rfl, rfl⟩

theorem drainMicrotasks_of_nil (hw : w.queued = []) :
    drainMicrotasks m (budget + 1) w = .ok 0 w := bind_of_ok (takeMicrotask_of_nil hw) _

theorem drainMicrotasks_of_cons {callback : Int32} {rest : List Int32}
    (hw : w.queued = callback :: rest) :
    drainMicrotasks m (budget + 1) w = (runCallback m callback >>= fun _ =>
      drainMicrotasks m budget >>= fun n => pure (n + 1)) (afterTakingMicrotask w) :=
  bind_of_ok (takeMicrotask_of_cons hw).1 _

theorem drainHistory_of_nil (hw : w.queued = []) : drainHistory m (budget + 1) w = [] := by
  rw [drainHistory, hw]

theorem drainHistory_of_cons {callback : Int32} {rest : List Int32}
    (hw : w.queued = callback :: rest) :
    drainHistory m (budget + 1) w = .dispatched callback ::
      (askHistory (runCallback m callback) (afterTakingMicrotask w)
        ++ onReturn (runCallback m callback) (afterTakingMicrotask w) (drainHistory m budget)) := by
  rw [drainHistory, hw]

theorem queued_afterTakingDue (instant : ℕ) (w : World γ) :
    (afterTakingDue instant w).queued = w.queued := by
  show (w.session.timers.takeDue instant).2.microtasks = w.session.timers.microtasks
  unfold TimerQueue.takeDue
  split
  · rfl
  · split
    · rfl
    · split <;> rfl

theorem fireTimers_of_none {instant : ℕ} (h : takeDue instant w = .ok none w) :
    fireTimers m instant (budget + 1) w = .ok 0 w := bind_of_ok h _

theorem fireTimers_of_error {instant : ℕ} {e : Fault} (h : takeDue instant w = .error e w') :
    fireTimers m instant (budget + 1) w = .error e w' := bind_of_error h _

theorem fireTimers_round {t : Timer} {instant : ℕ} (out : HandsOut instant w t) :
    fireTimers m instant (budget + 1) w = (runCallback m t.callback >>= fun _ =>
      drainMicrotasks m budget >>= fun _ => fireTimers m instant budget >>= fun n =>
        pure (n + 1)) (afterTakingDue instant w) := bind_of_ok out.taken _

theorem fireHistory_of_handsOut {t : Timer} {instant : ℕ} (out : HandsOut instant w t) :
    fireHistory m instant (budget + 1) w = .fired t.callback ::
      (askHistory (runCallback m t.callback) (afterTakingDue instant w)
        ++ onReturn (runCallback m t.callback) (afterTakingDue instant w) fun ran =>
          drainHistory m budget ran
            ++ onReturn (drainMicrotasks m budget) ran (fireHistory m instant budget)) := by
  rw [fireHistory, out.taken]

theorem fireHistory_of_ne {instant : ℕ} (h : ∀ callback taken,
    takeDue instant w ≠ .ok (some callback) taken) : fireHistory m instant (budget + 1) w = [] := by
  rw [fireHistory]
  split
  · rename_i callback taken htaken
    exact absurd htaken (h callback taken)
  · rfl

theorem fired_askHistory (x : Act γ α) : fired (askHistory x w) = [] := fired_asked

theorem fired_onReturn {rest : World γ → History} (hrest : ∀ w', fired (rest w') = []) :
    fired (onReturn x w rest) = [] := by
  unfold onReturn
  split
  · exact hrest _
  · rfl

theorem fired_drainHistory (budget : ℕ) : ∀ w : World γ, fired (drainHistory m budget w) = [] := by
  induction budget with
  | zero => exact fun _ => rfl
  | succ budget ih =>
    intro w
    cases hw : w.queued with
    | nil => rw [drainHistory_of_nil hw]; rfl
    | cons callback rest =>
      have hrest : fired (askHistory (runCallback m callback) (afterTakingMicrotask w)
          ++ onReturn (runCallback m callback) (afterTakingMicrotask w) (drainHistory m budget))
          = [] := by
        rw [fired_append, fired_askHistory, fired_onReturn ih, List.append_nil]
      rw [drainHistory_of_cons hw]
      exact hrest

end Rounds

/-! ### Callbacks on record -/

/-- The callback that runs. -/
def Happening.invoked? : Happening → Option Int32
  | queued _ => none
  | dispatched callback | fired callback => some callback

/-- The callbacks that run in a history, of microtasks and of timers. -/
def History.invoked (h : History) : List Int32 := h.filterMap Happening.invoked?

@[simp] theorem History.invoked_append (h h' : History) :
    invoked (h ++ h') = invoked h ++ invoked h' := List.filterMap_append

@[simp] theorem History.invoked_asked (callbacks : List Int32) :
    invoked (asked callbacks) = [] := by
  simp [invoked, asked, Happening.invoked?]

/-- What is asked of a machine for callbacks that run one after the other: each is called in the
session to which the one before it has evolved. -/
inductive Invokes : Session → List Int32 → List Asked → Session → Prop
  | done {s s' : Session} (later : s.Evolves s') : Invokes s [] [] s'
  | next {s s₁ s' : Session} {callback : Int32} {callbacks : List Int32} {requests : List Asked}
      (later : s.Evolves s₁) (rest : Invokes s₁ callbacks requests s') :
      Invokes s (callback :: callbacks) (s₁.invoking callback ++ requests) s'

section Invokes

variable {s s₁ s' : Session} {callbacks callbacks' : List Int32} {requests requests' : List Asked}

theorem Invokes.of_evolves (hev : s.Evolves s₁) (h : Invokes s₁ callbacks requests s') :
    Invokes s callbacks requests s' := by
  cases h with
  | done later => exact .done (hev.trans later)
  | next later rest => exact .next (hev.trans later) rest

theorem Invokes.append (h : Invokes s callbacks requests s₁)
    (h' : Invokes s₁ callbacks' requests' s') :
    Invokes s (callbacks ++ callbacks') (requests ++ requests') s' := by
  induction h with
  | done later => exact h'.of_evolves later
  | next later rest ih =>
    rw [List.cons_append, List.append_assoc]
    exact .next later (ih h')

end Invokes

/-- A computation that keeps a record comes to the same as one that keeps none, and puts on record
the calls of the callbacks that run in the history of that one. -/
structure Act.Invoking (x : Act (γ × List Asked) α) (y : Act γ α)
    (history : World γ → History) : Prop where
  forgets : Forgets x y
  recorded : ∀ w, ∃ requests, recordAfter x w = w.guest.2 ++ requests ∧
    Invokes w.session (invoked (history w.forget)) requests (final y w.forget).session

namespace Act.Invoking

variable {x : Act (γ × List Asked) α} {y : Act γ α} {h h' : World γ → History}

theorem bind {f : α → Act (γ × List Asked) β} {g : α → Act γ β} (hx : Invoking x y h)
    (hf : ∀ a, Invoking (f a) (g a) h') :
    Invoking (x >>= f) (y >>= g) fun w => h w ++ onReturn y w h' := by
  refine ⟨hx.forgets.bind fun a => (hf a).forgets, fun w => ?_⟩
  obtain ⟨requests, hrecord, hinvokes⟩ := hx.recorded w
  cases hr : x w with
  | error e w₁ =>
    have hy := hx.forgets.of_error hr
    rw [final, hy] at hinvokes
    rw [recordAfter_congr (bind_of_error hr f), final, bind_of_error hy, onReturn_of_error hy,
      List.append_nil]
    rw [recordAfter_of_error hr] at hrecord
    exact ⟨requests, hrecord, hinvokes⟩
  | ok a w₁ =>
    have hy := hx.forgets.of_ok hr
    obtain ⟨requests', hrecord', hinvokes'⟩ := (hf a).recorded w₁
    rw [final, hy] at hinvokes
    rw [recordAfter_congr (bind_of_ok hr f), final, bind_of_ok hy, onReturn_of_ok hy,
      invoked_append]
    -- the second computation adds to the record that the first one leaves
    rw [recordAfter_of_ok hr] at hrecord
    refine ⟨requests ++ requests', ?_, hinvokes.append hinvokes'⟩
    rw [hrecord', hrecord, List.append_assoc]

/-- A result that is made of another one puts nothing else on record. -/
theorem map (hx : Invoking x y h) (g : α → β) :
    Invoking (x >>= fun a => pure (g a)) (y >>= fun a => pure (g a)) h := by
  have hpure : ∀ a, Invoking (pure (g a)) (pure (g a) : Act γ β) fun _ => [] := fun a =>
    ⟨.pure (g a), fun w => ⟨[], (List.append_nil _).symm, .done .refl⟩⟩
  simpa only [onReturn_nil, List.append_nil] using hx.bind hpure

end Act.Invoking

section Loops

variable {m : Machine γ}

theorem Act.Forgets.takeDue (instant : ℕ) :
    Forgets (takeDue instant) (ModuleHost.takeDue instant : Act γ (Option Int32)) := by
  intro w
  rw [takeDue_eq, takeDue_eq, show w.forget.session = w.session from rfl]
  cases (w.session.timers.takeDue instant).1 <;> rfl

theorem HandsOut.forget {instant : ℕ} {w : World (γ × List Asked)} {t : Timer}
    (out : HandsOut instant w t) : HandsOut instant w.forget t :=
  ⟨out.next, out.dispatched, (Forgets.takeDue instant).of_ok out.taken⟩

/-- A callback that is dispatched is one call on record, and whatever it asks for is none. -/
theorem Machine.Evolving.runCallback_invoking (hm : m.Evolving) (happening : Happening)
    {callback : Int32} (hc : happening.invoked? = some callback) :
    Invoking (runCallback m.recorded callback) (runCallback m callback)
      fun w => happening :: askHistory (runCallback m callback) w := by
  refine ⟨.runCallback m callback, fun w =>
    ⟨w.session.invoking callback, recordAfter_runCallback m callback w, ?_⟩⟩
  have hev := (Patient.runCallback callback).orderly.evolving hm w.forget
  have honly : invoked (happening :: askHistory (runCallback m callback) w.forget)
      = [callback] := by
    rw [askHistory, invoked, List.filterMap_cons, hc]
    exact congrArg _ (invoked_asked _)
  rw [honly]
  have hone : Invokes w.session [callback] (w.session.invoking callback ++ []) _ :=
    .next .refl (.done hev)
  rwa [List.append_nil] at hone

/-- By induction on the budget: in each round the callback that is dispatched is called. -/
theorem Machine.Evolving.drainMicrotasks_invoking (hm : m.Evolving) (budget : ℕ) :
    Invoking (drainMicrotasks m.recorded budget) (drainMicrotasks m budget)
      (drainHistory m budget) := by
  induction budget with
  | zero => exact ⟨.throw _, fun w => ⟨[], (List.append_nil _).symm, .done .refl⟩⟩
  | succ budget ih =>
    refine ⟨Forgets.takeMicrotask.bind fun callback => ?_, fun w => ?_⟩
    · cases callback with
      | none => exact .pure _
      | some callback =>
        exact (Forgets.runCallback m callback).bind fun _ => ih.forgets.bind fun _ => .pure _
    · have htaken : w.session.Evolves (afterTakingMicrotask w).session :=
        (Session.Change.timers .unqueued).evolves
      cases hw : w.queued with
      | nil =>
        have hnone : w.forget.queued = [] := hw
        rw [recordAfter_of_ok (drainMicrotasks_of_nil hw), drainHistory_of_nil hnone, final,
          drainMicrotasks_of_nil hnone]
        exact ⟨[], (List.append_nil _).symm, .done .refl⟩
      | cons callback rest =>
        have hsome : w.forget.queued = callback :: rest := hw
        obtain ⟨requests, hrecord, hinvokes⟩ :=
          ((hm.runCallback_invoking (.dispatched callback) rfl).bind
            fun _ => ih.map (· + 1)).recorded (afterTakingMicrotask w)
        rw [recordAfter_congr (drainMicrotasks_of_cons hw), drainHistory_of_cons hsome, final,
          drainMicrotasks_of_cons hsome]
        exact ⟨requests, hrecord, hinvokes.of_evolves htaken⟩

/-- By induction on the budget: in each round the callback of the timer is called, and then those
of the microtasks after it. -/
theorem Machine.Evolving.fireTimers_invoking (hm : m.Evolving) (instant budget : ℕ) :
    Invoking (fireTimers m.recorded instant budget) (fireTimers m instant budget)
      (fireHistory m instant budget) := by
  induction budget with
  | zero => exact ⟨.throw _, fun w => ⟨[], (List.append_nil _).symm, .done .refl⟩⟩
  | succ budget ih =>
    have hdrain := hm.drainMicrotasks_invoking budget
    refine ⟨(Forgets.takeDue instant).bind fun callback => ?_, fun w => ?_⟩
    · cases callback with
      | none => exact .pure _
      | some callback =>
        exact (Forgets.runCallback m callback).bind fun _ => hdrain.forgets.bind fun _ =>
          ih.forgets.bind fun _ => .pure _
    · have htaken : w.session.Evolves (afterTakingDue instant w).session :=
        (Session.Change.timers (.due instant)).evolves
      obtain ⟨-, hnone⟩ | ⟨t, out⟩ | ⟨-, hpanic⟩ := takeDue_cases instant w
      · have hforget := (Forgets.takeDue instant).of_ok hnone
        rw [recordAfter_of_ok (fireTimers_of_none hnone), fireHistory_of_ne (by simp [hforget]),
          final, fireTimers_of_none hforget]
        exact ⟨[], (List.append_nil _).symm, .done .refl⟩
      · obtain ⟨requests, hrecord, hinvokes⟩ :=
          ((hm.runCallback_invoking (.fired t.callback) rfl).bind
            fun _ => hdrain.bind fun _ => ih.map (· + 1)).recorded (afterTakingDue instant w)
        rw [recordAfter_congr (fireTimers_round out), fireHistory_of_handsOut out.forget, final,
          fireTimers_round out.forget]
        exact ⟨requests, hrecord, hinvokes.of_evolves htaken⟩
      · have hforget := (Forgets.takeDue instant).of_error hpanic
        rw [recordAfter_of_error (fireTimers_of_error hpanic),
          fireHistory_of_ne (by simp [hforget]), final, fireTimers_of_error hforget]
        exact ⟨[], (List.append_nil _).symm, .done htaken⟩

/-- The timers that fire in a history are those of the rounds, in their order. -/
theorem fired_fireHistory_of_fires {instant budget : ℕ} {w w' : World γ} {rounds : List Round}
    {ending : Ending} (h : Fires m instant budget w rounds ending w') :
    fired (fireHistory m instant budget w) = rounds.map (·.timer.callback) := by
  induction h with
  | exhausted => rfl
  | nothing none =>
    rename_i budget w
    obtain ⟨-, htaken⟩ | ⟨t, out⟩ | ⟨⟨t, p, ht, -⟩, -⟩ := takeDue_cases instant w
    · rw [fireHistory_of_ne (by simp [htaken])]
      rfl
    · cases none.symm.trans out.next
    · cases none.symm.trans ht
  | overflowed spent =>
    rw [fireHistory_of_ne (by simp [takeDue_eq_panic_iff.mpr spent])]
    rfl
  | @failed budget w w' t asked e out ran timers =>
    rw [fireHistory_of_handsOut out]
    have hnone : ∀ l : History, fired l = [] → t.callback :: fired (askHistory
        (runCallback m t.callback) (afterTakingDue instant w) ++ l) = [t.callback] := by
      intro l hl
      rw [fired_append, fired_askHistory, hl]
      rfl
    refine hnone _ ?_
    -- either the callback fails, or one of the microtasks after it
    cases hr : runCallback m t.callback (afterTakingDue instant w) with
    | error e' w₁ =>
      rw [onReturn_of_error hr]
      rfl
    | ok _ ran' =>
      rw [runRound, bind_of_ok hr] at ran
      rw [onReturn_of_ok hr, fired_append, fired_drainHistory, onReturn_of_error ran]
      rfl
  | @fired budget n w w₁ w' t asked rounds ending out ran timers rest ih =>
    obtain ⟨_, ran', hcallback, hdrain⟩ := exists_of_bind_ok ran
    rw [fireHistory_of_handsOut out, onReturn_of_ok hcallback, onReturn_of_ok hdrain]
    show t.callback :: fired (_ ++ (_ ++ _)) = t.callback :: _
    rw [fired_append, fired_append, fired_askHistory, fired_drainHistory, ih]
    rfl

end Loops

end ModuleHost
