/-
Microtasks over whole runs of a session.

A run is what the embedder drives one after the other: the entry point, pumps, microtasks, and
whatever else calls the module.  Its history puts those of the drives together.

* `Act.Balanced` — what has been dispatched, followed by the queue, is what was in the queue
  followed by what has been queued; `Balanced.bind` puts computations together;
* `balanced_drain`, `balanced_fire`, `Drive.balanced` — by induction on the budget;
* `Drive.history`, `runHistory` — the histories of runs;
* `fireHistory_caughtUp` — when a timer fires, all microtasks of the timers before it have been
  dispatched;
* `microtasks_in_order` — the main theorem.
-/
import Mathlib
import ModuleHost.Proofs.Session.Announcements
import ModuleHost.Proofs.Session.Histories

namespace ModuleHost

open Act History

variable {γ α β : Type}

/-! ### Balance -/

/-- What is dispatched, followed by the queue, is the queue as it was, followed by what is
queued. -/
def Act.Balanced (x : Act γ α) (history : World γ → History) : Prop :=
  ∀ w, (history w).dispatched ++ (final x w).queued = w.queued ++ (history w).queued

section Balance

variable {m : Machine γ} {x : Act γ α} {h h' : World γ → History} {w w' : World γ} {budget : ℕ}

theorem Act.Asking.balanced (hx : Asking x) : Balanced x (askHistory x) := by
  intro w
  rw [hx.queued_final]
  simp [askHistory]

theorem Act.Balanced.bind {f : α → Act γ β} (hx : Balanced x h) (hf : ∀ a, Balanced (f a) h') :
    Balanced (x >>= f) fun w => h w ++ onReturn x w h' := by
  intro w
  have hw := hx w
  beta_reduce
  cases hr : x w with
  | error e w₁ =>
    rw [final, hr] at hw
    rw [final, bind_of_error hr, onReturn_of_error hr, List.append_nil]
    exact hw
  | ok a w₁ =>
    have hw₁ := hf a w₁
    rw [final, hr] at hw
    rw [final] at hw₁
    -- the second computation starts with the queue that the first one leaves
    rw [final, bind_of_ok hr, onReturn_of_ok hr]
    simp only [dispatched_append, queued_append, List.append_assoc]
    rw [hw₁, ← List.append_assoc, hw, List.append_assoc]

/-- A result that is made of another one happens no later. -/
theorem Act.Balanced.map (hx : Balanced x h) (g : α → β) :
    Balanced (x >>= fun a => pure (g a)) h := by
  intro w
  have hw := hx w
  cases hr : x w with
  | error e w₁ =>
    rw [final, hr] at hw
    rw [final, bind_of_error hr]
    exact hw
  | ok a w₁ =>
    rw [final, hr] at hw
    rw [final, bind_of_ok hr]
    exact hw

/-! ### Microtasks -/

theorem Machine.Asking.runCallback (hm : m.Asking) (callback : Int32) :
    Act.Asking (runCallback m callback) := (Patient.runCallback callback).asking hm

/-- By induction on the budget: in each round the first microtask leaves the queue. -/
theorem balanced_drain (hm : m.Asking) (budget : ℕ) :
    Balanced (drainMicrotasks m budget) (drainHistory m budget) := by
  induction budget with
  | zero => exact fun w => (List.append_nil _).symm
  | succ budget ih =>
    intro w
    cases hw : w.queued with
    | nil =>
      rw [final, drainMicrotasks_of_nil hw, drainHistory_of_nil hw]
      exact hw
    | cons callback rest =>
      have hround := ((hm.runCallback callback).balanced.bind fun _ => ih.map (· + 1))
        (afterTakingMicrotask w)
      rw [(takeMicrotask_of_cons hw).2] at hround
      rw [final, drainMicrotasks_of_cons hw, drainHistory_of_cons hw]
      exact congrArg (callback :: ·) hround

/-- When running microtasks returns, none is queued, and it returns the number of those that have
been dispatched. -/
theorem drained_of_ok {n : ℕ} (hok : drainMicrotasks m budget w = .ok n w') :
    w'.queued = [] ∧ (dispatched (drainHistory m budget w)).length = n := by
  induction budget generalizing w n with
  | zero => cases hok
  | succ budget ih =>
    cases hw : w.queued with
    | nil =>
      cases (drainMicrotasks_of_nil hw).symm.trans hok
      rw [drainHistory_of_nil hw]
      exact ⟨hw, rfl⟩
    | cons callback rest =>
      rw [drainMicrotasks_of_cons hw] at hok
      obtain ⟨_, ran, hcallback, hrest⟩ := exists_of_bind_ok hok
      obtain ⟨k, w₂, hdrain, hpure⟩ := exists_of_bind_ok hrest
      cases hpure
      obtain ⟨hempty, hlength⟩ := ih hdrain
      refine ⟨hempty, ?_⟩
      rw [drainHistory_of_cons hw, onReturn_of_ok hcallback]
      show (dispatched (askHistory _ _ ++ drainHistory m budget ran)).length + 1 = k + 1
      rw [dispatched_append, askHistory, dispatched_asked, List.nil_append, hlength]

/-! ### Timers -/

/-- By induction on the budget: a round takes no microtask but those that it dispatches. -/
theorem balanced_fire (hm : m.Asking) (instant budget : ℕ) :
    Balanced (fireTimers m instant budget) (fireHistory m instant budget) := by
  induction budget with
  | zero => exact fun w => (List.append_nil _).symm
  | succ budget ih =>
    intro w
    obtain ⟨hnone, htaken⟩ | ⟨t, out⟩ | ⟨-, hoverflow⟩ := takeDue_cases instant w
    · rw [final, fireTimers_of_none htaken, fireHistory_of_ne (by simp [htaken])]
      exact (List.append_nil _).symm
    · have hround := ((hm.runCallback t.callback).balanced.bind fun _ =>
        (balanced_drain hm budget).bind fun _ => ih.map (· + 1)) (afterTakingDue instant w)
      -- taking a timer leaves the microtasks alone
      rw [queued_afterTakingDue] at hround
      rw [final, fireTimers_round out, fireHistory_of_handsOut out]
      exact hround
    · rw [final, fireTimers_of_error hoverflow, fireHistory_of_ne (by simp [hoverflow])]
      refine (queued_afterTakingDue instant w).trans (List.append_nil _).symm

theorem balanced_settle (hm : m.Asking) (budget : ℕ) :
    Balanced (settle m budget) (settleHistory m budget) :=
  (balanced_drain hm budget).bind fun _ => (Patient.announceOrphans.asking hm).balanced.bind
    fun _ => (Patient.runCleanups.asking hm).balanced.map fun _ => PUnit.unit

theorem balanced_pump (hm : m.Asking) (budget instant : ℕ) :
    Balanced (pump m budget instant) (pumpHistory m budget instant) :=
  (balanced_fire hm instant budget).bind fun n => (balanced_settle hm budget).map fun _ => n

/-! ### Catching up -/

theorem fired_settleHistory (budget : ℕ) (w : World γ) :
    fired (settleHistory m budget w) = [] := by
  have hpasses : ∀ drained : World γ, fired (askHistory (announceOrphans m) drained
      ++ onReturn (announceOrphans m) drained (askHistory (runCleanups m))) = [] := by
    intro drained
    rw [fired_append, fired_askHistory, fired_onReturn fun _ => fired_askHistory _,
      List.append_nil]
  rw [settleHistory, fired_append, fired_drainHistory, fired_onReturn hpasses, List.append_nil]

/-- The number that firing due timers returns. -/
theorem length_fired_of_fire_ok {n instant : ℕ} (hok : fireTimers m instant budget w = .ok n w') :
    (fired (fireHistory m instant budget w)).length = n := by
  induction budget generalizing w n with
  | zero => cases hok
  | succ budget ih =>
    obtain ⟨-, htaken⟩ | ⟨t, out⟩ | ⟨-, hoverflow⟩ := takeDue_cases instant w
    · cases (bind_of_ok htaken _).symm.trans hok
      rw [fireHistory_of_ne (by simp [htaken])]
      rfl
    · have hround := (bind_of_ok out.taken _).symm.trans hok
      obtain ⟨_, ran, hcallback, hrest⟩ := exists_of_bind_ok hround
      obtain ⟨_, drained, hdrain, hrest⟩ := exists_of_bind_ok hrest
      obtain ⟨k, w₁, hfire, hpure⟩ := exists_of_bind_ok hrest
      cases hpure
      rw [fireHistory_of_handsOut out, onReturn_of_ok hcallback, onReturn_of_ok hdrain]
      show (fired (askHistory _ _ ++ (drainHistory m budget ran
        ++ fireHistory m instant budget drained))).length + 1 = k + 1
      rw [fired_append, fired_append, fired_askHistory, fired_drainHistory, List.nil_append,
        List.nil_append, ih hfire]
    · cases (bind_of_error hoverflow _).symm.trans hok

theorem length_fired_of_pump_ok {n instant : ℕ} (hok : pump m budget instant w = .ok n w') :
    (fired (pumpHistory m budget instant w)).length = n := by
  obtain ⟨k, w₁, hfire, hrest⟩ := exists_of_bind_ok hok
  obtain ⟨_, w₂, -, hpure⟩ := exists_of_bind_ok hrest
  cases hpure
  rw [pumpHistory, fired_append, fired_onReturn (fired_settleHistory budget), List.append_nil]
  exact length_fired_of_fire_ok hfire

variable {l l' h₁ h₂ : History} {callback : Int32}

theorem not_mem_of_fired (hl : fired l = []) : .fired callback ∉ l := by
  intro hmem
  rw [fired, List.filterMap_eq_nil_iff] at hl
  exact absurd (hl _ hmem) (by simp [Happening.fired?])

/-- A timer that fires after a history without one fires in what follows. -/
theorem exists_of_append_left (hl : fired l = []) (h : l ++ l' = h₁ ++ .fired callback :: h₂) :
    ∃ h', h₁ = l ++ h' ∧ l' = h' ++ .fired callback :: h₂ := by
  obtain ⟨h', hh₁, hl'⟩ | ⟨rest, hsplit, hrest⟩ := List.append_eq_append_iff.mp h
  · exact ⟨h', hh₁, hl'⟩
  · cases rest with
    | nil => exact ⟨[], by simpa using hsplit.symm, by simpa using hrest.symm⟩
    | cons a rest =>
      obtain rfl : Happening.fired callback = a := (List.cons.inj hrest).1
      exact absurd (hsplit ▸ List.mem_append_right _ List.mem_cons_self) (not_mem_of_fired hl)

theorem exists_of_append_right (hl' : fired l' = [])
    (h : l ++ l' = h₁ ++ .fired callback :: h₂) : ∃ h', l = h₁ ++ .fired callback :: h' := by
  obtain ⟨h', rfl, hsplit⟩ | ⟨rest, hl, hrest⟩ := List.append_eq_append_iff.mp h
  · exact absurd (hsplit ▸ List.mem_append_right _ List.mem_cons_self) (not_mem_of_fired hl')
  · cases rest with
    | nil => exact absurd (hrest ▸ List.mem_cons_self) (not_mem_of_fired hl')
    | cons a rest =>
      obtain rfl : Happening.fired callback = a := (List.cons.inj hrest).1
      exact ⟨rest, hl⟩

theorem exists_of_onReturn {rest : World γ → History}
    (h : onReturn x w rest = h₁ ++ .fired callback :: h₂) :
    ∃ a w', x w = .ok a w' ∧ rest w' = h₁ ++ .fired callback :: h₂ := by
  cases hr : x w with
  | ok a w' => exact ⟨a, w', rfl, (onReturn_of_ok hr rest).symm.trans h⟩
  | error e w' =>
    rw [onReturn_of_error hr] at h
    exact absurd h (by simp)

/-- When a timer fires, everything that was queued up to then has been dispatched, if a timer has
fired before or nothing was queued at first.  By induction on the budget: between two timers the
queue has been found empty. -/
theorem fireHistory_caughtUp (hm : m.Asking) {instant budget : ℕ} {w : World γ}
    (h : fireHistory m instant budget w = h₁ ++ .fired callback :: h₂)
    (hbefore : fired h₁ ≠ [] ∨ w.queued = []) : dispatched h₁ = w.queued ++ queued h₁ := by
  induction budget generalizing w h₁ with
  | zero => exact absurd h (by simp [fireHistory])
  | succ budget ih =>
    by_cases hout : ∃ t, HandsOut instant w t
    · obtain ⟨t, out⟩ := hout
      rw [fireHistory_of_handsOut out] at h
      cases h₁ with
      | nil =>
        have hnone : w.queued = [] := hbefore.resolve_left fun hne => hne rfl
        rw [hnone]
        rfl
      | cons first h₁ =>
        -- the later timer fires in none of the stages of this round, so in the rounds after it
        obtain ⟨rfl, hrest⟩ := List.cons.inj h
        obtain ⟨h', rfl, hran⟩ := exists_of_append_left (fired_askHistory _) hrest
        obtain ⟨_, ran, hcallback, hran⟩ := exists_of_onReturn hran
        obtain ⟨h'', rfl, hdrained⟩ := exists_of_append_left (fired_drainHistory budget ran) hran
        obtain ⟨n, drained, hdrain, hlater⟩ := exists_of_onReturn hdrained
        -- those rounds come only if the microtasks of this one have all been run
        have hempty := (drained_of_ok hdrain).1
        have hlast := ih hlater (.inr hempty)
        have hqueued := (hm.runCallback t.callback).queued_of_ok hcallback
        have hdispatched := balanced_drain hm budget ran
        rw [final, hdrain, hempty, List.append_nil, hqueued, queued_afterTakingDue] at hdispatched
        rw [hempty, List.nil_append] at hlast
        show dispatched (askHistory _ _ ++ (drainHistory m budget ran ++ h''))
          = w.queued ++ queued (askHistory _ _ ++ (drainHistory m budget ran ++ h''))
        rw [dispatched_append, dispatched_append, hdispatched, hlast, queued_append, queued_append,
          askHistory, dispatched_asked, queued_asked]
        simp only [List.nil_append, List.append_assoc]
    · have hnothing : fireHistory m instant (budget + 1) w = [] := by
        refine fireHistory_of_ne fun callback taken htaken => ?_
        obtain ⟨-, hnone⟩ | out | ⟨-, hoverflow⟩ := takeDue_cases instant w
        · cases hnone.symm.trans htaken
        · exact hout out
        · cases hoverflow.symm.trans htaken
      exact absurd (hnothing.symm.trans h) (by simp)

/-- The same over a whole pump: no timer fires once it settles. -/
theorem pumpHistory_caughtUp (hm : m.Asking) {instant : ℕ}
    (h : pumpHistory m budget instant w = h₁ ++ .fired callback :: h₂) (hbefore : fired h₁ ≠ []) :
    dispatched h₁ = w.queued ++ queued h₁ := by
  obtain ⟨h', hfire⟩ := exists_of_append_right (fired_onReturn (fired_settleHistory budget)) h
  exact fireHistory_caughtUp hm hfire (.inl hbefore)

end Balance

/-! ### Runs -/

/-- Call the entry point with an array of values. -/
def enterMain (m : Machine γ) (args : List Value) : Act γ (List Val) := do
  let main ← requireExport mainExport
  let packed := Value.array (← onHeap (·.newArray args))
  holding [packed] (callAny m main [.ref (.ofValue packed)])

theorem runMain_eq (m : Machine γ) (budget : ℕ) (args : List Value) :
    runMain m budget args = enterMain m args >>= fun _ => settle m budget := by
  simp only [runMain, enterMain, bind_assoc]

theorem Machine.Asking.enterMain {m : Machine γ} (hm : m.Asking) (args : List Value) :
    Act.Asking (enterMain m args) :=
  ((Patient.requireExport _).bind fun main => (Patient.onHeap fun _ => .newArray args).bind
    fun _ => (Patient.callAny main _).holding _).asking hm

/-- A computation without its result. -/
def Act.silent (x : Act γ α) : Act γ PUnit := x >>= fun _ => pure ⟨⟩

theorem Act.Patient.balanced_silent {m : Machine γ} {x : Act γ α} (hx : Patient m x)
    (hm : m.Asking) : Balanced x.silent (askHistory x.silent) :=
  Asking.balanced (Asking.bind (hx.asking hm) fun _ => .pure _)

/-- What the embedder can drive a session with. -/
inductive Drive where
  | main (args : List Value)
  | microtasks
  | pump (instant : ℕ)
  | releases
  | cleanups
  | callExport (name : String) (args : List Val)
  | callValue (f : FunctionRef) (args : List Value)
  | link (d : Description) (supplied : List Supplied)

section Runs

variable (m : Machine γ) (budget : ℕ)

def Drive.act : Drive → Act γ PUnit
  | .main args => runMain m budget args
  | .microtasks => (drainMicrotasks m budget).silent
  | .pump instant => (ModuleHost.pump m budget instant).silent
  | .releases => (announceOrphans m).silent
  | .cleanups => (runCleanups m).silent
  | .callExport name args => (ModuleHost.callExport m name args).silent
  | .callValue f args => (ModuleHost.callValue m f args).silent
  | .link d supplied => linkPrimary m d supplied

def Drive.history : Drive → World γ → History
  | .main args => fun w => askHistory (enterMain m args) w
      ++ onReturn (enterMain m args) w (settleHistory m budget)
  | .microtasks => drainHistory m budget
  | .pump instant => pumpHistory m budget instant
  | d => askHistory (d.act m budget)

/-- The world after a run; a drive that fails leaves behind what it has changed. -/
def worldAfter (w : World γ) : List Drive → World γ
  | [] => w
  | d :: rest => worldAfter (final (d.act m budget) w) rest

def runHistory (w : World γ) : List Drive → History
  | [] => []
  | d :: rest => d.history m budget w ++ runHistory (final (d.act m budget) w) rest

end Runs

section Runs

variable {m : Machine γ} {budget : ℕ}

theorem Drive.balanced (hm : m.Asking) (d : Drive) :
    Balanced (d.act m budget) (d.history m budget) := by
  cases d with
  | main args =>
    rw [Drive.act, runMain_eq]
    exact (hm.enterMain args).balanced.bind fun _ => balanced_settle hm budget
  | microtasks => exact (balanced_drain hm budget).map _
  | pump instant => exact (balanced_pump hm budget instant).map _
  | releases => exact Patient.announceOrphans.balanced_silent hm
  | cleanups => exact Patient.runCleanups.balanced_silent hm
  | callExport name args => exact (Patient.callExport name args).balanced_silent hm
  | callValue f args => exact (Patient.callValue f args).balanced_silent hm
  | link d supplied => exact (hm.linkPrimary d supplied).balanced

/-- By induction on the drives of a run. -/
theorem balanced_run (hm : m.Asking) (w : World γ) (drives : List Drive) :
    dispatched (runHistory m budget w drives) ++ (worldAfter m budget w drives).queued
      = w.queued ++ queued (runHistory m budget w drives) := by
  induction drives generalizing w with
  | nil => exact (List.append_nil _).symm
  | cons d rest ih =>
    have hd := (Drive.balanced hm d : Balanced (d.act m budget) (d.history m budget)) w
    rw [runHistory, worldAfter, dispatched_append, queued_append, List.append_assoc, ih,
      ← List.append_assoc, hd, List.append_assoc]

end Runs

theorem queues_queueMicrotask (m : Machine γ) (callback : Int32) (w : World γ) :
    queues (HostCall.run m .queueMicrotask [.i32 callback]) w = [callback] :=
  List.drop_left

theorem releaseCode_asking {onRelease : Machine Unit → Int32 → Act Unit Unit}
    (h : ∀ m : Machine Unit, m.Asking → ∀ n, Asking (onRelease m n)) :
    (releaseCode onRelease).Asking where
  own m hm _ _ args := by
    simp only [releaseCode]
    split
    · exact .bind (h m hm _) fun _ => .pure _
    · exact .pure _
  supplied _ _ _ _ _ := .pure _
  note _ := .pure _

/-! ### The order of microtasks -/

/-- The order of microtasks with a machine. -/
structure InOrder (m : Machine γ) (budget : ℕ) : Prop where
  /-- After every run the microtasks that have been dispatched, followed by the queue, are those
  that were queued at first, followed by those that have been queued since. -/
  balanced : ∀ (w : World γ) (drives : List Drive),
    dispatched (runHistory m budget w drives) ++ (worldAfter m budget w drives).queued
      = w.queued ++ queued (runHistory m budget w drives)
  /-- When a timer fires after another one in a pump, every microtask that has been queued up to
  then has been dispatched. -/
  caughtUp : ∀ (w : World γ) (instant : ℕ) (h₁ : History) (callback : Int32) (h₂ : History),
    pumpHistory m budget instant w = h₁ ++ .fired callback :: h₂ → fired h₁ ≠ [] →
      dispatched h₁ = w.queued ++ queued h₁
  /-- Running microtasks returns the number of those it has dispatched. -/
  drained : ∀ (w w' : World γ) (n : ℕ), drainMicrotasks m budget w = .ok n w' →
    (dispatched (drainHistory m budget w)).length = n
  /-- A pump returns the number of timers that have fired. -/
  pumped : ∀ (w w' : World γ) (instant n : ℕ), pump m budget instant w = .ok n w' →
    (fired (pumpHistory m budget instant w)).length = n
  /-- What a call of the module queues are the requests it makes, in their order. -/
  requested : ∀ (w : World γ) (f : Func) (args : List Val),
    ∃ calls : List TimerCall, (∀ call ∈ calls, call.IsRequest) ∧
      (final (m.call f args) w).session.timers = w.session.timers.after calls ∧
      queues (m.call f args) w = TimerCall.microtasks calls
  /-- The function of the host table queues its callback. -/
  enqueues : ∀ (w : World γ) (callback : Int32),
    queues (HostCall.run m .queueMicrotask [.i32 callback]) w = [callback]
  /-- If the host records what it asks of the machine, each microtask that is dispatched is one call
  of the export for callbacks, in the order of the history. -/
  called : m.Evolving →
    Invoking (drainMicrotasks m.recorded budget) (drainMicrotasks m budget) (drainHistory m budget)
  /-- So is each timer that fires. -/
  fired : m.Evolving → ∀ instant : ℕ, Invoking (fireTimers m.recorded instant budget)
    (fireTimers m instant budget) (fireHistory m instant budget)

/-- Microtasks are dispatched in the order in which they are queued, whatever the module does and
whichever callbacks fail. -/
theorem microtasks_in_order {c : Code γ} (hc : c.Asking) (depth budget : ℕ) :
    InOrder (c.machine depth) budget where
  balanced := balanced_run (hc.machine depth)
  caughtUp _ _ _ _ _ := pumpHistory_caughtUp (hc.machine depth)
  drained _ _ _ hok := (drained_of_ok hok).2
  pumped _ _ _ _ := length_fired_of_pump_ok
  requested w f args := ((hc.machine depth).call f args).exists_calls w
  enqueues w callback := queues_queueMicrotask _ callback w
  called hm := hm.drainMicrotasks_invoking budget
  fired hm instant := hm.fireTimers_invoking instant budget

/-- A module whose callback 1 queues callback 6, and whose callback 2 fails. -/
def chaining : Code Unit := releaseCode fun m callback => do
  if callback = 1 then
    let _ ← m.call (.host .queueMicrotask) [.i32 6]
  else if callback = 2 then
    throw (.text "no")

theorem chaining_asking : chaining.Asking :=
  releaseCode_asking fun _ hm _ => Along.ite (Asking.bind (hm.call _ _) fun _ => .pure _)
    (Along.ite (Asking.throw _) (Asking.pure _))

/-- A session with two timers that are due and two microtasks, the first of which fails. -/
def twoTimers : World Unit :=
  ⟨{ Session.new (.standard .default ⟨[]⟩ true) .none none with
      primary := some
        ⟨[("$invokeCallback", .func (.own 1 (.named "$invokeCallback") ⟨[.i32], []⟩))]⟩
      timers := TimerQueue.empty.after
        [.timeout 0 0 1, .timeout 0 0 4, .addMicrotask 2, .addMicrotask 3] }, ()⟩

/-- The pump takes up the microtask that the failure has left in the queue, and the one that the
first timer queues, before the second timer fires. -/
theorem microtasks_in_order_chaining :
    chaining.Asking ∧
    runHistory (chaining.machine 2) 5 twoTimers [.microtasks, .pump 0]
      = [.dispatched 2, .fired 1, .queued 6, .dispatched 3, .dispatched 6, .fired 4] ∧
    dispatched (runHistory (chaining.machine 2) 5 twoTimers [.microtasks, .pump 0])
        ++ (worldAfter (chaining.machine 2) 5 twoTimers [.microtasks, .pump 0]).queued
      = twoTimers.queued
        ++ queued (runHistory (chaining.machine 2) 5 twoTimers [.microtasks, .pump 0]) :=
  ⟨chaining_asking, by decide +kernel, (microtasks_in_order chaining_asking 2 5).balanced _ _⟩

end ModuleHost
