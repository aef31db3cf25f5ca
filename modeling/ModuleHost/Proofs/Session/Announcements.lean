/-
Announcing closures whose wrappers are gone.

A pass takes all closures without wrappers first and then announces them one by one.  Each
announcement runs module code, which may wrap closures again or fail, and nothing is looked up
anew in between.

* `announced_hasWrapper_iff` — when a closure is announced it has a live wrapper exactly if an
  earlier call of the same pass has made one;
* `failed_pass_pending_iff` — a closure that a failing pass has not announced is pending
  again exactly once it has been wrapped anew;
* `announced_while_wrapped`, `failed_pass_loses_closure` — both things do happen.
-/
import Mathlib
import ModuleHost.Proofs.Closures.Evolution
import ModuleHost.Proofs.Session.Machine

namespace ModuleHost

open Act

/-! ### The wrappers of an evolving session -/

namespace Heap

variable {h h' : Heap}

@[simp] theorem closures_setWatchCells (registry : Nat) (cells : List WatchCell) :
    (h.setWatchCells registry cells).closures = h.closures := by
  unfold setWatchCells
  split <;> rfl

theorem Change.closures (hc : h.Change h') : h.closures.Evolves h'.closures := by
  cases hc with
  | retained t =>
    rcases t with _ | _ | _ | (_ | ⟨k, id⟩) | _ | _ | _
    case function.wrapper =>
      cases k with
      | session => exact (Closures.Change.retained id).evolves
      | embedder => exact .refl
    all_goals exact .refl
  | released t =>
    rcases t with _ | _ | _ | (_ | ⟨k, id⟩) | _ | _ | _
    case function.wrapper =>
      cases k with
      | session => exact (Closures.Change.released id).evolves
      | embedder => exact .refl
    all_goals exact .refl
  | wrapped k w =>
    cases k with
    | session => exact (Closures.Change.wrapped w).evolves
    | embedder => exact .refl
  | taken k =>
    cases k with
    | session => exact Closures.Change.taken.evolves
    | embedder => exact .refl
  | watched registry cell =>
    rw [closures_setWatchCells]
    exact .refl
  | unwatched registry token =>
    rw [closures_setWatchCells]
    exact .refl
  | collected registry =>
    rw [Heap.collect, closures_setWatchCells]
    exact .refl
  | _ => exact .refl

end Heap

namespace Session

variable {s s' : Session}

theorem Change.closures (hc : s.Change s') : s.heap.closures.Evolves s'.heap.closures := by
  cases hc with
  | heap hc => exact hc.closures
  | _ => exact .refl

theorem Evolves.closures (hev : s.Evolves s') : s.heap.closures.Evolves s'.heap.closures := by
  induction hev with
  | refl => exact .refl
  | tail _ hc ih => exact Relation.ReflTransGen.trans ih hc.closures

theorem Reachable.closures_sound (hs : s.Reachable) : s.heap.closures.Sound := by
  obtain ⟨e, c, loader, hev⟩ := hs
  exact hev.closures.sound Closures.sound_empty

end Session

/-! ### A pass -/

variable {γ : Type} {m : Machine γ} {w w' moment : World γ} {f : Func} {c : Int32}

/-- The closures that a pass beginning in a world takes. -/
def batch (w : World γ) : List Int32 := ((swept w).session.heap.takeOrphans .session).1

/-- The world after a pass has taken its batch. -/
def afterTaking (w : World γ) : World γ :=
  ⟨{ (swept w).session with heap := ((swept w).session.heap.takeOrphans .session).2 }, w.guest⟩

/-- The export that a module is told about closures through. -/
def releaseExport? (s : Session) : Option Func := s.primary.bind (·.func? "$releaseClosure")

/-- The pass that begins in `w` calls the release export for `c` in `moment`: the calls for
those before it in the batch have returned. -/
def Announces (m : Machine γ) (w : World γ) (c : Int32) (moment : World γ) : Prop :=
  ∃ f before after, releaseExport? w.session = some f ∧ batch w = before ++ c :: after ∧
    announceEach m f before (afterTaking w) = .ok ⟨⟩ moment

theorem lookupExport_releaseClosure (hf : releaseExport? w.session = some f) :
    lookupExport "$releaseClosure" w = .ok (some f) w := by
  obtain ⟨i, hi, hfunc⟩ := Option.bind_eq_some_iff.mp hf
  have hsession : (session : Act γ Session) w = .ok w.session w := rfl
  have hprimary : primary w = .ok i w := by
    refine (bind_of_ok hsession _).trans ?_
    rw [hi]
    rfl
  rw [lookupExport, bind_of_ok hprimary, hfunc]
  rfl

/-- With the release export, a pass is its batch announced one by one. -/
theorem announceOrphans_eq (hf : releaseExport? w.session = some f) :
    announceOrphans m w
      = (announceEach m f (batch w) >>= fun _ => pure (batch w).length) (afterTaking w) := by
  have hlookup : lookupExport "$releaseClosure" (afterTaking w) = .ok (some f) (afterTaking w) :=
    lookupExport_releaseClosure hf
  have hsweep : (sweep : Act γ Unit) w = .ok ⟨⟩ (swept w) := rfl
  have htake : (onHeap (·.takeOrphans .session) : Act γ (List Int32)) (swept w)
      = .ok (batch w) (afterTaking w) := rfl
  refine (bind_of_ok hsweep _).trans ((bind_of_ok htake _).trans ?_)
  cases batch w with
  | nil => rfl
  | cons c rest =>
    refine (bind_of_ok hlookup _).trans ?_
    rfl

/-- Announcing is a loop over the closures. -/
theorem announceEach_eq_forM (closures : List Int32) :
    announceEach m f closures = closures.forM fun c => callFunc m f [.i32 c] 0 >>= fun _ => pure ⟨⟩ := by
  induction closures with
  | nil => rfl
  | cons c rest ih =>
    rw [announceEach, ih]
    simp only [List.forM_eq_forM, List.forM_cons, bind_assoc, pure_bind]

/-- Once the first closures have been announced, the rest is announced from there. -/
theorem announceEach_append {before : List Int32} (after : List Int32)
    (hok : announceEach m f before w = .ok ⟨⟩ moment) :
    announceEach m f (before ++ after) w = announceEach m f after moment := by
  rw [announceEach_eq_forM] at hok ⊢
  rw [announceEach_eq_forM]
  exact forM_append_of_ok after hok

/-- A pass that announces a closure goes on by calling the export for it. -/
theorem Announces.announceOrphans_eq (h : Announces m w c moment) :
    ∃ f after, releaseExport? w.session = some f ∧
      announceOrphans m w = (do
        let _ ← callFunc m f [.i32 c] 0
        announceEach m f after
        return (batch w).length) moment := by
  obtain ⟨f, before, after, hf, hbatch, hok⟩ := h
  refine ⟨f, after, hf, ?_⟩
  rw [ModuleHost.announceOrphans_eq hf, hbatch]
  show EStateM.bind (announceEach m f (before ++ c :: after)) _ (afterTaking w) = _
  rw [EStateM.bind, announceEach_append (c :: after) hok]
  -- the call is made in `moment`, whichever way it ends
  cases hc : callFunc m f [.i32 c] 0 moment with
  | ok r w₁ => simp only [announceEach, bind, EStateM.bind, hc]
  | error e w₁ => simp only [announceEach, bind, EStateM.bind, hc]

/-- A batch fails at one of its closures, all before it having been announced. -/
theorem exists_of_announceEach_eq_error {closures : List Int32} {e : Fault}
    (h : announceEach m f closures w = .error e w') :
    ∃ before c after moment, closures = before ++ c :: after ∧
      announceEach m f before w = .ok ⟨⟩ moment ∧ callFunc m f [.i32 c] 0 moment = .error e w' := by
  rw [announceEach_eq_forM] at h
  obtain ⟨before, c, after, moment, hsplit, hok, herr⟩ := exists_of_forM_eq_error h
  rw [← announceEach_eq_forM] at hok
  refine ⟨before, c, after, moment, hsplit, hok, ?_⟩
  -- what follows the call cannot fail
  cases hc : callFunc m f [.i32 c] 0 moment with
  | ok r w₁ =>
    rw [bind_of_ok hc] at herr
    cases herr
  | error e₁ w₁ =>
    rw [bind_of_error hc] at herr
    cases herr
    rfl

/-! ### Two modules -/

/-- Code whose functions of one word run `onRelease`, and whose other functions do nothing. -/
def releaseCode (onRelease : Machine Unit → Int32 → Act Unit Unit) : Code Unit where
  own m _ _ args :=
    match args with
    | [.i32 closure] => do
      onRelease m closure
      return []
    | _ => return []
  supplied _ _ _ _ := return []
  native _ _ := return .undefined
  note _ := return ()

theorem releaseCode_sandboxed {onRelease : Machine Unit → Int32 → Act Unit Unit}
    (h : ∀ m : Machine Unit, m.Evolving → ∀ closure, Evolving (onRelease m closure)) :
    (releaseCode onRelease).Sandboxed where
  own m hm _ _ args := by
    simp only [releaseCode]
    split
    · exact (h m hm _).bind fun _ => .pure _
    · exact .pure _
  supplied _ _ _ _ _ := .pure _
  native _ _ := .pure _
  note _ := .pure _

/-- A module that wraps closure 2 when it hears of closure 1. -/
def rewrapping : Code Unit := releaseCode fun m closure => do
  if closure = 1 then
    let _ ← m.call (.host (.wrapFunction ⟨0, Nat.succ_pos _⟩)) [.i32 2]

/-- A module that fails whatever it hears. -/
def refusing : Code Unit := releaseCode fun _ _ => throw (.text "no")

theorem rewrapping_sandboxed : rewrapping.Sandboxed :=
  releaseCode_sandboxed fun _ hm _ => .ite ((hm.call _ _).bind fun _ => .pure _) (.pure _)

theorem refusing_sandboxed : refusing.Sandboxed := releaseCode_sandboxed fun _ _ _ => .throw _

/-- The release export of both modules. -/
def releaseFunc : Func := .own 1 (.named "$releaseClosure") ⟨[.i32], []⟩

/-- A session in which closures 1 and 2 have been wrapped and both wrappers dropped. -/
def twoOrphans : World Unit :=
  final (do
    modifySession fun s => { s with
      primary := some ⟨[("$releaseClosure", .func releaseFunc)]⟩
      memory := none
      deferred := { s.deferred with linker := some .empty } }
    let f ← onHeap (·.wrap .session ⟨1, 0⟩)
    let g ← onHeap (·.wrap .session ⟨2, 0⟩)
    modifyHeap (·.releaseAll [.function f, .function g]) : Act Unit Unit)
    ⟨.new (.standard .default ⟨[]⟩ true) .none none, ()⟩

theorem twoOrphans_reachable : twoOrphans.session.Reachable := by
  refine ⟨_, _, _, Evolving.bind (.modifySession fun _ => ?_) (fun _ => ?_) ⟨_, ()⟩⟩
  · exact (Session.Change.linked ⟨[("$releaseClosure", .func releaseFunc)]⟩ .empty).evolves
  · exact (Evolving.onHeap fun _ => (Heap.Change.wrapped .session _).evolves).bind fun _ =>
      (Evolving.onHeap fun _ => (Heap.Change.wrapped .session _).evolves).bind fun _ =>
        .modifyHeap fun _ => .releaseAll _

theorem batch_twoOrphans : batch twoOrphans = [1, 2] := by decide +kernel

/-- The moment at which the first module hears of closure 2. -/
def rewrapped : World Unit :=
  final (announceEach (rewrapping.machine 2) releaseFunc [1]) (afterTaking twoOrphans)

theorem announces_rewrapped : Announces (rewrapping.machine 2) twoOrphans 2 rewrapped :=
  ⟨releaseFunc, [1], [], rfl, batch_twoOrphans, rfl⟩

/-- The world in which the second module has failed to hear of closure 1. -/
def refused : World Unit := final (announceOrphans (refusing.machine 1)) twoOrphans

theorem announceOrphans_refusing :
    announceOrphans (refusing.machine 1) twoOrphans = .error (.text "no") refused := rfl

/-! ### What a pass knows when it announces -/

/-- Number of wrappers that had been made when a pass took its batch: wrappers made later have
this number or a greater one. -/
def wrappersMade (w : World γ) : ℕ := (swept w).session.heap.closures.wrappers.next

theorem forgottenBelow_afterTaking (hc : c ∈ batch w) :
    (afterTaking w).session.heap.closures.ForgottenBelow (wrappersMade w) c :=
  Closures.forgottenBelow_takeOrphans hc

theorem evolves_afterTaking (w : World γ) : w.session.Evolves (afterTaking w).session :=
  (evolves_swept w).trans (.ofHeap (Heap.Change.taken .session).evolves)

/-- A closure has a live wrapper when it is announced exactly if one of the calls made for the
closures before it in its batch has wrapped it anew and the new wrapper is still alive; the
first closure of a batch never has one. -/
theorem announced_hasWrapper_iff {code : Code γ} (hcode : code.Sandboxed) {depth : ℕ}
    (hw : w.session.Reachable) (h : Announces (code.machine depth) w c moment) :
    (moment.session.heap.closures.HasWrapper c
      ↔ moment.session.heap.closures.HasWrapperFrom (wrappersMade w) c) ∧
    (moment = afterTaking w → ¬ moment.session.heap.closures.HasWrapper c) := by
  obtain ⟨f, before, after, -, hbatch, hok⟩ := h
  have hmem : c ∈ batch w := by
    rw [hbatch]
    exact List.mem_append_right _ List.mem_cons_self
  have hev : (afterTaking w).session.Evolves moment.session :=
    ((Orderly.announceEach f before).evolving (hcode.machine depth)).of_ok hok
  have htaken : (afterTaking w).session.Reachable := hw.evolves (evolves_afterTaking w)
  have hsound : moment.session.heap.closures.Sound := (htaken.evolves hev).closures_sound
  have hforgotten := hev.closures.forgottenBelow (forgottenBelow_afterTaking hmem)
  have hiff := hforgotten.hasWrapper_iff hsound
  refine ⟨hiff, fun hfirst => ?_⟩
  rw [hiff, hfirst]
  have hnext : (afterTaking w).session.heap.closures.wrappers.next = wrappersMade w :=
    congrArg Pool.next Closures.wrappers_takeOrphans
  rw [← hnext]
  exact htaken.closures_sound.not_hasWrapperFrom_next

/-- The module that wraps closure 2 when it hears of closure 1 hears of closure 2 next. -/
theorem announced_hasWrapper_iff_rewrapped :
    (rewrapping.Sandboxed ∧ twoOrphans.session.Reachable ∧
      Announces (rewrapping.machine 2) twoOrphans 2 rewrapped) ∧
    (rewrapped.session.heap.closures.HasWrapper 2
      ↔ rewrapped.session.heap.closures.HasWrapperFrom (wrappersMade twoOrphans) 2) ∧
    (rewrapped = afterTaking twoOrphans → ¬ rewrapped.session.heap.closures.HasWrapper 2) :=
  ⟨⟨rewrapping_sandboxed, twoOrphans_reachable, announces_rewrapped⟩,
    announced_hasWrapper_iff rewrapping_sandboxed twoOrphans_reachable announces_rewrapped⟩

/-- A live closure is announced. -/
theorem announced_while_wrapped :
    ¬ ∀ (code : Code Unit) (depth : ℕ) (w moment : World Unit) (c : Int32), code.Sandboxed →
      w.session.Reachable → Announces (code.machine depth) w c moment →
      ¬ moment.session.heap.closures.HasWrapper c := by
  intro h
  refine h rewrapping 2 twoOrphans rewrapped 2 rewrapping_sandboxed twoOrphans_reachable
    announces_rewrapped ⟨2, ⟨2, 0⟩, ?_, rfl⟩
  decide +kernel

/-- A pass that fails has announced the closures before some closure of its batch, and fails at
that one.  Those after it are pending from then on only if they are wrapped anew: whatever
happens later, a pass takes one of them exactly if a wrapper of it has been made since the
failing pass took its batch and no wrapper of it is alive.  Settling ends with the failure. -/
theorem failed_pass_pending_iff {code : Code γ} (hcode : code.Sandboxed) {depth : ℕ}
    (hw : w.session.Reachable) (hf : releaseExport? w.session = some f) {e : Fault}
    (herr : announceOrphans (code.machine depth) w = .error e w') :
    (∃ before c after moment, batch w = before ++ c :: after ∧
      announceEach (code.machine depth) f before (afterTaking w) = .ok ⟨⟩ moment ∧
      callFunc (code.machine depth) f [.i32 c] 0 moment = .error e w' ∧
      ∀ s, w'.session.Evolves s → ∀ d ∈ after, (d ∈ (s.heap.takeOrphans .session).1
        ↔ s.heap.closures.ListsFrom (wrappersMade w) d ∧ ¬ s.heap.closures.HasWrapper d)) ∧
    ∀ {budget n : ℕ} {w₀ : World γ},
      drainMicrotasks (code.machine depth) budget w₀ = .ok n w →
      settle (code.machine depth) budget w₀ = .error e w' := by
  constructor
  · have hm := hcode.machine depth
    have hbatch : announceEach (code.machine depth) f (batch w) (afterTaking w) = .error e w' := by
      rw [announceOrphans_eq hf] at herr
      cases hb : announceEach (code.machine depth) f (batch w) (afterTaking w) with
      | ok a w₁ =>
        rw [bind_of_ok hb] at herr
        exact absurd herr (by simp [pure, EStateM.pure])
      | error e₁ w₁ =>
        rw [bind_of_error hb] at herr
        cases herr
        rfl
    obtain ⟨before, c, after, moment, hsplit, hok, hcall⟩ := exists_of_announceEach_eq_error hbatch
    refine ⟨before, c, after, moment, hsplit, hok, hcall, fun s hs d hd => ?_⟩
    have hmem : d ∈ batch w := by
      rw [hsplit]
      exact List.mem_append_right _ (List.mem_cons_of_mem _ hd)
    have hev : (afterTaking w).session.Evolves s :=
      (((Orderly.announceEach f before).evolving hm).of_ok hok).trans
        ((((Orderly.callFunc f _ 0).evolving hm).of_error hcall).trans hs)
    have hsound : s.heap.closures.Sound :=
      ((hw.evolves (evolves_afterTaking w)).evolves hev).closures_sound
    have hforgotten := hev.closures.forgottenBelow (forgottenBelow_afterTaking hmem)
    rw [← hforgotten.lists_iff]
    exact hsound.mem_takeOrphans
  · intro budget n w₀ hdrain
    exact (bind_of_ok hdrain _).trans (bind_of_error herr _)

/-- A module that fails at closure 1 never hears of closure 2, in no later pass. -/
theorem failed_pass_pending_iff_refusing :
    (refusing.Sandboxed ∧ twoOrphans.session.Reachable ∧
      releaseExport? twoOrphans.session = some releaseFunc ∧
      announceOrphans (refusing.machine 1) twoOrphans = .error (.text "no") refused) ∧
    ∃ before c after moment, batch twoOrphans = before ++ c :: after ∧
      announceEach (refusing.machine 1) releaseFunc before (afterTaking twoOrphans)
        = .ok ⟨⟩ moment ∧
      callFunc (refusing.machine 1) releaseFunc [.i32 c] 0 moment = .error (.text "no") refused ∧
      ∀ s, refused.session.Evolves s → ∀ d ∈ after, (d ∈ (s.heap.takeOrphans .session).1
        ↔ s.heap.closures.ListsFrom (wrappersMade twoOrphans) d ∧
          ¬ s.heap.closures.HasWrapper d) :=
  ⟨⟨refusing_sandboxed, twoOrphans_reachable, rfl, announceOrphans_refusing⟩,
    (failed_pass_pending_iff refusing_sandboxed twoOrphans_reachable rfl
      announceOrphans_refusing).1⟩

/-- A closure that was not announced because the call for another one failed is not pending
any more, although nothing has wrapped it again. -/
theorem failed_pass_loses_closure :
    ¬ ∀ (code : Code Unit) (depth : ℕ) (w w' : World Unit) (f : Func) (e : Fault)
      (before after : List Int32) (c : Int32) (moment : World Unit), code.Sandboxed →
      w.session.Reachable → releaseExport? w.session = some f →
      announceOrphans (code.machine depth) w = .error e w' →
      batch w = before ++ c :: after →
      announceEach (code.machine depth) f before (afterTaking w) = .ok ⟨⟩ moment →
      callFunc (code.machine depth) f [.i32 c] 0 moment = .error e w' →
      ∀ d ∈ after, ¬ w'.session.heap.closures.HasWrapper d → d ∈ batch w' := by
  intro h
  have hlost := h refusing 1 twoOrphans refused releaseFunc (.text "no") [] [2] 1
    (afterTaking twoOrphans) refusing_sandboxed twoOrphans_reachable rfl announceOrphans_refusing
    batch_twoOrphans rfl rfl 2 (List.mem_singleton_self 2)
  have hsound : refused.session.heap.closures.Sound :=
    (twoOrphans_reachable.evolves
      ((Orderly.announceOrphans.evolving (refusing_sandboxed.machine 1)).of_error
        announceOrphans_refusing)).closures_sound
  have hbatch : batch refused = [] := by decide +kernel
  rw [hbatch, ← hsound.isWrapped_iff] at hlost
  exact absurd (hlost (by decide +kernel)) (List.not_mem_nil)

end ModuleHost
