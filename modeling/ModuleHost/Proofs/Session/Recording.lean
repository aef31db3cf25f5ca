/-
What a computation asks of its machine.

A machine can be made to record what it is asked.  Only the requests that a computation makes itself
are on record, not those that are made while one of them is served.  Whatever the machine, the host
calls a function only if it fits; then this is one request, with the arguments it was given.

* `Machine.recorded`, `recordAfter` — the recording machine, and its record;
* `Act.Forgets` — a computation that keeps a record comes to the same as one that keeps none;
* `exists_callFunc_of_fits`, `requireExport_cases` — calls of exports;
* `recordAfter_runCallback` — a callback that runs is one call of the export for callbacks.
-/
import Mathlib
import ModuleHost.Proofs.Session.Evolving
import ModuleHost.Session.Run

namespace ModuleHost

open Act

variable {γ α β : Type}

/-! ### Requests -/

/-- Something that a computation asks of its machine. -/
inductive Asked where
  | call (f : Func) (args : List Val)
  | native (id : ℕ) (args : List Value)
  | note (e : Event)

/-- A computation in a world that also has a record of requests. -/
def Act.aside (x : Act γ α) : Act (γ × List Asked) α := fun w =>
  match x ⟨w.session, w.guest.1⟩ with
  | .ok a w' => .ok a ⟨w'.session, (w'.guest, w.guest.2)⟩
  | .error e w' => .error e ⟨w'.session, (w'.guest, w.guest.2)⟩

/-- Add a request to the record. -/
def Act.record (r : Asked) : Act (γ × List Asked) Unit :=
  modify fun w => ⟨w.session, (w.guest.1, w.guest.2 ++ [r])⟩

/-- The same machine, recording what it is asked. -/
def Machine.recorded (m : Machine γ) : Machine (γ × List Asked) where
  call f args := do
    record (.call f args)
    (m.call f args).aside
  native id args := do
    record (.native id args)
    (m.native id args).aside
  note e := do
    record (.note e)
    (m.note e).aside

/-- What is on record after a computation. -/
def recordAfter (x : Act (γ × List Asked) α) (w : World (γ × List Asked)) : List Asked :=
  (final x w).guest.2

theorem recordAfter_congr {x y : Act (γ × List Asked) α} {w w' : World (γ × List Asked)}
    (h : x w = y w') : recordAfter x w = recordAfter y w' := by
  unfold recordAfter final
  rw [h]

theorem recordAfter_of_ok {x : Act (γ × List Asked) α} {w w' : World (γ × List Asked)} {a : α}
    (h : x w = .ok a w') : recordAfter x w = w'.guest.2 := by
  unfold recordAfter final
  rw [h]

theorem recordAfter_of_error {x : Act (γ × List Asked) α} {w w' : World (γ × List Asked)}
    {e : Fault} (h : x w = .error e w') : recordAfter x w = w'.guest.2 := by
  unfold recordAfter final
  rw [h]

theorem final_aside (x : Act γ α) (w : World (γ × List Asked)) :
    (final x.aside w).guest.2 = w.guest.2 := by
  unfold final Act.aside
  cases x ⟨w.session, w.guest.1⟩ <;> rfl

theorem recordAfter_call (m : Machine γ) (f : Func) (args : List Val)
    (w : World (γ × List Asked)) :
    recordAfter (m.recorded.call f args) w = w.guest.2 ++ [.call f args] :=
  final_aside (m.call f args) ⟨w.session, (w.guest.1, w.guest.2 ++ [Asked.call f args])⟩

theorem recordAfter_native (m : Machine γ) (id : ℕ) (args : List Value)
    (w : World (γ × List Asked)) :
    recordAfter (m.recorded.native id args) w = w.guest.2 ++ [.native id args] :=
  final_aside (m.native id args) ⟨w.session, (w.guest.1, w.guest.2 ++ [Asked.native id args])⟩

/-- A computation that leaves the module alone. -/
def Act.Quiet (x : Act γ α) : Prop := ∀ w, (final x w).guest = w.guest

/-- A quiet computation adds nothing to the record. -/
theorem recordAfter_bind_quiet {x : Act (γ × List Asked) α}
    {f : α → Act (γ × List Asked) β} (hf : ∀ a, (f a).Quiet) (w : World (γ × List Asked)) :
    recordAfter (x >>= f) w = recordAfter x w :=
  final_bind_keeps (Q := fun w' => w'.guest.2 = recordAfter x w) rfl
    fun {a w'} _ h => (congrArg Prod.snd (hf a w')).trans h

theorem quiet_orFail (x : Except ConversionError α) : (orFail x : Act γ α).Quiet := fun w => by
  cases x <;> rfl

theorem recordAfter_holding (vs : List Value) (x : Act (γ × List Asked) α)
    (w : World (γ × List Asked)) : recordAfter (holding vs x) w = recordAfter x w := by
  unfold recordAfter final holding after
  cases x w <;> rfl

/-! ### What recording leaves alone -/

/-- A world without its record. -/
def World.forget (w : World (γ × List Asked)) : World γ := ⟨w.session, w.guest.1⟩

/-- How a computation ends, without the record. -/
def forgetEnd : EStateM.Result Fault (World (γ × List Asked)) α → EStateM.Result Fault (World γ) α
  | .ok a w => .ok a w.forget
  | .error e w => .error e w.forget

/-- A computation that keeps a record comes to the same as one that keeps none. -/
def Act.Forgets (x : Act (γ × List Asked) α) (y : Act γ α) : Prop :=
  ∀ w, y w.forget = forgetEnd (x w)

namespace Act.Forgets

variable {x : Act (γ × List Asked) α} {y : Act γ α} {w w' : World (γ × List Asked)}

theorem of_ok {a : α} (h : Forgets x y) (hr : x w = .ok a w') : y w.forget = .ok a w'.forget := by
  rw [h, hr]
  rfl

theorem of_error {e : Fault} (h : Forgets x y) (hr : x w = .error e w') :
    y w.forget = .error e w'.forget := by
  rw [h, hr]
  rfl

theorem pure (a : α) : Forgets (Pure.pure a) (Pure.pure a : Act γ α) := fun _ => rfl

theorem throw (e : Fault) : Forgets (MonadExcept.throw e) (MonadExcept.throw e : Act γ α) :=
  fun _ => rfl

theorem session : Forgets session (Act.session : Act γ Session) := fun _ => rfl

theorem bind {f : α → Act (γ × List Asked) β} {g : α → Act γ β} (hx : Forgets x y)
    (hf : ∀ a, Forgets (f a) (g a)) : Forgets (x >>= f) (y >>= g) := by
  intro w
  cases hr : x w with
  | ok a w' =>
    rw [bind_of_ok hr, bind_of_ok (hx.of_ok hr)]
    exact hf a w'
  | error e w' =>
    rw [bind_of_error hr, bind_of_error (hx.of_error hr)]
    rfl

theorem aside (y : Act γ α) : Forgets y.aside y := by
  intro w
  unfold Act.aside
  show y ⟨w.session, w.guest.1⟩ = _
  cases y ⟨w.session, w.guest.1⟩ <;> rfl

/-- A call that is recorded comes to the same. -/
theorem call (m : Machine γ) (f : Func) (args : List Val) :
    Forgets (m.recorded.call f args) (m.call f args) :=
  fun w => aside (m.call f args) ⟨w.session, (w.guest.1, w.guest.2 ++ [Asked.call f args])⟩

theorem requireExport (name : String) :
    Forgets (requireExport name) (ModuleHost.requireExport name : Act γ Func) := by
  have hprimary : Forgets primary (ModuleHost.primary : Act γ Instance) :=
    session.bind fun s => by cases s.primary <;> exact fun _ => rfl
  have hlookup : Forgets (lookupExport name) (ModuleHost.lookupExport name : Act γ _) :=
    hprimary.bind fun _ => .pure _
  exact hlookup.bind fun f => by cases f <;> exact fun _ => rfl

theorem callFunc (m : Machine γ) (f : Func) (args : List Val) (results : ℕ) :
    Forgets (callFunc m.recorded f args results) (ModuleHost.callFunc m f args results) := by
  have hcheck : Forgets (checkCall f.type args results)
      (ModuleHost.checkCall f.type args results : Act γ Unit) := by
    intro w
    unfold ModuleHost.checkCall
    by_cases hl : args.length ≠ f.type.params.length
    · simp only [if_pos hl]
      rfl
    · by_cases hr : f.type.results.length ≠ results
      · simp only [if_neg hl, if_pos hr]
        rfl
      · simp only [if_neg hl, if_neg hr]
        cases firstMismatch? args f.type.params <;> rfl
  have hcross : ∀ v : Val, Forgets (crossArg v) (ModuleHost.crossArg v : Act γ Unit) := fun v => by
    rcases v with n | n | x | x | (_ | _ | v)
    all_goals exact fun _ => rfl
  have hcrossed : ∀ vs : List Val,
      Forgets (vs.forM crossArg) (vs.forM ModuleHost.crossArg : Act γ PUnit) := fun vs => by
    induction vs with
    | nil => exact .pure _
    | cons v rest ih => exact (hcross v).bind fun _ => ih
  exact hcheck.bind fun _ => (hcrossed args).bind fun _ => call m f args

theorem runCallback (m : Machine γ) (callback : Int32) :
    Forgets (runCallback m.recorded callback) (ModuleHost.runCallback m callback) :=
  (requireExport _).bind fun f => (callFunc m f _ 0).bind fun _ => .pure _

theorem takeMicrotask :
    Forgets takeMicrotask (ModuleHost.takeMicrotask : Act γ (Option Int32)) := fun _ => rfl

end Act.Forgets

/-! ### Calls of exports -/

section Exports

variable {m : Machine γ} {w : World γ}

/-- Arguments fit a function that is to have so many results. -/
def FuncType.Fits (t : FuncType) (args : List Val) (results : ℕ) : Prop :=
  args.map Val.type = t.params ∧ t.results.length = results

instance (t : FuncType) (args : List Val) (results : ℕ) : Decidable (t.Fits args results) :=
  inferInstanceAs (Decidable (_ ∧ _))

theorem firstMismatch?_eq_none_iff {args : List Val} {params : List ValType}
    (hl : args.length = params.length) :
    firstMismatch? args params = none ↔ args.map Val.type = params := by
  rw [firstMismatch?, List.find?_eq_none]
  induction args generalizing params with
  | nil =>
    obtain rfl := List.eq_nil_of_length_eq_zero hl.symm
    exact ⟨fun _ => rfl, fun _ => nofun⟩
  | cons v rest ih =>
    cases params with
    | nil => cases hl
    | cons t types =>
      rw [List.map_cons, List.zip_cons_cons, List.forall_mem_cons, ih (Nat.succ.inj hl),
        List.cons.injEq]
      simp

theorem checkCall_of_fits {t : FuncType} {args : List Val} {results : ℕ}
    (hf : t.Fits args results) : checkCall t args results w = .ok ⟨⟩ w := by
  have hl : args.length = t.params.length := by rw [← hf.1, List.length_map]
  unfold checkCall
  rw [(firstMismatch?_eq_none_iff hl).mpr hf.1]
  simp [hl, hf.2]
  rfl

theorem checkCall_of_not_fits {t : FuncType} {args : List Val} {results : ℕ}
    (hf : ¬ t.Fits args results) : ∃ e, checkCall t args results w = .error e w := by
  unfold checkCall
  by_cases hl : args.length = t.params.length
  · by_cases hr : t.results.length = results
    · have hm : firstMismatch? args t.params ≠ none := fun hn =>
        hf ⟨(firstMismatch?_eq_none_iff hl).mp hn, hr⟩
      obtain ⟨⟨found, expected⟩, hm⟩ := Option.ne_none_iff_exists'.mp hm
      simp only [hl, hr, hm, ne_eq, not_true_eq_false, if_false]
      exact ⟨_, rfl⟩
    · simp only [hl, hr, ne_eq, not_true_eq_false, not_false_eq_true, if_true, if_false]
      exact ⟨_, rfl⟩
  · simp only [hl, ne_eq, not_false_eq_true, if_true]
    exact ⟨_, rfl⟩

theorem exists_forM_crossArg (args : List Val) (w : World γ) :
    ∃ w', args.forM crossArg w = .ok ⟨⟩ w' ∧ w'.guest = w.guest := by
  induction args generalizing w with
  | nil => exact ⟨w, rfl, rfl⟩
  | cons v rest ih =>
    have hv : ∃ w₁, crossArg v w = .ok ⟨⟩ w₁ ∧ w₁.guest = w.guest := by
      rcases v with n | n | x | x | (_ | _ | v)
      all_goals exact ⟨_, rfl, rfl⟩
    obtain ⟨w₁, hv, hg⟩ := hv
    obtain ⟨w', hrest, hg'⟩ := ih w₁
    exact ⟨w', (bind_of_ok hv _).trans hrest, hg'.trans hg⟩

/-- A function that fits is called, once the arguments have crossed. -/
theorem exists_callFunc_of_fits {f : Func} {args : List Val} {results : ℕ}
    (hf : f.type.Fits args results) (w : World γ) :
    ∃ w', callFunc m f args results w = m.call f args w' ∧ w'.guest = w.guest := by
  obtain ⟨w', hcrossed, hguest⟩ := exists_forM_crossArg args w
  exact ⟨w', (bind_of_ok (checkCall_of_fits hf) _).trans (bind_of_ok hcrossed _), hguest⟩

theorem exists_callFunc_of_not_fits {f : Func} {args : List Val} {results : ℕ}
    (hf : ¬ f.type.Fits args results) (w : World γ) :
    ∃ e, callFunc m f args results w = .error e w := by
  obtain ⟨e, hcheck⟩ := checkCall_of_not_fits (w := w) hf
  exact ⟨e, bind_of_error hcheck _⟩

theorem requireExport_cases (name : String) (w : World γ) :
    (∃ f, w.session.primary.bind (·.func? name) = some f ∧ requireExport name w = .ok f w) ∨
      (w.session.primary.bind (·.func? name) = none ∧ ∃ e, requireExport name w = .error e w) := by
  cases hp : w.session.primary with
  | none =>
    have hnone : (primary : Act γ Instance) w = .error (.marshal .notLinked) w := by
      refine (bind_session _ w).trans ?_
      rw [hp]
      rfl
    exact .inr ⟨rfl, _, bind_of_error (bind_of_error hnone _) _⟩
  | some i =>
    have hsome : (primary : Act γ Instance) w = .ok i w := by
      refine (bind_session _ w).trans ?_
      rw [hp]
      rfl
    have hlookup : lookupExport name w = .ok (i.func? name) w := bind_of_ok hsome _
    cases hf : i.func? name with
    | some f =>
      rw [hf] at hlookup
      exact .inl ⟨f, hf, bind_of_ok hlookup _⟩
    | none =>
      rw [hf] at hlookup
      exact .inr ⟨hf, _, bind_of_ok hlookup _⟩

end Exports

/-! ### Callbacks -/

/-- The function that runs a callback, if the module has one: the export for callbacks, of the right
type. -/
def Session.invoker? (s : Session) : Option Func :=
  (s.primary.bind (·.func? "$invokeCallback")).filter fun g =>
    g.type.params = [.i32] && g.type.results.length = 0

/-- What is asked of a machine for running a callback. -/
def Session.invoking (s : Session) (callback : Int32) : List Asked :=
  s.invoker?.toList.map (.call · [.i32 callback])

/-- A callback that runs is one call of the export for callbacks, if the module has it. -/
theorem recordAfter_runCallback (m : Machine γ) (callback : Int32) (w : World (γ × List Asked)) :
    recordAfter (runCallback m.recorded callback) w = w.guest.2 ++ w.session.invoking callback := by
  have hfits : ∀ g : Func, g.type.Fits [.i32 callback] 0 ↔
      g.type.params = [.i32] ∧ g.type.results.length = 0 := fun g => and_congr_left' eq_comm
  rw [Session.invoking, Session.invoker?]
  obtain ⟨g, hg, hrequire⟩ | ⟨hg, e, hrequire⟩ := requireExport_cases "$invokeCallback" w
  · rw [hg, runCallback, recordAfter_congr (bind_of_ok hrequire _),
      recordAfter_bind_quiet fun _ _ => rfl]
    by_cases hf : g.type.Fits [.i32 callback] 0
    · obtain ⟨w', hcall, hguest⟩ := exists_callFunc_of_fits (m := m.recorded) hf w
      rw [Option.filter_some_pos (by simpa using (hfits g).mp hf), recordAfter_congr hcall,
        recordAfter_call, hguest]
      rfl
    · obtain ⟨e, hcall⟩ := exists_callFunc_of_not_fits (m := m.recorded) hf w
      rw [Option.filter_some_neg (by simpa using mt (hfits g).mpr hf), recordAfter_of_error hcall]
      exact (List.append_nil _).symm
  · rw [hg, runCallback, recordAfter_of_error (bind_of_error hrequire _)]
    exact (List.append_nil _).symm

end ModuleHost
