/-
Two ways of calling a function value.

The embedder calls a function value directly, a module through the host with the arguments in an
array.  Both ways make the same call of the same target and come to the same value.  A fault of
the target reaches the embedder as it is, except that a native function called directly has just
failed, also when a conversion was the cause.

* `Session.requested` — what is to be asked of the machine for a call;
* `callWrapper_eq` — the call that a wrapper makes, or why it makes none;
* `two_ways_of_calling` — the main theorem.

Design notes: both ways are one `applyFunction` of the same world, and this is all that is needed
of them; that the target is called exactly once is said of a machine that records what it is asked.
-/
import Mathlib
import ModuleHost.Proofs.Heap.Handles
import ModuleHost.Proofs.Session.Recording

namespace ModuleHost

open Act

variable {γ α β : Type}

/-! ### The call of a wrapper -/

/-- What a wrapper passes on: its closure, how many of its parameters are given, and those, cut
off or filled up with undefined. -/
def Wrapper.passing (wr : Wrapper) (args : List Value) : List Val :=
  .i32 wr.closure :: .i32 (Int32.ofNat (min args.length wr.arity)) ::
    ((args ++ List.replicate wr.arity Value.undefined).take wr.arity).map fun v => .ref (.ofValue v)

/-- The function that a wrapper calls, if it can: the export for its arity, of the right type. -/
def Session.callee? (s : Session) (wr : Wrapper) : Option Func :=
  if highestArity < wr.arity then none
  else (s.primary.bind (·.func? wr.trampoline)).filter fun g =>
    g.type.params = .i32 :: .i32 :: List.replicate wr.arity .externref && g.type.results.length = 1

/-- What is asked of a machine for a call of a function value. -/
def Session.requested (s : Session) (f : FunctionRef) (args : List Value) : List Asked :=
  match f with
  | .native id => [.native id args]
  | .wrapper k id =>
    let wr := (s.heap.wrapper? k id).getD ⟨0, 0⟩
    (s.callee? wr).toList.map (.call · (wr.passing args))

section Wrappers

variable {m : Machine γ} {wr : Wrapper} {args : List Value}

theorem passing_eq : wr.passing args = .i32 wr.closure ::
    .i32 (Int32.ofNat (min args.length wr.arity)) ::
      (List.range wr.arity).map fun i => Val.ref (.ofValue (args.getD i .undefined)) := by
  have hpassed : (args ++ List.replicate wr.arity Value.undefined).take wr.arity
      = (List.range wr.arity).map fun i => args.getD i .undefined := by
    refine List.ext_getElem (by simp) fun i hi _ => ?_
    simp at hi
    by_cases hgiven : i < args.length
    · simp [List.getElem_append_left hgiven, hgiven]
    · simp [List.getElem_append_right (Nat.le_of_not_lt hgiven), hgiven]
  rw [Wrapper.passing, hpassed, List.map_map]
  rfl

theorem map_type_passing :
    (wr.passing args).map Val.type = .i32 :: .i32 :: List.replicate wr.arity .externref := by
  have hrefs : (((args ++ List.replicate wr.arity Value.undefined).take wr.arity).map
      fun v => (Val.ref (.ofValue v)).type) = List.replicate wr.arity .externref := by
    refine List.eq_replicate_iff.mpr ⟨by simp, fun t ht => ?_⟩
    obtain ⟨v, -, rfl⟩ := List.mem_map.mp ht
    rfl
  rw [Wrapper.passing, List.map_cons, List.map_cons, List.map_map]
  exact congrArg (fun types => ValType.i32 :: .i32 :: types) hrefs

/-- The value of what the function for a wrapper has returned. -/
def Wrapper.returned (wr : Wrapper) : List Val → Act γ Value
  | [.ref r] => arg r
  | _ => throw (.marshal (.unexpectedResult wr.trampoline))

/-- A wrapper calls the export for its arity with what it passes on, and nothing else. -/
theorem callWrapper_eq (m : Machine γ) (wr : Wrapper) (args : List Value) :
    callWrapper m wr args = if highestArity < wr.arity
      then throw (.marshal (.unsupportedArity wr.arity))
      else requireExport wr.trampoline >>= fun g =>
        callFunc m g (wr.passing args) 1 >>= wr.returned := by
  rw [passing_eq]
  unfold callWrapper
  split
  · rfl
  · rfl

theorem quiet_returned (vals : List Val) : (wr.returned vals : Act γ Value).Quiet := by
  unfold Wrapper.returned
  split
  · exact quiet_orFail _
  · exact fun _ => rfl

theorem fits_passing_iff {g : Func} : g.type.Fits (wr.passing args) 1 ↔
    g.type.params = .i32 :: .i32 :: List.replicate wr.arity .externref ∧
      g.type.results.length = 1 := by
  rw [FuncType.Fits, map_type_passing]
  exact and_congr_left' eq_comm

/-- A wrapper makes one call, or none if it cannot. -/
theorem recordAfter_callWrapper (m : Machine γ) (wr : Wrapper) (args : List Value)
    (w : World (γ × List Asked)) :
    recordAfter (callWrapper m.recorded wr args) w
      = w.guest.2 ++ (w.session.callee? wr).toList.map (.call · (wr.passing args)) := by
  rw [callWrapper_eq, Session.callee?]
  by_cases harity : highestArity < wr.arity
  · rw [if_pos harity, if_pos harity]
    exact (List.append_nil _).symm
  · rw [if_neg harity, if_neg harity]
    obtain ⟨g, hg, hrequire⟩ | ⟨hg, e, hrequire⟩ := requireExport_cases wr.trampoline w
    · rw [hg, recordAfter_congr (bind_of_ok hrequire _), recordAfter_bind_quiet quiet_returned]
      by_cases hfits : g.type.Fits (wr.passing args) 1
      · obtain ⟨w', hcall, hguest⟩ := exists_callFunc_of_fits (m := m.recorded) hfits w
        rw [Option.filter_some_pos (by simpa using fits_passing_iff.mp hfits),
          recordAfter_congr hcall, recordAfter_call, hguest]
        rfl
      · obtain ⟨e, hcall⟩ := exists_callFunc_of_not_fits (m := m.recorded) hfits w
        rw [Option.filter_some_neg (by simpa using mt fits_passing_iff.mpr hfits),
          recordAfter_of_error hcall]
        exact (List.append_nil _).symm
    · rw [hg, recordAfter_of_error (bind_of_error hrequire _)]
      exact (List.append_nil _).symm

end Wrappers

/-! ### The call of a function value -/

theorem wrapper?_retainAll (h : Heap) (vs : List Value) (k : Keeper) (id : ℕ) :
    (h.retainAll vs).wrapper? k id = h.wrapper? k id :=
  Heap.retainAll_keeps (P := fun h' => h'.wrapper? k id = h.wrapper? k id)
    (fun {a} t ha => by
      rcases t with i | i | i | (i | ⟨k', i⟩) | i | i | i
      case function.wrapper =>
        rw [← ha, Heap.wrapper?, Heap.wrapper?]
        show ((a.setClosures k' _).closuresOf k).wrappers.get? id = _
        rw [Heap.closuresOf_setClosures]
        split
        · rename_i hk
          rw [← hk]
          exact Pool.get?_retain
        · rfl
      all_goals exact ha) vs rfl

/-- The world in which a function value runs: it and its arguments are kept alive. -/
def World.kept (w : World γ) (vs : List Value) : World γ :=
  ⟨{ w.session with heap := w.session.heap.retainAll vs }, w.guest⟩

/-- What is asked for a call of a function value. -/
theorem recordAfter_applyFunction (m : Machine γ) (f : FunctionRef) (args : List Value)
    (w : World (γ × List Asked)) :
    recordAfter (applyFunction m.recorded f args) w
      = w.guest.2 ++ w.session.requested f args := by
  have hkept : recordAfter (applyFunction m.recorded f args) w
      = recordAfter (holding (.function f :: args) _) (w.kept (.function f :: args)) := rfl
  rw [hkept, recordAfter_holding]
  cases f with
  | native id => exact recordAfter_native m id args _
  | wrapper k id =>
    have hwrapper : (w.kept (.function (.wrapper k id) :: args)).session.heap.wrapper? k id
        = w.session.heap.wrapper? k id := wrapper?_retainAll _ _ k id
    have hcall := recordAfter_bind_quiet (x := callWrapper m.recorded
      (((w.kept (.function (.wrapper k id) :: args)).session.heap.wrapper? k id).getD ⟨0, 0⟩) args)
      (f := fun result => do modifyHeap (·.retain result); return result) (fun _ _ => rfl)
      (w.kept (.function (.wrapper k id) :: args))
    refine hcall.trans ?_
    rw [recordAfter_callWrapper, hwrapper]
    rfl

/-! ### The two ways -/

/-- The world once a value has been handed to the module. -/
def World.crossing (w : World γ) (v : Value) : World γ :=
  ⟨{ w.session with crossed := withHandle w.session.crossed v }, w.guest⟩

/-- A module calls a function value with the arguments in an array. -/
def callThroughHost (m : Machine γ) (f : FunctionRef) (array : ℕ) : Act γ (List Val) :=
  HostCall.run m .callFunction
    [.ref (.ofValue (.function f)), .ref (.ofValue (.array array))]

theorem callThroughHost_eq (m : Machine γ) (f : FunctionRef) (array : ℕ) (w : World γ) :
    callThroughHost m f array w
      = (applyFunction m f (w.session.heap.elements array) >>= fun v => do
          let r ← give v
          return [.ref r]) w := by
  have hcall : HostCall.callFunction m (.ofValue (.function f)) (.ofValue (.array array)) w
      = (applyFunction m f (w.session.heap.elements array) >>= give) w := rfl
  refine (bind_of_eq hcall _).trans ?_
  rw [bind_assoc]

theorem root_nativeFailure (f : FunctionRef) (e : Fault) : (nativeFailure f e).root = e.root := by
  cases f with
  | native id => cases e <;> rfl
  | wrapper k id => rfl

theorem ofFault_nativeFailure_iff {f : FunctionRef} {e : Fault} :
    EmbedderError.ofFault (nativeFailure f e) = EmbedderError.ofFault e ↔
      ∀ id c, f = .native id → e ≠ .marshal c := by
  cases f with
  | wrapper k id => exact iff_of_true rfl fun _ _ h => nomatch h
  | native id =>
    cases e with
    | marshal c => exact iff_of_false (fun h => nomatch h) fun h => h id c rfl rfl
    | trap t | failed r | panic | exhausted => exact iff_of_true rfl fun _ _ _ => nofun

theorem callValue_of_ok {m : Machine γ} {f : FunctionRef} {args : List Value} {v : Value}
    {w w' : World γ} (h : applyFunction m f args w = .ok v w') :
    callValue m f args w = .ok v w' := by
  show EStateM.tryCatch _ _ w = _
  unfold EStateM.tryCatch
  rw [h]

theorem callValue_of_error {m : Machine γ} {f : FunctionRef} {args : List Value} {e : Fault}
    {w w' : World γ} (h : applyFunction m f args w = .error e w') :
    callValue m f args w = .error (nativeFailure f e) w' := by
  show EStateM.tryCatch _ _ w = _
  unfold EStateM.tryCatch
  rw [h]
  rfl

theorem recordAfter_callValue (m : Machine γ) (f : FunctionRef) (args : List Value)
    (w : World (γ × List Asked)) :
    recordAfter (callValue m.recorded f args) w
      = recordAfter (applyFunction m.recorded f args) w := by
  unfold recordAfter final
  cases happlied : applyFunction m.recorded f args w with
  | ok v w' => rw [callValue_of_ok happlied]
  | error e w' => rw [callValue_of_error happlied]

/-- Calling a function value directly and calling it from a module through the host come to the
same, whatever the machine, its module code and its native functions, the session, the function and
the arguments.  Both ask the machine for the same: a native function is called once, with the
arguments, and for a wrapper that can be called the export for its arity is.  Both return the same
value or fail with the same root.  The embedder sees the same failure, except for a conversion that
fails in a native function: directly called, such a function has failed as a whole, and through the
host the conversion is still known to be the cause. -/
theorem two_ways_of_calling (m : Machine γ) (f : FunctionRef) (array : ℕ) :
    (∀ w : World γ, let args := w.session.heap.elements array
      (∃ v w', callValue m f args w = .ok v w' ∧
        callThroughHost m f array w = .ok [.ref (.ofValue v)] (w'.crossing v) ∧
        (Reference.ofValue v).value = .ok v) ∨
      ∃ e w', callValue m f args w = .error (nativeFailure f e) w' ∧
        callThroughHost m f array w = .error e w' ∧ (nativeFailure f e).root = e.root ∧
        (EmbedderError.ofFault (nativeFailure f e) = EmbedderError.ofFault e ↔
          ∀ id c, f = .native id → e ≠ .marshal c)) ∧
    ∀ w : World (γ × List Asked), let args := w.session.heap.elements array
      recordAfter (callValue m.recorded f args) w = w.guest.2 ++ w.session.requested f args ∧
      recordAfter (callThroughHost m.recorded f array) w
        = w.guest.2 ++ w.session.requested f args := by
  constructor
  · intro w args
    have hhost := callThroughHost_eq m f array w
    cases happlied : applyFunction m f args w with
    | ok v w' =>
      exact .inl ⟨v, w', callValue_of_ok happlied, hhost.trans (bind_of_ok happlied _),
        Reference.value_ofValue v⟩
    | error e w' =>
      exact .inr ⟨e, w', callValue_of_error happlied, hhost.trans (bind_of_error happlied _),
        root_nativeFailure f e, ofFault_nativeFailure_iff⟩
  · intro w args
    constructor
    · rw [recordAfter_callValue, recordAfter_applyFunction]
    · rw [recordAfter_congr (callThroughHost_eq m.recorded f array w),
        recordAfter_bind_quiet fun _ _ => rfl, recordAfter_applyFunction]

/-- A module that answers with its last argument, and native functions that are not linked. -/
def lastArgument : Machine Unit where
  call _ args := return args.getLast?.toList
  native _ _ := throw (.marshal .notLinked)
  note _ := return ()

/-- The export for two parameters. -/
def trampolineOfTwo : Func :=
  .own 1 (.named "$closureCall2") ⟨[.i32, .i32, .externref, .externref], [.externref]⟩

/-- A session with the closure 7 of two parameters, a native function and an array of three
values. -/
def callable : World Unit :=
  final (do
    modifySession fun s => { s with primary := some ⟨[("$closureCall2", .func trampolineOfTwo)]⟩ }
    let _ ← onHeap (·.wrap .session ⟨7, 2⟩)
    let _ ← onHeap (·.newNative ⟨"unlinked", []⟩)
    let _ ← onHeap (·.newArray [.bool true, .null, .bool false]) : Act Unit Unit)
    ⟨.new (.standard .default ⟨[]⟩ true) .none none, ()⟩

/-- Called with three arguments, in either way, the closure is called once with the first two and
the native function once with all of them. -/
theorem two_ways_of_calling_threeArguments :
    let args : List Value := [.bool true, .null, .bool false]
    let asked := [Asked.call trampolineOfTwo
      [.i32 7, .i32 2, .ref (.ofValue (.bool true)), .ref (.ofValue .null)]]
    let w : World (Unit × List Asked) := ⟨callable.session, ((), [])⟩
    recordAfter (callValue lastArgument.recorded (.wrapper .session 0) args) w = asked ∧
    recordAfter (callThroughHost lastArgument.recorded (.wrapper .session 0) 0) w = asked ∧
    recordAfter (callValue lastArgument.recorded (.native 0) args) w = [.native 0 args] ∧
    recordAfter (callThroughHost lastArgument.recorded (.native 0) 0) w = [.native 0 args] := by
  intro args asked w
  obtain ⟨hdirect, hhost⟩ := (two_ways_of_calling lastArgument (.wrapper .session 0) 0).2 w
  have hwrapper : w.session.heap.wrapper? .session 0 = some ⟨7, 2⟩ := by decide +kernel
  have hcallee : w.session.callee? ⟨7, 2⟩ = some trampolineOfTwo := by decide +kernel
  have hasked : w.session.requested (.wrapper .session 0) args = asked := by
    rw [Session.requested, hwrapper, Option.getD_some, hcallee]
    rfl
  exact ⟨hdirect.trans hasked, hhost.trans hasked,
    (two_ways_of_calling lastArgument (.native 0) 0).2 w⟩

/-- A native function that fails with a conversion has just failed if it is called directly, and
through the host it is the conversion. -/
theorem unlinked_called_directly :
    ∃ w', callValue lastArgument (.native 0) [.bool true, .null, .bool false] callable
        = .error (.failed (.of "primary instance is not linked")) w' ∧
      callThroughHost lastArgument (.native 0) 0 callable
        = .error (.marshal .notLinked) w' ∧
      EmbedderError.ofFault (.failed (.of "primary instance is not linked"))
        ≠ EmbedderError.ofFault (.marshal .notLinked) :=
  ⟨_, rfl, rfl, nofun⟩

end ModuleHost
