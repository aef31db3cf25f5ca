/-
Arguments of a wrong kind.

Some parameters of the functions that a module imports are for values of one kind.  A call in which
one argument is not, and all others are acceptable, changes nothing and says what is wrong with that
argument: that its reference carries no host value, that it is null, or of which kind it is.  Two
calls with a null say its kind instead: one asks for its message, the other compares it with what is
no string and passes over the kind of that.

* `Demand`, `Func.demands` — what values a parameter is for;
* `Demand.refusal` — what is wrong with a reference that is not acceptable;
* `Func.blamesNull` — the two calls that say the kind of a null;
* `wrong_arguments_refused` — the main theorem.

Design notes: the demands are said by values alone, and `Demand.Checks` compares each conversion
with them once.  `Act.Vets` lists the parameters that a computation still has to check; the order in
which functions check them is in the proofs only, since all but one are acceptable.
-/
import Mathlib
import ModuleHost.Proofs.Session.Evolving
import ModuleHost.Session.Machine

namespace ModuleHost

open Act HostCall

variable {γ α β : Type}

/-! ### Demands -/

/-- What values a parameter is for, and how this is called when another value is passed. -/
structure Demand where
  expected : Expected
  accepts : Value → Bool

namespace Demand

def boolean : Demand := ⟨.boolean, fun v => v matches .bool _⟩

def number : Demand := ⟨.number, fun v => v matches .number _⟩

def string : Demand := ⟨.string, fun v => v matches .string _⟩

def stringOrNull : Demand := ⟨.string, fun v => v matches .string _ | .null⟩

def array : Demand := ⟨.array, fun v => v matches .array _⟩

def arguments : Demand := ⟨.array, fun v => v matches .array _ | .null | .undefined⟩

def typedArray : Demand := ⟨.typedArray, fun v => v matches .typedArray _⟩

def dataView : Demand := ⟨.dataView, fun v => v matches .dataView _⟩

def arrayBuffer : Demand := ⟨.arrayBuffer, fun v => v matches .buffer _⟩

def bufferOrView : Demand :=
  ⟨.bufferOrView, fun v => v matches .buffer _ | .typedArray _ | .dataView _⟩

def function : Demand := ⟨.function, fun v => v matches .function _⟩

def object : Demand := ⟨.object, fun v => v matches .object _⟩

def error : Demand := ⟨.error, fun v => v matches .error _⟩

def registry : Demand := ⟨.registry, fun v => v matches .registry _⟩

/-- Values that can be watched. -/
def watchable : Demand :=
  ⟨.object, fun v => v matches .array _ | .object _ | .buffer _ | .typedArray _ | .dataView _
    | .function _ | .error _⟩

def watchableOrNull : Demand := ⟨.object, fun v => v matches .null || watchable.accepts v⟩

/-- A reference to a value that the parameter is for. -/
def admits (d : Demand) (r : Reference) : Bool :=
  match r.value with
  | .ok v => d.accepts v
  | .error _ => false

/-- What is wrong with a reference that is not admitted. -/
def refusal (d : Demand) : Reference → ConversionError
  | .foreign => .foreignReference
  | .null | .host .null => .nullReference
  | .host v => .typeMismatch d.expected v.kind

end Demand

/-- The demands on the parameters, in their order; the other parameters are for any value. -/
def HostFunc.demands : HostFunc → List (Option Demand)
  | unboxBool => [some .boolean]
  | unboxNumber => [some .number]
  | errorMessage => [some .error]
  | stringToModule => [some .string]
  | arrayLength | arrayGet | arraySet | arrayPush => [some .array]
  | objectGet | objectSet | objectHas | objectDelete => [some .object, some .string]
  | objectKeys => [some .object]
  | callFunction => [some .function, some .arguments]
  | finalizationRegistryNew => [some .function]
  | finalizationRegister => [some .registry, some .watchable, none, some .watchableOrNull]
  | finalizationUnregister => [some .registry, some .watchable]
  | arrayBufferByteLength => [some .arrayBuffer]
  | typedArrayLength | typedArrayGet | typedArraySet | typedArrayCopyFromModule
  | typedArrayCopyToModule => [some .typedArray]
  | dataViewOf => [some .bufferOrView]
  | dataViewByteLength | dataViewCopy | dataViewGet _ | dataViewSet _ => [some .dataView]
  | _ => []

@[inherit_doc HostFunc.demands]
def TextBuiltin.demands : TextBuiltin → List (Option Demand)
  | cast | charCodeAt | codePointAt | length | substring => [some .string]
  | concat | compare => [some .string, some .string]
  | equals => [some .stringOrNull, some .stringOrNull]
  | test | fromCharCode | fromCodePoint => []

namespace Func

@[inherit_doc HostFunc.demands]
def demands : Func → List (Option Demand)
  | host f => f.demands
  | builtin b => b.demands
  | loadModule => [some .string]
  | supplied _ _ | own _ _ _ | const _ | relay _ => []

/-- The demand on a parameter. -/
def demand? (f : Func) (p : ℕ) : Option Demand := f.demands[p]?.join

/-- Whether a reference can be passed for a parameter. -/
def accepts (f : Func) (p : ℕ) (r : Reference) : Bool :=
  match f.demand? p with
  | some d => d.admits r
  | none => r != .foreign

/-- The value that is passed for a parameter. -/
def passed (args : List Val) (p : ℕ) : Option Value :=
  match args[p]? with
  | some (.ref r) => r.value.toOption
  | _ => none

/-- Calls that say the kind of a null where they should not. -/
def blamesNull : Func → List Val → Bool
  | host .errorMessage, args => passed args 0 = some .null
  | builtin .equals, args =>
    passed args 0 = some .null &&
      (passed args 1).any fun v => !Demand.stringOrNull.accepts v && v.kind != .other
  | _, _ => false

/-- The parameters with a demand. -/
def demanded (f : Func) : List ℕ :=
  (List.range f.demands.length).filter fun p => (f.demand? p).isSome

theorem mem_demanded {f : Func} {p : ℕ} {d : Demand} (h : f.demand? p = some d) :
    p ∈ f.demanded := by
  rw [demanded, List.mem_filter, List.mem_range, h]
  refine ⟨?_, rfl⟩
  by_contra hp
  rw [demand?, List.getElem?_eq_none (Nat.le_of_not_lt hp)] at h
  cases h

end Func

/-! ### Conversions -/

namespace Demand

variable {d : Demand} {r : Reference} {v : Value}

theorem admits_of_value (h : r.value = .ok v) : d.admits r = d.accepts v := by
  rw [admits, h]

theorem refusal_of_value (h : r.value = .ok v) : d.refusal r = v.mismatch d.expected := by
  cases r with
  | null => cases h; rfl
  | foreign => cases h
  | host v' => cases h; cases v <;> rfl

/-- A conversion that serves a demand: it succeeds for the values that the demand accepts and
says what is wrong with the others. -/
structure Checks (d : Demand) (check : Value → Except ConversionError α) : Prop where
  ok : ∀ v, d.accepts v = true → ∃ a, check v = .ok a
  error : ∀ v, d.accepts v = false → check v = .error (v.mismatch d.expected)

theorem checks_expectBool : boolean.Checks Value.expectBool where
  ok v h := by cases v <;> cases h; exact ⟨_, rfl⟩
  error v h := by cases v <;> cases h <;> rfl

theorem checks_expectNumber : number.Checks Value.expectNumber where
  ok v h := by cases v <;> cases h; exact ⟨_, rfl⟩
  error v h := by cases v <;> cases h <;> rfl

theorem checks_expectString : string.Checks Value.expectString where
  ok v h := by cases v <;> cases h; exact ⟨_, rfl⟩
  error v h := by cases v <;> cases h <;> rfl

theorem checks_expectArray : array.Checks Value.expectArray where
  ok v h := by cases v <;> cases h; exact ⟨_, rfl⟩
  error v h := by cases v <;> cases h <;> rfl

theorem checks_expectTypedArray : typedArray.Checks Value.expectTypedArray where
  ok v h := by cases v <;> cases h; exact ⟨_, rfl⟩
  error v h := by cases v <;> cases h <;> rfl

theorem checks_expectDataView : dataView.Checks Value.expectDataView where
  ok v h := by cases v <;> cases h; exact ⟨_, rfl⟩
  error v h := by cases v <;> cases h <;> rfl

theorem checks_expectBuffer : arrayBuffer.Checks Value.expectBuffer where
  ok v h := by cases v <;> cases h; exact ⟨_, rfl⟩
  error v h := by cases v <;> cases h <;> rfl

theorem checks_expectBufferOrView : bufferOrView.Checks Value.expectBufferOrView where
  ok v h := by cases v <;> cases h <;> exact ⟨_, rfl⟩
  error v h := by cases v <;> cases h <;> rfl

theorem checks_expectFunction : function.Checks Value.expectFunction where
  ok v h := by cases v <;> cases h; exact ⟨_, rfl⟩
  error v h := by cases v <;> cases h <;> rfl

theorem checks_expectObject : object.Checks Value.expectObject where
  ok v h := by cases v <;> cases h; exact ⟨_, rfl⟩
  error v h := by cases v <;> cases h <;> rfl

theorem checks_expectRegistry : registry.Checks Value.expectRegistry where
  ok v h := by cases v <;> cases h; exact ⟨_, rfl⟩
  error v h := by cases v <;> cases h <;> rfl

theorem checks_watchable : watchable.Checks Value.watchable where
  ok v h := by cases v <;> cases h <;> exact ⟨_, rfl⟩
  error v h := by cases v <;> cases h <;> rfl

end Demand

/-! ### The one wrong argument -/

/-- The argument at `p` is the only one that is not acceptable, and `e` is what is wrong with it. -/
structure OnlyWrong (f : Func) (args : List Val) (p : ℕ) (e : ConversionError) : Prop where
  wrong : ∃ d r, f.demand? p = some d ∧ args[p]? = some (.ref r) ∧ d.admits r = false ∧
    e = d.refusal r
  others : ∀ q r, q ≠ p → args[q]? = some (.ref r) → f.accepts q r = true

/-- Whatever the world, it fails with this error and changes nothing. -/
def Act.Refuses (e : ConversionError) (x : Act γ α) : Prop := ∀ w, x w = .error (.marshal e) w

/-- If the wrong argument is among those that are still to be checked, it is refused. -/
def Act.Vets (p : ℕ) (e : ConversionError) (todo : List ℕ) (x : Act γ α) : Prop :=
  p ∈ todo → x.Refuses e

namespace Act

variable {x : Act γ α} {k : α → Act γ β} {e : ConversionError} {p : ℕ} {todo : List ℕ}

theorem Refuses.bind (h : x.Refuses e) (k : α → Act γ β) : (x >>= k).Refuses e :=
  fun w => bind_of_error (h w) k

theorem refuses_orFail {x : Except ConversionError α} (h : x = .error e) :
    (orFail x : Act γ α).Refuses e := fun _ => by
  rw [h]
  rfl

theorem arg_eq_pure {r : Reference} {v : Value} (h : r.value = .ok v) :
    (arg r : Act γ Value) = pure v := by
  rw [arg, h]
  rfl

theorem Vets.nil : Vets p e [] x := fun hp => absurd hp List.not_mem_nil

theorem Vets.bind (h : Vets p e todo x) : Vets p e todo (x >>= k) := fun hp => (h hp).bind k

theorem orFail_bind (x : Except ConversionError α) (f : α → Except ConversionError β) :
    (orFail (x >>= f) : Act γ β) = orFail x >>= fun a => orFail (f a) := by
  cases x <;> rfl

/-- Whether it goes on with a value as a demand says; if so, it leaves the world alone. -/
structure Settles (d : Demand) (v : Value) (x : Act γ α) : Prop where
  ok : d.accepts v = true → ∀ w, ∃ a, x w = .ok a w
  error : d.accepts v = false → x.Refuses (v.mismatch d.expected)

end Act

theorem Demand.Checks.settles {d : Demand} {check : Value → Except ConversionError α}
    (hc : d.Checks check) (v : Value) : Settles d v (orFail (check v) : Act γ α) where
  ok h w := by
    obtain ⟨a, ha⟩ := hc.ok v h
    rw [ha]
    exact ⟨a, rfl⟩
  error h := refuses_orFail (hc.error v h)

namespace OnlyWrong

variable {f : Func} {args : List Val} {p q : ℕ} {e : ConversionError} {r : Reference}
variable {d : Demand} {v : Value} {todo : List ℕ}

/-- A reference without a host value is refused as soon as it is read. -/
theorem vets_arg (h : OnlyWrong f args p e) (hr : args[q]? = some (.ref r)) {k : Value → Act γ β}
    (hk : ∀ v, r.value = .ok v → Vets p e todo (k v)) : Vets p e todo (arg r >>= k) := by
  intro hp
  cases hv : r.value with
  | ok v =>
    rw [arg_eq_pure hv, pure_bind]
    exact hk v hv hp
  | error e' =>
    obtain rfl : r = .foreign := by
      cases r with
      | foreign => rfl
      | null | host _ => cases hv
    have hforeign : e = .foreignReference := by
      by_cases hq : q = p
      · obtain ⟨d, r, -, hr', -, rfl⟩ := h.wrong
        obtain rfl : r = .foreign := by
          rw [← hq, hr] at hr'
          cases hr'
          rfl
        rfl
      · have haccepts := h.others q _ hq hr
        rw [Func.accepts] at haccepts
        cases hd : f.demand? q <;> rw [hd] at haccepts <;> cases haccepts
    rw [hforeign]
    exact Refuses.bind (fun _ => rfl) k

theorem refused (h : OnlyWrong f args p e) (hr : args[p]? = some (.ref r))
    (hd : f.demand? p = some d) (hv : r.value = .ok v) :
    d.accepts v = false ∧ e = v.mismatch d.expected := by
  obtain ⟨d', r', hd', hr', hadmits, rfl⟩ := h.wrong
  obtain rfl : d = d' := Option.some.inj (hd.symm.trans hd')
  obtain rfl : r = r' := Val.ref.inj (Option.some.inj (hr.symm.trans hr'))
  exact ⟨(Demand.admits_of_value hv).symm.trans hadmits, Demand.refusal_of_value hv⟩

theorem accepted (h : OnlyWrong f args p e) (hq : q ≠ p) (hr : args[q]? = some (.ref r))
    (hd : f.demand? q = some d) (hv : r.value = .ok v) : d.accepts v = true := by
  have haccepts := h.others q r hq hr
  rw [Func.accepts, hd] at haccepts
  exact (Demand.admits_of_value hv).symm.trans haccepts

/-- A value is checked, and if it is not the wrong one there is one less to check. -/
theorem vets_check (h : OnlyWrong f args p e) (hr : args[q]? = some (.ref r))
    (hd : f.demand? q = some d) (hv : r.value = .ok v) {x : Act γ α} (hx : Settles d v x)
    {k : α → Act γ β} (hk : ∀ a, Vets p e (todo.erase q) (k a)) : Vets p e todo (x >>= k) := by
  intro hp
  by_cases hq : q = p
  · subst hq
    obtain ⟨hrefused, rfl⟩ := h.refused hr hd hv
    exact (hx.error hrefused).bind k
  · intro w
    obtain ⟨a, ha⟩ := hx.ok (h.accepted hq hr hd hv) w
    exact (bind_of_ok ha k).trans (hk a ((List.mem_erase_of_ne (Ne.symm hq)).mpr hp) w)

/-- The last value is checked. -/
theorem vets_last (h : OnlyWrong f args p e) (hr : args[q]? = some (.ref r))
    (hd : f.demand? q = some d) (hv : r.value = .ok v) {x : Act γ α}
    (hx : d.accepts v = false → x.Refuses (v.mismatch d.expected)) : Vets p e [q] x := by
  intro hp
  obtain rfl := List.mem_singleton.mp hp
  obtain ⟨hrefused, rfl⟩ := h.refused hr hd hv
  exact hx hrefused

/-- A reference is read and its value is checked. -/
theorem vets_demand (h : OnlyWrong f args p e) (hr : args[q]? = some (.ref r))
    (hd : f.demand? q = some d) {check : Value → Except ConversionError α} (hc : d.Checks check)
    {k : α → Act γ β} (hk : ∀ a, Vets p e (todo.erase q) (k a)) :
    Vets p e todo (arg r >>= fun v => orFail (check v) >>= k) :=
  h.vets_arg hr fun v hv => h.vets_check hr hd hv (hc.settles v) hk

theorem orFail_text (r : Reference) :
    (orFail (TextBuiltin.text r) : Act γ Text) = arg r >>= fun v => orFail v.expectString :=
  orFail_bind r.value Value.expectString

theorem vets_text (h : OnlyWrong f args p e) (hr : args[q]? = some (.ref r))
    (hd : f.demand? q = some .string) {k : Text → Act γ β}
    (hk : ∀ s, Vets p e (todo.erase q) (k s)) :
    Vets p e todo (orFail (TextBuiltin.text r) >>= k) := by
  rw [orFail_text, bind_assoc]
  exact h.vets_demand hr hd Demand.checks_expectString hk

end OnlyWrong

/-! ### The functions -/

section Functions

variable {args : List Val} {p q : ℕ} {e : ConversionError} {a b c t : Reference} {v : Value}

theorem vets_unboxNumber (h : OnlyWrong (.host .unboxNumber) args p e)
    (ha : args[0]? = some (.ref a)) : Vets p e [0] (unboxNumber a : Act γ Double) :=
  h.vets_arg ha fun v hv => h.vets_last ha rfl hv fun hrefused =>
    refuses_orFail (Demand.checks_expectNumber.error v hrefused)

theorem passed_eq_some_iff (ha : args[q]? = some (.ref a)) :
    Func.passed args q = some v ↔ a.value = .ok v := by
  rw [Func.passed, ha]
  show a.value.toOption = some v ↔ a.value = .ok v
  cases a.value <;> simp [Except.toOption]

theorem vets_errorMessage (h : OnlyWrong (.host .errorMessage) args p e)
    (hnull : Func.blamesNull (.host .errorMessage) args = false)
    (ha : args[0]? = some (.ref a)) : Vets p e [0] (errorMessage a : Act γ Reference) :=
  h.vets_arg ha fun v hv => h.vets_last ha rfl hv fun hrefused => by
    have hne : v ≠ .null := fun h => of_decide_eq_false hnull ((passed_eq_some_iff ha).mpr (h ▸ hv))
    cases v <;> cases hrefused
    case null.refl => exact absurd rfl hne
    all_goals exact fun _ => rfl

theorem vets_objectGet (h : OnlyWrong (.host .objectGet) args p e)
    (ha : args[0]? = some (.ref a)) (hb : args[1]? = some (.ref b)) :
    Vets p e [0, 1] (objectGet a b : Act γ Reference) :=
  h.vets_arg ha fun _ hv => h.vets_arg hb fun _ hw =>
    h.vets_check ha rfl hv (Demand.checks_expectObject.settles _) fun _ =>
      h.vets_check hb rfl hw (Demand.checks_expectString.settles _) fun _ => .nil

theorem vets_objectSet (h : OnlyWrong (.host .objectSet) args p e)
    (ha : args[0]? = some (.ref a)) (hb : args[1]? = some (.ref b)) :
    Vets p e [0, 1] (objectSet a b c : Act γ Unit) :=
  h.vets_demand hb rfl Demand.checks_expectString fun _ =>
    h.vets_demand ha rfl Demand.checks_expectObject fun _ => .nil

theorem vets_objectHas (h : OnlyWrong (.host .objectHas) args p e)
    (ha : args[0]? = some (.ref a)) (hb : args[1]? = some (.ref b)) :
    Vets p e [0, 1] (objectHas a b : Act γ Int32) :=
  h.vets_arg hb fun _ hw => h.vets_demand ha rfl Demand.checks_expectObject fun _ =>
    h.vets_check hb rfl hw (Demand.checks_expectString.settles _) fun _ => .nil

theorem vets_objectDelete (h : OnlyWrong (.host .objectDelete) args p e)
    (ha : args[0]? = some (.ref a)) (hb : args[1]? = some (.ref b)) :
    Vets p e [0, 1] (objectDelete a b : Act γ Int32) :=
  h.vets_arg hb fun _ hw => h.vets_demand ha rfl Demand.checks_expectObject fun _ =>
    h.vets_check hb rfl hw (Demand.checks_expectString.settles _) fun _ => .nil

theorem settles_argumentList (v : Value) :
    Settles Demand.arguments v (argumentList v : Act γ (List Value)) where
  ok h w := by cases v <;> cases h <;> exact ⟨_, rfl⟩
  error h w := by cases v <;> cases h <;> rfl

theorem vets_callFunction (m : Machine γ) (h : OnlyWrong (.host .callFunction) args p e)
    (ha : args[0]? = some (.ref a)) (hb : args[1]? = some (.ref b)) :
    Vets p e [0, 1] (callFunction m a b) :=
  h.vets_arg ha fun _ hv => h.vets_arg hb fun w hw =>
    h.vets_check hb rfl hw (settles_argumentList w) fun _ =>
      h.vets_check ha rfl hv (Demand.checks_expectFunction.settles _) fun _ => .nil

/-- The token that a value stands for, if it is not null. -/
def tokenOf : Value → Option Value
  | .null => none
  | v => some v

/-- What a registration keeps of its token. -/
def tokenTarget (v : Value) : Except ConversionError (Option Target) :=
  match tokenOf v with
  | some v => some <$> v.watchable
  | none => pure none

theorem checks_tokenTarget : Demand.watchableOrNull.Checks tokenTarget where
  ok v h := by cases v <;> cases h <;> exact ⟨_, rfl⟩
  error v h := by cases v <;> cases h <;> rfl

theorem register_eq (heap : Heap) (id : ℕ) (target held token : Value) :
    heap.register id target held (tokenOf token) = do
      let target ← target.watchable
      let token ← tokenTarget token
      let heap := heap.retain held
      return heap.setWatchCells id (heap.watchCells id ++ [⟨target, held, token⟩]) := by
  cases token <;> rfl

theorem vets_finalizationRegister (h : OnlyWrong (.host .finalizationRegister) args p e)
    (ha : args[0]? = some (.ref a)) (hb : args[1]? = some (.ref b)) (hc : args[2]? = some (.ref c))
    (ht : args[3]? = some (.ref t)) :
    Vets p e [0, 1, 3] (finalizationRegister a b c t : Act γ Unit) := by
  refine h.vets_arg ha fun v hv => h.vets_arg ht fun token htoken => ?_
  -- what follows is the same with and without a token
  have hrest : Vets p e [0, 1, 3] (do
      let id ← orFail v.expectRegistry
      let target ← arg b
      let held ← arg c
      tryChange fun h => h.register id target held (tokenOf token) : Act γ Unit) := by
    refine h.vets_check ha rfl hv (Demand.checks_expectRegistry.settles _) fun id =>
      h.vets_arg hb fun target htarget => h.vets_arg hc fun held _ hp w => ?_
    have hregister : ∀ heap : Heap, Vets p e [1, 3]
        (orFail (heap.register id target held (tokenOf token)) : Act γ Heap) := by
      intro heap
      rw [register_eq, orFail_bind]
      refine h.vets_check hb rfl htarget (Demand.checks_watchable.settles _) fun t => ?_
      rw [orFail_bind]
      exact h.vets_check ht rfl htoken (checks_tokenTarget.settles _) fun _ => .nil
    exact (hregister w.session.heap hp).bind _ w
  cases token <;> exact hrest

theorem vets_finalizationUnregister (h : OnlyWrong (.host .finalizationUnregister) args p e)
    (ha : args[0]? = some (.ref a)) (hb : args[1]? = some (.ref b)) :
    Vets p e [0, 1] (finalizationUnregister a b : Act γ Int32) := by
  refine h.vets_arg ha fun v hv =>
    h.vets_check ha rfl hv (Demand.checks_expectRegistry.settles _) fun id =>
      h.vets_arg hb fun token htoken => .bind fun hp w => ?_
  have hunregister : Vets p e [1]
      (orFail (w.session.heap.unregister id token) : Act γ (Bool × Heap)) := by
    rw [Heap.unregister, orFail_bind]
    exact h.vets_check hb rfl htoken (Demand.checks_watchable.settles _) fun _ => .nil
  exact (hunregister hp).bind _ w

/-- What the comparison says of its only argument that is wrong, unless it is a null that it looks
at. -/
theorem equalTexts_of_left {v w : Value} (hv : Demand.stringOrNull.accepts v = false)
    (hw : Demand.stringOrNull.accepts w = true) :
    TextBuiltin.equalTexts v w = .error (v.mismatch .string) := by
  cases v <;> cases hv <;> cases w <;> cases hw <;> rfl

theorem equalTexts_of_right {v w : Value} (hv : Demand.stringOrNull.accepts v = true)
    (hw : Demand.stringOrNull.accepts w = false) (hnull : v = .null → w.kind = .other) :
    TextBuiltin.equalTexts v w = .error (w.mismatch .string) := by
  cases v <;> cases hv
  case string.refl s => cases w <;> cases hw <;> rfl
  case null.refl =>
    have hkind := hnull rfl
    have hmismatch : w.mismatch .string = .typeMismatch .string .other := by
      rw [← hkind]
      cases w <;> cases hw <;> rfl
    rw [hmismatch]
    cases w <;> cases hw <;> rfl

theorem vets_equals (h : OnlyWrong (.builtin .equals) args p e)
    (hnull : Func.blamesNull (.builtin .equals) args = false)
    (ha : args[0]? = some (.ref a)) (hb : args[1]? = some (.ref b)) :
    Vets p e [0, 1] (TextBuiltin.equals.run [.ref a, .ref b] : Act γ (List Val)) := by
  refine .bind (h.vets_arg ha fun v hv => h.vets_arg hb fun w hw => .bind fun hp => ?_)
  refine refuses_orFail ?_
  obtain rfl | hp := List.mem_cons.mp hp
  · obtain ⟨hrefused, rfl⟩ := h.refused ha rfl hv
    exact equalTexts_of_left hrefused (h.accepted (by decide) hb rfl hw)
  · obtain rfl := List.mem_singleton.mp hp
    obtain ⟨hrefused, rfl⟩ := h.refused hb rfl hw
    refine equalTexts_of_right (h.accepted (by decide) ha rfl hv) hrefused fun hvnull => ?_
    by_contra hkind
    have hleft := (passed_eq_some_iff ha).mpr hv
    have hright := (passed_eq_some_iff hb).mpr hw
    simp [Func.blamesNull, hleft, hright, hvnull, hrefused, hkind] at hnull

end Functions

/-! ### The calls -/

/-- A call with the arguments from the `n`-th on, which are of these types, vets the wrong one. -/
def VetsFrom (args : List Val) (p : ℕ) (e : ConversionError) (n : ℕ) (types : List ValType)
    (todo : List ℕ) (call : List Val → Act γ (List Val)) : Prop :=
  (args.drop n).map Val.type = types → Vets p e todo (call (args.drop n))

namespace VetsFrom

variable {args : List Val} {p n : ℕ} {e : ConversionError} {t : ValType} {types : List ValType}
variable {todo : List ℕ} {call : List Val → Act γ (List Val)}

theorem none : VetsFrom args p e n types [] call := fun _ => .nil

theorem nil (h : Vets p e todo (call [])) : VetsFrom args p e n [] todo call := by
  intro ht
  rw [List.map_eq_nil_iff.mp ht]
  exact h

theorem cons (h : ∀ v, args[n]? = some v → v.type = t →
    VetsFrom args p e (n + 1) types todo fun rest => call (v :: rest)) :
    VetsFrom args p e n (t :: types) todo call := by
  intro ht
  have hn : n < args.length := by
    by_contra hn
    rw [List.drop_eq_nil_of_le (Nat.le_of_not_lt hn)] at ht
    cases ht
  rw [List.drop_eq_getElem_cons hn] at ht ⊢
  obtain ⟨hhead, htail⟩ := List.cons.inj ht
  exact h _ (List.getElem?_eq_getElem hn) hhead htail

theorem ref (h : ∀ r, args[n]? = some (.ref r) →
    VetsFrom args p e (n + 1) types todo fun rest => call (.ref r :: rest)) :
    VetsFrom args p e n (.externref :: types) todo call := by
  refine cons fun v hv ht => ?_
  cases v <;> cases ht
  exact h _ hv

theorem word (h : ∀ i, VetsFrom args p e (n + 1) types todo fun rest => call (.i32 i :: rest)) :
    VetsFrom args p e n (.i32 :: types) todo call := by
  refine cons fun v _ ht => ?_
  cases v <;> cases ht
  exact h _

theorem number (h : ∀ x, VetsFrom args p e (n + 1) types todo fun rest => call (.f64 x :: rest)) :
    VetsFrom args p e n (.f64 :: types) todo call := by
  refine cons fun v _ ht => ?_
  cases v <;> cases ht
  exact h _

theorem order {s : Scalar} {k : Bool → Act γ (List Val)} (h : ∀ order, Vets p e todo (k order)) :
    VetsFrom args p e n s.orderParam todo (byteOrder k) := by
  unfold Scalar.orderParam
  split
  · exact .nil (h _)
  · exact .word fun _ => .nil (h _)

end VetsFrom

section Calls

variable {args : List Val} {p : ℕ} {e : ConversionError}

/-- A call of a function of the host table. -/
theorem vetsFrom_host (m : Machine γ) (i : HostFunc) (h : OnlyWrong (.host i) args p e)
    (hnull : Func.blamesNull (.host i) args = false) :
    VetsFrom args p e 0 i.type.params (Func.host i).demanded (HostCall.run m i) := by
  cases i with
  | unboxBool =>
    exact .ref fun r hr => .nil (h.vets_demand hr rfl Demand.checks_expectBool fun _ => .nil).bind
  | unboxNumber => exact .ref fun _ hr => .nil (vets_unboxNumber h hr).bind
  | errorMessage => exact .ref fun _ hr => .nil (vets_errorMessage h hnull hr).bind
  | stringToModule =>
    exact .ref fun r hr => .nil (h.vets_demand hr rfl Demand.checks_expectString fun _ => .nil).bind
  | arrayLength =>
    exact .ref fun r hr => .nil (h.vets_demand hr rfl Demand.checks_expectArray fun _ => .nil).bind
  | arrayGet =>
    exact .ref fun r hr => .word fun _ =>
      .nil (h.vets_demand hr rfl Demand.checks_expectArray fun _ => .nil).bind
  | arraySet =>
    exact .ref fun r hr => .word fun _ => .ref fun _ _ =>
      .nil (h.vets_demand hr rfl Demand.checks_expectArray fun _ => .nil).bind
  | arrayPush =>
    exact .ref fun r hr => .ref fun _ _ =>
      .nil (h.vets_demand hr rfl Demand.checks_expectArray fun _ => .nil).bind
  | objectGet => exact .ref fun _ ha => .ref fun _ hb => .nil (vets_objectGet h ha hb).bind
  | objectSet =>
    exact .ref fun _ ha => .ref fun _ hb => .ref fun _ _ => .nil (vets_objectSet h ha hb).bind
  | objectHas => exact .ref fun _ ha => .ref fun _ hb => .nil (vets_objectHas h ha hb).bind
  | objectDelete =>
    exact .ref fun _ ha => .ref fun _ hb => .nil (vets_objectDelete h ha hb).bind
  | objectKeys =>
    exact .ref fun r hr => .nil (h.vets_demand hr rfl Demand.checks_expectObject fun _ => .nil).bind
  | callFunction =>
    exact .ref fun _ ha => .ref fun _ hb => .nil (vets_callFunction m h ha hb).bind
  | finalizationRegistryNew =>
    exact .ref fun r hr =>
      .nil (h.vets_demand hr rfl Demand.checks_expectFunction fun _ => .nil).bind
  | finalizationRegister =>
    exact .ref fun _ ha => .ref fun _ hb => .ref fun _ hc => .ref fun _ ht =>
      .nil (vets_finalizationRegister h ha hb hc ht).bind
  | finalizationUnregister =>
    exact .ref fun _ ha => .ref fun _ hb => .nil (vets_finalizationUnregister h ha hb).bind
  | arrayBufferByteLength =>
    exact .ref fun r hr => .nil (h.vets_demand hr rfl Demand.checks_expectBuffer fun _ => .nil).bind
  | typedArrayLength =>
    exact .ref fun r hr =>
      .nil (h.vets_demand hr rfl Demand.checks_expectTypedArray fun _ => .nil).bind
  | typedArrayGet =>
    exact .ref fun r hr => .word fun _ =>
      .nil (h.vets_demand hr rfl Demand.checks_expectTypedArray fun _ => .nil).bind
  | typedArraySet =>
    exact .ref fun r hr => .word fun _ => .number fun _ =>
      .nil (h.vets_demand hr rfl Demand.checks_expectTypedArray fun _ => .nil).bind
  | typedArrayCopyFromModule =>
    exact .ref fun r hr => .word fun _ => .word fun _ => .word fun _ =>
      .nil (h.vets_demand hr rfl Demand.checks_expectTypedArray fun _ => .nil).bind
  | typedArrayCopyToModule =>
    exact .ref fun r hr => .word fun _ => .word fun _ => .word fun _ =>
      .nil (h.vets_demand hr rfl Demand.checks_expectTypedArray fun _ => .nil).bind
  | dataViewOf =>
    exact .ref fun r hr => .word fun _ => .word fun _ =>
      .nil (h.vets_demand hr rfl Demand.checks_expectBufferOrView fun _ => .nil).bind
  | dataViewByteLength =>
    exact .ref fun r hr =>
      .nil (h.vets_demand hr rfl Demand.checks_expectDataView fun _ => .nil).bind
  | dataViewCopy =>
    exact .ref fun r hr => .word fun _ => .word fun _ =>
      .nil (h.vets_demand hr rfl Demand.checks_expectDataView fun _ => .nil).bind
  | dataViewGet s =>
    refine .ref fun r hr => .word fun i => ?_
    show VetsFrom args p e 2 s.orderParam [0] (byteOrder fun order => do
      return [← dataViewGet s r i order])
    exact .order fun _ => (h.vets_demand hr rfl Demand.checks_expectDataView fun _ => .nil).bind
  | dataViewSet s =>
    refine .ref fun r hr => .word fun i => .cons fun x _ _ => ?_
    show VetsFrom args p e 3 s.orderParam [0] (byteOrder fun order =>
      noResult (dataViewSet s r i x order))
    exact .order fun _ => (h.vets_demand hr rfl Demand.checks_expectDataView fun _ => .nil).bind
  | _ => exact .none

/-- A call of a string builtin. -/
theorem vetsFrom_builtin (b : TextBuiltin) (h : OnlyWrong (.builtin b) args p e)
    (hnull : Func.blamesNull (.builtin b) args = false) :
    VetsFrom args p e 0 b.type.params (Func.builtin b).demanded (b.run : List Val → Act γ _) := by
  cases b with
  | cast => exact .ref fun _ hr => .nil (h.vets_text hr rfl fun _ => .nil).bind
  | charCodeAt => exact .ref fun _ hr => .word fun _ => .nil (h.vets_text hr rfl fun _ => .nil).bind
  | codePointAt =>
    exact .ref fun _ hr => .word fun _ => .nil (h.vets_text hr rfl fun _ => .nil).bind
  | length => exact .ref fun _ hr => .nil (h.vets_text hr rfl fun _ => .nil).bind
  | concat =>
    exact .ref fun _ ha => .ref fun _ hb =>
      .nil (h.vets_text ha rfl fun _ => h.vets_text hb rfl fun _ => .nil).bind
  | substring =>
    exact .ref fun _ hr => .word fun _ => .word fun _ =>
      .nil (h.vets_text hr rfl fun _ => .nil).bind
  | equals => exact .ref fun _ ha => .ref fun _ hb => .nil (vets_equals h hnull ha hb)
  | compare =>
    exact .ref fun _ ha => .ref fun _ hb =>
      .nil (h.vets_text ha rfl fun _ => h.vets_text hb rfl fun _ => .nil).bind
  | test | fromCharCode | fromCodePoint => exact .none

/-- A call of any function. -/
theorem vetsFrom_run (c : Code γ) (m : Machine γ) (f : Func) (h : OnlyWrong f args p e)
    (hnull : f.blamesNull args = false) :
    VetsFrom args p e 0 f.type.params f.demanded (c.run m f) := by
  cases f with
  | host i => exact vetsFrom_host m i h hnull
  | builtin b => exact vetsFrom_builtin b h hnull
  | loadModule =>
    exact .ref fun _ hr => .nil
      (Vets.bind (h.vets_demand hr rfl Demand.checks_expectString fun _ => .nil))
  | supplied | own | const | relay => exact .none

end Calls

/-! ### The kind of a null -/

theorem exists_ref_of_types {args : List Val} {types : List ValType}
    (h : args.map Val.type = .externref :: types) :
    ∃ r rest, args = .ref r :: rest ∧ rest.map Val.type = types := by
  cases args with
  | nil => cases h
  | cons v rest =>
    obtain ⟨hhead, htail⟩ := List.cons.inj h
    cases v <;> cases hhead
    exact ⟨_, rest, rfl, htail⟩

section Blames

variable {args : List Val} {p : ℕ} {e : ConversionError} {w : World γ}

theorem errorMessage_blames (m : Machine γ) (h : OnlyWrong (.host .errorMessage) args p e)
    (htypes : args.map Val.type = [.externref]) (hnull : Func.passed args 0 = some .null) :
    HostCall.run m .errorMessage args w = .error (.marshal (.typeMismatch .error .other)) w ∧
      (Func.host .errorMessage).demand? p = some .error ∧ e = .nullReference := by
  obtain ⟨a, rest, rfl, hrest⟩ := exists_ref_of_types htypes
  obtain rfl := List.map_eq_nil_iff.mp hrest
  have ha : a.value = .ok .null := (passed_eq_some_iff (q := 0) rfl).mp hnull
  obtain ⟨d, r, hd, -, -, -⟩ := h.wrong
  obtain rfl := List.mem_singleton.mp (Func.mem_demanded hd)
  refine ⟨?_, rfl, (h.refused rfl rfl ha).2⟩
  show refResult (errorMessage a) w = _
  rw [errorMessage, arg_eq_pure ha]
  rfl

theorem equals_blames (h : OnlyWrong (.builtin .equals) args p e)
    (htypes : args.map Val.type = [.externref, .externref])
    (hnull : Func.passed args 0 = some .null) {v : Value} (hv : Func.passed args 1 = some v)
    (hrefused : Demand.stringOrNull.accepts v = false) :
    TextBuiltin.equals.run args w = .error (.marshal (.typeMismatch .string .other)) w ∧
      (Func.builtin .equals).demand? p = some .stringOrNull ∧ e = .typeMismatch .string v.kind := by
  obtain ⟨a, rest, rfl, hrest⟩ := exists_ref_of_types htypes
  obtain ⟨b, rest, rfl, hnil⟩ := exists_ref_of_types hrest
  obtain rfl := List.map_eq_nil_iff.mp hnil
  have ha : a.value = .ok .null := (passed_eq_some_iff (q := 0) rfl).mp hnull
  have hb : b.value = .ok v := (passed_eq_some_iff (q := 1) rfl).mp hv
  obtain rfl : 1 = p := by
    by_contra hp
    have haccepted := h.accepted hp rfl rfl hb
    rw [hrefused] at haccepted
    cases haccepted
  refine ⟨?_, rfl, ?_⟩
  · show wordResult (do
      let v ← arg a
      let w ← arg b
      return flag (← orFail (TextBuiltin.equalTexts v w))) w = _
    rw [arg_eq_pure ha, arg_eq_pure hb]
    cases v <;> cases hrefused <;> rfl
  · rw [(h.refused rfl rfl hb).2]
    cases v <;> cases hrefused <;> rfl

/-- A call that says the kind of a null does not say what is wrong. -/
theorem run_of_blamesNull (c : Code γ) (m : Machine γ) {f : Func} {d : Demand}
    (h : OnlyWrong f args p e) (htypes : args.map Val.type = f.type.params)
    (hd : f.demand? p = some d) (hnull : f.blamesNull args = true) :
    c.run m f args w = .error (.marshal (.typeMismatch d.expected .other)) w ∧
      e ≠ .typeMismatch d.expected .other := by
  unfold Func.blamesNull at hnull
  split at hnull
  · obtain ⟨hrun, hd', rfl⟩ := errorMessage_blames (w := w) m h htypes (of_decide_eq_true hnull)
    cases hd.symm.trans hd'
    exact ⟨hrun, nofun⟩
  · rw [Bool.and_eq_true, decide_eq_true_eq, Option.any_eq_true] at hnull
    obtain ⟨hnull, v, hv, hkind⟩ := hnull
    rw [Bool.and_eq_true, Bool.not_eq_true', bne_iff_ne] at hkind
    obtain ⟨hrun, hd', rfl⟩ := equals_blames (w := w) h htypes hnull hv hkind.1
    cases hd.symm.trans hd'
    exact ⟨hrun, fun heq => hkind.2 (ConversionError.typeMismatch.inj heq).2⟩
  · cases hnull

end Blames

/-! ### The main theorem -/

/-- A function is called with arguments of its types, and all but one of its references can be
passed for their parameters.  The call fails and changes nothing.  It says of the wrong one what is
wrong with it, unless it says the kind of a null: that is so if it asks for the message of null, or
compares null with a value that is no string and not of the kind of a null. -/
theorem wrong_arguments_refused (c : Code γ) (m : Machine γ) {f : Func} {args : List Val} {p : ℕ}
    {d : Demand} {r : Reference} (htypes : args.map Val.type = f.type.params)
    (hd : f.demand? p = some d) (hr : args[p]? = some (.ref r)) (hwrong : d.admits r = false)
    (hothers : ∀ q r', q ≠ p → args[q]? = some (.ref r') → f.accepts q r' = true) (w : World γ) :
    (c.run m f args w = .error (.marshal (d.refusal r)) w ↔ f.blamesNull args = false) ∧
    (f.blamesNull args = true →
      c.run m f args w = .error (.marshal (.typeMismatch d.expected Value.null.kind)) w) := by
  have h : OnlyWrong f args p (d.refusal r) := ⟨⟨d, r, hd, hr, hwrong, rfl⟩, hothers⟩
  cases hnull : f.blamesNull args with
  | false =>
    exact ⟨iff_of_true (vetsFrom_run c m f h hnull htypes (Func.mem_demanded hd) w) rfl, nofun⟩
  | true =>
    obtain ⟨hrun, hne⟩ := run_of_blamesNull (w := w) c m h htypes hd hnull
    refine ⟨iff_of_false (fun hrefused => hne ?_) nofun, fun _ => hrun⟩
    injection hrefused.symm.trans hrun with hfault
    injection hfault

/-- A module that does nothing. -/
def idleCode : Code Unit where
  own _ _ _ _ := return []
  supplied _ _ _ _ := return []
  native _ _ := return .undefined
  note _ := return ()

/-- A session that has just begun. -/
def begun : World Unit := ⟨.new (.standard .default ⟨[]⟩ true) .none none, ()⟩

/-- A property of an object is asked for by true, which is no string. -/
theorem wrong_arguments_refused_key :
    let args : List Val := [.ref (.host (.object 0)), .ref (.host (.bool true))]
    (args.map Val.type = (Func.host .objectGet).type.params ∧
      (Func.host .objectGet).demand? 1 = some .string ∧
      Demand.string.admits (.host (.bool true)) = false ∧
      (∀ q r, q ≠ 1 → args[q]? = some (.ref r) → (Func.host .objectGet).accepts q r = true) ∧
      (Func.host .objectGet).blamesNull args = false) ∧
    idleCode.run (idleCode.machine 0) (.host .objectGet) args begun
      = .error (.marshal (.typeMismatch .string .boolean)) begun := by
  intro args
  have hothers : ∀ q r, q ≠ 1 → args[q]? = some (.ref r) →
      (Func.host .objectGet).accepts q r = true := by
    intro q r hq hr
    match q, hq, hr with
    | 0, _, hr =>
      cases hr
      rfl
    | 1, hq, _ => exact absurd rfl hq
  exact ⟨⟨rfl, rfl, rfl, hothers, rfl⟩,
    (wrong_arguments_refused idleCode (idleCode.machine 0) (p := 1) (d := .string)
      (r := .host (.bool true)) rfl rfl rfl rfl hothers begun).1.mpr rfl⟩

/-- The message of null, and a null compared with true: the kind of the null is said. -/
theorem null_blamed :
    (Demand.error.refusal .null = .nullReference ∧
      idleCode.run (idleCode.machine 0) (.host .errorMessage) [.ref .null] begun
        = .error (.marshal (.typeMismatch .error .other)) begun) ∧
    Demand.stringOrNull.refusal (.host (.bool true)) = .typeMismatch .string .boolean ∧
      idleCode.run (idleCode.machine 0) (.builtin .equals)
          [.ref .null, .ref (.host (.bool true))] begun
        = .error (.marshal (.typeMismatch .string .other)) begun :=
  ⟨⟨rfl, rfl⟩, rfl, rfl⟩

end ModuleHost
