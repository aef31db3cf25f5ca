/-
Strict equality is an identity.

Values are the same by value, by what they cover or by who they are, as their kind has it.  Only
numbers may be the same without being one value, the two zeros, and only a NaN is not the same as
itself.  Nothing that a module can ask tells values apart that are the same.

* `Value.identity`, `Value.same_iff` — what a value is the same by;
* `Value.eq_or_zeros_of_same` — values that are the same are one value or two zeros;
* `Value.Alike` — values that a module cannot tell apart by what it can ask of each;
* `sameness_is_identity` — the main theorem.
-/
import Mathlib
import ModuleHost.Session.HostCalls
import ModuleHost.Proofs.Number.Equality
import ModuleHost.Proofs.Watch.Registry

namespace ModuleHost

/-! ### Values -/

namespace Value

variable {u v w : Value}

/-- What a value is the same by: a number by its quantity, anything else by itself. -/
def identity : Value → Quantity ⊕ Value
  | number x => .inl x.quantity
  | v => .inr v

theorem same_iff : v.same w = true ↔ v.identity = w.identity ∧ v.identity ≠ .inl .nan := by
  cases v with
  | number x =>
    cases w with
    | number y => simp [same, identity, Double.same_iff]
    | _ => simp [same, identity]
  | _ => cases w <;> simp [same_eq, identity]

theorem same_symm (h : v.same w = true) : w.same v = true := by
  rw [same_iff] at h ⊢
  exact ⟨h.1.symm, h.1 ▸ h.2⟩

theorem same_trans (huv : u.same v = true) (hvw : v.same w = true) : u.same w = true := by
  rw [same_iff] at huv hvw ⊢
  exact ⟨huv.1.trans hvw.1, huv.2⟩

/-- The number NaN, whatever its payload. -/
def IsNaN (v : Value) : Prop := ∃ x, v = .number x ∧ x.quantity = .nan

theorem same_self_iff : v.same v = true ↔ ¬ v.IsNaN := by
  rw [same_iff, eq_self_iff_true, true_and, IsNaN]
  cases v <;> simp [identity]

/-- Values that are the same are one value or two zeros. -/
theorem eq_or_zeros_of_same (h : v.same w = true) :
    v = w ∨ ∃ x y, v = .number x ∧ w = .number y ∧ x.isZero = true ∧ y.isZero = true := by
  cases v with
  | number x =>
    cases w with
    | number y =>
      obtain rfl | hzeros := Double.eq_or_zeros_of_same h
      · exact .inl rfl
      · exact .inr ⟨x, y, rfl, rfl, hzeros⟩
    | _ => exact absurd (same_iff.mp h).1 (by simp [identity])
  | _ =>
    rw [same_eq (fun _ => by simp)] at h
    exact .inl (of_decide_eq_true h)

/-- Values that a module cannot tell apart: whatever it asks of one of them, except for the number
itself, it is answered the same of the other one, and a weak handle on one is a weak handle on the
other. -/
structure Alike (v w : Value) : Prop where
  kind : v.kind = w.kind
  truthy : v.truthy = w.truthy
  display (h : Heap) : h.display v = h.display w
  asked {γ : Type} (m : Machine γ) (f : HostFunc) (hf : f ≠ .unboxNumber) :
    HostCall.run m f [.ref (.ofValue v)] = HostCall.run m f [.ref (.ofValue w)]
  weak (t : Target) (ht : v.watchable = .ok t) : w.watchable = .ok t

theorem Alike.refl (v : Value) : v.Alike v :=
  ⟨rfl, rfl, fun _ => rfl, fun _ _ _ => rfl, fun _ => id⟩

/-- What a module asks of a number, the number itself aside, depends on how it is displayed. -/
theorem asked_number_eq {γ : Type} (m : Machine γ) {f : HostFunc} (hf : f ≠ .unboxNumber)
    {x y : Double} (h : x.display = y.display) :
    HostCall.run m f [.ref (.host (.number x))] = HostCall.run m f [.ref (.host (.number y))] := by
  have hdisplay (heap : Heap) : heap.display (.number x) = heap.display (.number y) :=
    congrArg Text.ofString h
  cases f
  case unboxNumber => exact absurd rfl hf
  case print =>
    show HostCall.noResult (do
      let line := ((← Act.heap).display (.number x)).toString
      Act.modifySession fun s => { s with console := s.console.push line }) = _
    simp only [hdisplay]
    rfl
  case toDisplayString =>
    show HostCall.refResult (do Act.give (.string ((← Act.heap).display (.number x)))) = _
    simp only [hdisplay]
    rfl
  -- the others look at its kind only
  all_goals rfl

theorem alike_of_zeros {x y : Double} (hx : x.isZero = true) (hy : y.isZero = true) :
    (number x).Alike (number y) := by
  have hdisplay : x.display = y.display := by
    rw [Double.display_of_isZero hx, Double.display_of_isZero hy]
  constructor
  case kind => rfl
  case truthy => simp [truthy, hx, hy]
  case display => exact fun _ => congrArg Text.ofString hdisplay
  case asked => exact fun m _ hf => asked_number_eq m hf hdisplay
  case weak => exact fun _ ht => nomatch ht

theorem alike_of_same (h : v.same w = true) : v.Alike w := by
  obtain rfl | ⟨x, y, rfl, rfl, hx, hy⟩ := eq_or_zeros_of_same h
  · exact .refl v
  · exact alike_of_zeros hx hy

end Value

/-! ### Weak handles -/

namespace Heap

variable {h h' : Heap} {r : ℕ} {target held v w : Value}

/-- A registration with a token adds a cell with a weak handle on it. -/
theorem exists_of_register_ok (hreg : h.register r target held (some v) = .ok h') :
    ∃ c k, v.watchable = .ok k ∧ c.token = some k ∧
      h' = (h.retain held).setWatchCells r (h.watchCells r ++ [c]) := by
  have hadds := register_eq (h := h) (r := r) target held (some v)
  rw [hreg] at hadds
  obtain ⟨c, hcell, hh'⟩ := Option.map_eq_some_iff.mp hadds.symm
  unfold WatchCell.of? at hcell
  cases htarget : target.weak? with
  | none => rw [htarget] at hcell; cases hcell
  | some t =>
    rw [htarget] at hcell
    obtain ⟨k, hk, rfl⟩ := Option.map_eq_some_iff.mp hcell
    rw [Value.weak?_eq] at hk
    cases htoken : v.watchable with
    | error e => rw [htoken] at hk; cases hk
    | ok k' =>
      rw [htoken] at hk
      exact ⟨_, k', rfl, hk.symm, hh'.symm⟩

/-- What was registered with a token is dropped with anything that is the same as the token. -/
theorem unregister_of_alike (hvw : v.Alike w) (hlive : h.registries.isLive r = true)
    (hreg : h.register r target held (some v) = .ok h') :
    ∃ h'', h'.unregister r w = .ok (true, h'') := by
  obtain ⟨c, k, hk, hc, rfl⟩ := exists_of_register_ok hreg
  have hkept : (h.retain held).registries.isLive r = true :=
    (isLive_retainAll (t := .registry r) [held]).trans hlive
  unfold unregister
  rw [hvw.weak k hk]
  simp only [watchCells_setWatchCells_self hkept]
  refine ⟨_, congrArg (fun b => Except.ok (b, _)) ?_⟩
  simp [hc]

end Heap

/-! ### The main theorem -/

/-- Strict equality is symmetric and transitive, and reflexive except on NaN; of two numbers it says
that they stand for the same one.  It is what a module is told when it asks whether two references
are to the same value, and a reference to a value, which is null for null only, leads back to that
very value.  Values that are the same cannot be told apart by anything that a module asks of
each, and what was registered with one of them as its token is dropped with the other one. -/
theorem sameness_is_identity :
    (∀ v w : Value, v.same w = true → w.same v = true) ∧
    (∀ u v w : Value, u.same v = true → v.same w = true → u.same w = true) ∧
    (∀ v : Value, v.same v = true ↔ ¬ v.IsNaN) ∧
    (∀ x y : Double, (Value.number x).same (.number y) = true ↔
      x.quantity = y.quantity ∧ x.quantity ≠ .nan) ∧
    (∀ v : Value, (Reference.ofValue v).value = .ok v ∧ (Reference.ofValue v = .null ↔ v = .null)) ∧
    (∀ (v w : Value) {γ : Type} (m : Machine γ),
      HostCall.run m .identical [.ref (.ofValue v), .ref (.ofValue w)]
        = pure [.i32 (HostCall.flag (v.same w))]) ∧
    ∀ v w : Value, v.same w = true → v.Alike w ∧
      ∀ (h h' : Heap) (r : ℕ) (target held : Value), h.registries.isLive r = true →
        h.register r target held (some v) = .ok h' →
        ∃ h'', h'.unregister r w = .ok (true, h'') := by
  refine ⟨fun _ _ => Value.same_symm, fun _ _ _ => Value.same_trans, fun _ => Value.same_self_iff,
    fun _ _ => Double.same_iff, fun v => ⟨Reference.value_ofValue v, ?_⟩, ?_, ?_⟩
  · cases v <;> simp [Reference.ofValue]
  · intro v w γ m
    show HostCall.wordResult (do
      let a ← Act.orFail (Reference.ofValue v).value
      let b ← Act.orFail (Reference.ofValue w).value
      return HostCall.flag (a.same b)) = _
    rw [Reference.value_ofValue, Reference.value_ofValue]
    rfl
  · intro v w hsame
    have halike := Value.alike_of_same hsame
    exact ⟨halike, fun h h' r target held hlive hreg =>
      Heap.unregister_of_alike halike hlive hreg⟩

/-- A heap with a buffer and a registry. -/
def bufferAndRegistry : Heap :=
  (((Heap.empty true).newBuffer (.zeros 8)).2.newRegistry (.native 0)).2

/-- A window on the whole buffer. -/
def wholeWindow : Value := .typedArray ⟨.uint16, 0, 0, 4⟩

/-- The two zeros are the same and cannot be told apart, and a cell that has a window as its token
is dropped with that window. -/
theorem sameness_is_identity_zeros :
    ((Value.number .zero).same (.number .negZero) = true ∧
      (Value.number .negZero).same (.number .zero) = true ∧
      (Value.number .zero).same (.number .zero) = true ∧
      (Value.number .zero).Alike (.number .negZero)) ∧
    ∃ h', bufferAndRegistry.register 0 (.buffer 0) (.bool true) (some wholeWindow) = .ok h' ∧
      ∃ h'', h'.unregister 0 wholeWindow = .ok (true, h'') := by
  obtain ⟨hsymm, htrans, -, -, -, -, hsame⟩ := sameness_is_identity
  have hzeros : (Value.number .zero).same (.number .negZero) = true := by decide
  refine ⟨⟨hzeros, hsymm _ _ hzeros, htrans _ _ _ hzeros (hsymm _ _ hzeros),
    (hsame _ _ hzeros).1⟩, _, rfl, ?_⟩
  have hwindow : wholeWindow.same wholeWindow = true := by decide
  exact (hsame _ _ hwindow).2 _ _ 0 (.buffer 0) (.bool true) (by decide) rfl

end ModuleHost
