/-
Failed calls of the host table change nothing.

A call first makes its checks: that its arguments are of the function's type, that references stand
for values of the right kinds, that indices are not negative, that ranges lie within what they are
taken of.  Only then it changes something, in one step or in steps that cannot fail.  So a
call that fails has not changed anything yet.

* `Act.Checks` — a computation that changes nothing, whatever its outcome;
* `Act.Returns` — one that always returns;
* `Act.Careful` — one that has changed nothing if it fails;
* `HostFunc.entersModule` — the functions that run module or native code;
* `failed_calls_change_nothing` — the main theorem.

Design notes: careful computations are checks, then a step that fails without effects, then steps
that return.  `Act.Checks.before` and `Act.Careful.before` are the only rules that put a careful
computation together, so a function that changes something before its last check has no proof.
-/
import Mathlib
import ModuleHost.Proofs.Heap.Windows
import ModuleHost.Proofs.Session.HostCalls

namespace ModuleHost

open Act

variable {γ α β : Type}

/-- A world in which the clock has been read once more. -/
def World.ticked (w : World γ) : World γ :=
  ⟨{ w.session with clock := w.session.clock + 1 }, w.guest⟩

namespace Act

/-- It changes nothing, whether it returns or fails with an error. -/
structure Checks (x : Act γ α) : Prop where
  keeps : ∀ (w w' : World γ) (a : α), x w = .ok a w' → w' = w
  fails : ∀ (w w' : World γ) (e : Fault), x w = .error e w' → e.isError = true ∧ w' = w

/-- It always returns. -/
def Returns (x : Act γ α) : Prop := ∀ w : World γ, ∃ a w', x w = .ok a w'

/-- If it fails with an error it has changed nothing, and if it panics it has read the clock. -/
def Careful (x : Act γ α) : Prop :=
  ∀ (w w' : World γ) (e : Fault), x w = .error e w' →
    e.isError = true ∧ w' = w ∨ e = .panic ∧ w' = w.ticked

/-! ### The rules -/

theorem Checks.careful {x : Act γ α} (hx : Checks x) : Careful x :=
  fun w w' e herr => .inl (hx.fails w w' e herr)

theorem Returns.careful {x : Act γ α} (hx : Returns x) : Careful x := by
  intro w w' e herr
  obtain ⟨a, w₁, hok⟩ := hx w
  cases hok.symm.trans herr

/-- Checks, and then something careful. -/
theorem Checks.before {x : Act γ α} {k : α → Act γ β} (hx : Checks x) (hk : ∀ a, Careful (k a)) :
    Careful (x >>= k) := by
  intro w w' e herr
  cases hw : x w with
  | error e₁ w₁ =>
    cases (bind_of_error hw k).symm.trans herr
    exact hx.careful w w' e hw
  | ok a w₁ =>
    obtain rfl := hx.keeps w w₁ a hw
    exact hk a w₁ w' e ((bind_of_ok hw k).symm.trans herr)

/-- Something careful, and then what cannot fail. -/
theorem Careful.before {x : Act γ α} {k : α → Act γ β} (hx : Careful x) (hk : ∀ a, Returns (k a)) :
    Careful (x >>= k) := by
  intro w w' e herr
  cases hw : x w with
  | error e₁ w₁ =>
    cases (bind_of_error hw k).symm.trans herr
    exact hx w w' e hw
  | ok a w₁ =>
    obtain ⟨b, w₂, hok⟩ := hk a w₁
    cases ((bind_of_ok hw k).trans hok).symm.trans herr

theorem Checks.bind {x : Act γ α} {k : α → Act γ β} (hx : Checks x) (hk : ∀ a, Checks (k a)) :
    Checks (x >>= k) where
  keeps w w' b hok := by
    obtain ⟨a, w₁, ha, hb⟩ := exists_of_bind_ok hok
    obtain rfl := hx.keeps w w₁ a ha
    exact (hk a).keeps w₁ w' b hb
  fails w w' e herr := by
    cases hw : x w with
    | error e₁ w₁ =>
      cases (bind_of_error hw k).symm.trans herr
      exact hx.fails w w' e hw
    | ok a w₁ =>
      obtain rfl := hx.keeps w w₁ a hw
      exact (hk a).fails w₁ w' e ((bind_of_ok hw k).symm.trans herr)

theorem Returns.bind {x : Act γ α} {k : α → Act γ β} (hx : Returns x) (hk : ∀ a, Returns (k a)) :
    Returns (x >>= k) := by
  intro w
  obtain ⟨a, w₁, ha⟩ := hx w
  obtain ⟨b, w₂, hb⟩ := hk a w₁
  exact ⟨b, w₂, (bind_of_ok ha k).trans hb⟩

/-- A computation that only looks at the world. -/
theorem Checks.of_eq {x : Act γ α} (f : World γ → α) (hx : ∀ w, x w = .ok (f w) w) : Checks x where
  keeps w w' a hok := by
    cases (hx w).symm.trans hok
    rfl
  fails w w' e herr := by cases (hx w).symm.trans herr

theorem Checks.pure (a : α) : Checks (Pure.pure a : Act γ α) := .of_eq (fun _ => a) fun _ => rfl

theorem Checks.throw {e : Fault} (he : e.isError = true) :
    Checks (MonadExcept.throw e : Act γ α) where
  keeps _ _ _ hok := by cases hok
  fails _ _ _ herr := by
    cases herr
    exact ⟨he, rfl⟩

/-- A computation that goes on unless a condition holds. -/
theorem Careful.unless {c : Prop} [Decidable c] {e : Fault} {f : PUnit → Act γ α}
    (he : e.isError = true) (hf : Careful (f ⟨⟩)) :
    Careful (if c then MonadExcept.throw e >>= f else f ⟨⟩) := by
  split
  · exact (Checks.throw he).before fun _ => hf
  · exact hf

theorem Returns.pure (a : α) : Returns (Pure.pure a : Act γ α) := fun w => ⟨a, w, rfl⟩

theorem Returns.modifySession (f : Session → Session) :
    Returns (modifySession f : Act γ Unit) := fun _ => ⟨_, _, rfl⟩

theorem Returns.modifyHeap (f : Heap → Heap) : Returns (modifyHeap f : Act γ Unit) :=
  .modifySession _

theorem Returns.onHeap (f : Heap → α × Heap) : Returns (onHeap f : Act γ α) :=
  fun _ => ⟨_, _, rfl⟩

theorem Returns.give (v : Value) : Returns (give v : Act γ Reference) := fun _ => ⟨_, _, rfl⟩

theorem Returns.giveStored (v : Value) : Returns (giveStored v : Act γ Reference) :=
  fun _ => ⟨_, _, rfl⟩

/-! ### Reading and checking -/

theorem Checks.session : Checks (session : Act γ Session) := .of_eq World.session fun _ => rfl

theorem Checks.heap : Checks (heap : Act γ Heap) := .of_eq (fun w => w.session.heap) fun _ => rfl

theorem Checks.memoryAt (id : ℕ) : Checks (memoryAt id : Act γ Memory) :=
  .of_eq (fun w => (w.session.memories[id]?).getD default) fun _ => rfl

theorem Checks.orFail (x : Except ConversionError α) : Checks (orFail x : Act γ α) := by
  cases x with
  | ok a => exact .pure a
  | error e => exact .throw rfl

theorem Checks.arg (r : Reference) : Checks (arg r : Act γ Value) := .orFail _

theorem Checks.index (i : Int32) : Checks (index i : Act γ ℕ) := by
  unfold Act.index
  split
  · exact .throw rfl
  · exact .pure _

theorem Checks.count (n : ℕ) : Checks (count n : Act γ Int32) := by
  unfold Act.count
  split
  · exact .pure _
  · exact .throw rfl

theorem Checks.requireMemory : Checks (requireMemory : Act γ ℕ) := by
  refine Checks.session.bind fun s => ?_
  split
  · exact .pure _
  · exact .throw rfl

theorem Checks.readMemory (address length : ℕ) :
    Checks (readMemory address length : Act γ (List UInt8)) :=
  Checks.requireMemory.bind fun id => (Checks.memoryAt id).bind fun _ => .orFail _

/-! ### Steps that may fail -/

theorem Careful.tryHeap (f : Heap → Except ConversionError (α × Heap)) :
    Careful (tryHeap f : Act γ α) :=
  Checks.heap.before fun _ => (Checks.orFail _).before fun _ =>
    ((Returns.modifyHeap _).bind fun _ => .pure _).careful

theorem Careful.tryChange (f : Heap → Except ConversionError Heap) :
    Careful (tryChange f : Act γ Unit) :=
  Checks.heap.before fun _ => (Checks.orFail _).before fun _ => (Returns.modifyHeap _).careful

theorem Careful.writeMemory (address : ℕ) (bytes : List UInt8) :
    Careful (writeMemory address bytes : Act γ Unit) :=
  Checks.requireMemory.before fun id => (Checks.memoryAt id).before fun _ =>
    (Checks.orFail _).before fun _ => (Returns.modifySession _).careful

theorem Careful.sendElements (v : TypedView) (start count address : ℕ) :
    Careful (sendElements v start count address : Act γ Unit) :=
  Checks.heap.before fun _ => (Checks.orFail _).before fun _ => .writeMemory _ _

theorem Careful.receiveElements (v : TypedView) (start count address : ℕ) :
    Careful (receiveElements v start count address : Act γ Unit) := by
  unfold ModuleHost.receiveElements
  refine .unless rfl ?_
  exact (Checks.readMemory _ _).before fun _ => .tryChange _

end Act

/-! ### The functions -/

namespace HostCall

theorem careful_print (v : Reference) : Careful (print v : Act γ Unit) :=
  (Checks.arg v).before fun _ => Checks.heap.before fun _ => (Returns.modifySession _).careful

/-- A timer whose instant cannot be formed is a panic, after the clock has been read. -/
theorem careful_scheduleTimer (put : TimerQueue → ℕ → Option (Int32 × TimerQueue)) :
    Careful (scheduleTimer put : Act γ Int32) := by
  intro w w' e herr
  -- the clock is read first, so that much has changed when no instant can be formed
  have hnow : (now : Act γ ℕ) w = .ok w.ticked.session.clock w.ticked := rfl
  have hrest := (bind_of_ok hnow fun instant => step (schedule put instant)).symm.trans
    ((congrFun (scheduleTimer_eq put) w).symm.trans herr)
  unfold step schedule at hrest
  cases hput : put w.ticked.session.timers w.ticked.session.clock with
  | some timer =>
    rw [hput] at hrest
    cases hrest
  | none =>
    rw [hput] at hrest
    cases hrest
    exact .inr ⟨rfl, rfl⟩

theorem returns_clockMillis : Returns (clockMillis : Act γ Double) := fun _ => ⟨_, _, rfl⟩

theorem returns_globalThis : Returns (globalThis : Act γ Reference) := fun _ => ⟨_, _, rfl⟩

theorem checks_typeTag (v : Reference) : Checks (typeTag v : Act γ Int32) :=
  (Checks.arg v).bind fun _ => .pure _

theorem checks_isUndefined (v : Reference) : Checks (isUndefined v : Act γ Int32) :=
  (Checks.arg v).bind fun _ => .pure _

theorem checks_identical (a b : Reference) : Checks (identical a b : Act γ Int32) :=
  (Checks.arg a).bind fun _ => (Checks.arg b).bind fun _ => .pure _

theorem checks_unboxBool (v : Reference) : Checks (unboxBool v : Act γ Int32) :=
  (Checks.arg v).bind fun _ => (Checks.orFail _).bind fun _ => .pure _

theorem checks_unboxNumber (v : Reference) : Checks (unboxNumber v : Act γ Double) :=
  (Checks.arg v).bind fun _ => .orFail _

theorem careful_toDisplayString (v : Reference) :
    Careful (toDisplayString v : Act γ Reference) :=
  (Checks.arg v).before fun _ => Checks.heap.before fun _ => (Returns.give _).careful

theorem checks_isError (v : Reference) : Checks (isError v : Act γ Int32) := by
  refine (Checks.arg v).bind fun v => ?_
  split
  · exact .pure _
  · exact .pure _

theorem careful_errorMessage (v : Reference) : Careful (errorMessage v : Act γ Reference) := by
  refine (Checks.arg v).before fun v => ?_
  split
  · exact Checks.heap.before fun _ => (Returns.give _).careful
  · exact (Checks.throw rfl).careful

theorem careful_decodeUtf8 (address length : Int32) :
    Careful (decodeUtf8 address length : Act γ Reference) :=
  (Checks.index address).before fun _ => (Checks.index length).before fun _ =>
    (Checks.readMemory _ _).before fun _ => (Returns.give _).careful

/-! ### Arrays and objects -/

theorem returns_giveArray (values : List Value) : Returns (giveArray values : Act γ Reference) :=
  (Returns.onHeap _).bind fun _ => .give _

theorem checks_arrayLength (a : Reference) : Checks (arrayLength a : Act γ Int32) :=
  (Checks.arg a).bind fun _ => (Checks.orFail _).bind fun _ => Checks.heap.bind fun _ => .count _

theorem careful_arrayGet (a : Reference) (i : Int32) : Careful (arrayGet a i : Act γ Reference) :=
  (Checks.arg a).before fun _ => (Checks.orFail _).before fun _ => (Checks.index i).before fun _ =>
    Checks.heap.before fun _ => (Returns.giveStored _).careful

theorem careful_arraySet (a : Reference) (i : Int32) (v : Reference) :
    Careful (arraySet a i v : Act γ Unit) :=
  (Checks.arg a).before fun _ => (Checks.orFail _).before fun _ => (Checks.index i).before fun _ =>
    (Checks.arg v).before fun _ => (Returns.modifyHeap _).careful

theorem careful_arrayPush (a v : Reference) : Careful (arrayPush a v : Act γ Unit) :=
  (Checks.arg a).before fun _ => (Checks.orFail _).before fun _ => (Checks.arg v).before fun _ =>
    (Returns.modifyHeap _).careful

theorem returns_objectNew : Returns (objectNew : Act γ Reference) :=
  (Returns.onHeap _).bind fun _ => .give _

theorem careful_objectGet (o k : Reference) : Careful (objectGet o k : Act γ Reference) :=
  (Checks.arg o).before fun _ => (Checks.arg k).before fun _ => (Checks.orFail _).before fun _ =>
    (Checks.orFail _).before fun _ => Checks.heap.before fun _ => (Returns.giveStored _).careful

theorem careful_objectSet (o k v : Reference) : Careful (objectSet o k v : Act γ Unit) :=
  (Checks.arg k).before fun _ => (Checks.orFail _).before fun _ => (Checks.arg o).before fun _ =>
    (Checks.orFail _).before fun _ => (Checks.arg v).before fun _ => (Returns.modifyHeap _).careful

theorem checks_objectHas (o k : Reference) : Checks (objectHas o k : Act γ Int32) :=
  (Checks.arg k).bind fun _ => (Checks.arg o).bind fun _ => (Checks.orFail _).bind fun _ =>
    (Checks.orFail _).bind fun _ => Checks.heap.bind fun _ => .pure _

theorem careful_objectDelete (o k : Reference) : Careful (objectDelete o k : Act γ Int32) :=
  (Checks.arg k).before fun _ => (Checks.arg o).before fun _ => (Checks.orFail _).before fun _ =>
    (Checks.orFail _).before fun _ => Checks.heap.before fun _ =>
      ((Returns.modifyHeap _).bind fun _ => .pure _).careful

theorem careful_objectKeys (o : Reference) : Careful (objectKeys o : Act γ Reference) :=
  (Checks.arg o).before fun _ => (Checks.orFail _).before fun _ => Checks.heap.before fun _ =>
    (returns_giveArray _).careful

/-! ### Functions and finalization -/

theorem returns_wrapFunction (closure : Int32) (arity : ℕ) :
    Returns (wrapFunction closure arity : Act γ Reference) :=
  (Returns.onHeap _).bind fun _ => .give _

theorem checks_isModuleFunction (v : Reference) : Checks (isModuleFunction v : Act γ Int32) := by
  refine (Checks.arg v).bind fun v => ?_
  split
  · exact .pure _
  · exact .pure _

theorem checks_unwrapFunction (v : Reference) : Checks (unwrapFunction v : Act γ Int32) := by
  refine (Checks.arg v).bind fun v => ?_
  split
  · exact Checks.heap.bind fun _ => .pure _
  · exact .throw rfl

theorem careful_finalizationRegistryNew (cleanup : Reference) :
    Careful (finalizationRegistryNew cleanup : Act γ Reference) :=
  (Checks.arg cleanup).before fun _ => (Checks.orFail _).before fun _ =>
    ((Returns.onHeap _).bind fun _ => (Returns.modifySession _).bind fun _ => .give _).careful

theorem careful_finalizationRegister (r target held token : Reference) :
    Careful (finalizationRegister r target held token : Act γ Unit) := by
  refine (Checks.arg r).before fun r => (Checks.arg token).before fun token => ?_
  -- what follows is the same with and without a token
  have hrest : ∀ token : Option Value, Careful (do
      let id ← orFail r.expectRegistry
      let target ← arg target
      let held ← arg held
      tryChange fun h => h.register id target held token : Act γ Unit) := fun _ =>
    (Checks.orFail _).before fun _ => (Checks.arg target).before fun _ =>
      (Checks.arg held).before fun _ => .tryChange _
  split
  · exact hrest none
  · exact hrest _

theorem careful_finalizationUnregister (r token : Reference) :
    Careful (finalizationUnregister r token : Act γ Int32) :=
  (Checks.arg r).before fun _ => (Checks.orFail _).before fun _ => (Checks.arg token).before fun _ =>
    (Careful.tryHeap _).before fun _ => .pure _

/-! ### Buffers and windows -/

theorem careful_arrayBufferNew (length : Int32) :
    Careful (arrayBufferNew length : Act γ Reference) :=
  (Checks.index length).before fun _ => ((Returns.onHeap _).bind fun _ => .give _).careful

theorem checks_arrayBufferByteLength (b : Reference) :
    Checks (arrayBufferByteLength b : Act γ Int32) :=
  (Checks.arg b).bind fun _ => (Checks.orFail _).bind fun _ => Checks.heap.bind fun _ => .count _

theorem checks_elementOfTag (tag : Int32) : Checks (elementOfTag tag : Act γ Element) := by
  unfold elementOfTag
  split
  · exact .pure _
  · exact .throw rfl

theorem careful_typedArrayNew (tag length : Int32) :
    Careful (typedArrayNew tag length : Act γ Reference) :=
  (checks_elementOfTag tag).before fun _ => (Checks.index length).before fun _ =>
    ((Returns.onHeap _).bind fun _ => .give _).careful

theorem checks_typedArrayLength (a : Reference) : Checks (typedArrayLength a : Act γ Int32) :=
  (Checks.arg a).bind fun _ => (Checks.orFail _).bind fun _ => .count _

theorem checks_typedArrayGet (a : Reference) (i : Int32) :
    Checks (typedArrayGet a i : Act γ Double) := by
  refine (Checks.arg a).bind fun _ => (Checks.orFail _).bind fun v =>
    (Checks.index i).bind fun i => Checks.heap.bind fun h => ?_
  split
  · exact .pure _
  · exact .throw rfl

theorem careful_typedArraySet (a : Reference) (i : Int32) (x : Double) :
    Careful (typedArraySet a i x : Act γ Unit) :=
  (Checks.arg a).before fun _ => (Checks.orFail _).before fun _ => (Checks.index i).before fun _ =>
    .tryChange _

theorem careful_typedArrayCopyFromModule (a : Reference) (start length address : Int32) :
    Careful (typedArrayCopyFromModule a start length address : Act γ Unit) :=
  (Checks.arg a).before fun _ => (Checks.orFail _).before fun _ =>
    (Checks.index start).before fun _ => (Checks.index length).before fun _ =>
      (Checks.index address).before fun _ => .receiveElements _ _ _ _

theorem careful_typedArrayCopyToModule (a : Reference) (start length address : Int32) :
    Careful (typedArrayCopyToModule a start length address : Act γ Unit) :=
  (Checks.arg a).before fun _ => (Checks.orFail _).before fun _ =>
    (Checks.index start).before fun _ => (Checks.index length).before fun _ =>
      (Checks.index address).before fun _ => .sendElements _ _ _ _

theorem careful_dataViewNew (length : Int32) : Careful (dataViewNew length : Act γ Reference) :=
  (Checks.index length).before fun _ => ((Returns.onHeap _).bind fun _ => .give _).careful

theorem careful_dataViewOf (b : Reference) (offset length : Int32) :
    Careful (dataViewOf b offset length : Act γ Reference) :=
  (Checks.arg b).before fun _ => (Checks.orFail _).before fun _ =>
    (Checks.index offset).before fun _ => (Checks.index length).before fun _ =>
      (Careful.tryHeap _).before fun _ => .give _

theorem checks_dataViewByteLength (v : Reference) : Checks (dataViewByteLength v : Act γ Int32) :=
  (Checks.arg v).bind fun _ => (Checks.orFail _).bind fun _ => .count _

theorem careful_dataViewCopy (v : Reference) (offset length : Int32) :
    Careful (dataViewCopy v offset length : Act γ Reference) :=
  (Checks.arg v).before fun _ => (Checks.orFail _).before fun _ =>
    (Checks.index offset).before fun _ => (Checks.index length).before fun _ =>
      (Careful.tryHeap _).before fun _ => .give _

theorem careful_dataViewFromModule (address length : Int32) :
    Careful (dataViewFromModule address length : Act γ Reference) :=
  (Checks.index address).before fun _ => (Checks.index length).before fun _ =>
    (Checks.readMemory _ _).before fun _ => ((Returns.onHeap _).bind fun _ => .give _).careful

theorem checks_dataViewGet (t : Scalar) (v : Reference) (offset : Int32) (littleEndian : Bool) :
    Checks (dataViewGet t v offset littleEndian : Act γ Val) :=
  (Checks.arg v).bind fun _ => (Checks.orFail _).bind fun _ => (Checks.index offset).bind fun _ =>
    Checks.heap.bind fun _ => (Checks.orFail _).bind fun _ => .pure _

theorem careful_dataViewSet (t : Scalar) (v : Reference) (offset : Int32) (x : Val)
    (littleEndian : Bool) : Careful (dataViewSet t v offset x littleEndian : Act γ Unit) :=
  (Checks.arg v).before fun _ => (Checks.orFail _).before fun _ =>
    (Checks.index offset).before fun _ => .tryChange _

/-! ### The table -/

theorem careful_wordResult {x : Act γ Int32} (hx : Careful x) : Careful (wordResult x) :=
  hx.before fun _ => .pure _

theorem careful_numberResult {x : Act γ Double} (hx : Careful x) : Careful (numberResult x) :=
  hx.before fun _ => .pure _

theorem careful_refResult {x : Act γ Reference} (hx : Careful x) : Careful (refResult x) :=
  hx.before fun _ => .pure _

theorem careful_noResult {x : Act γ Unit} (hx : Careful x) : Careful (noResult x) :=
  hx.before fun _ => .pure _

theorem careful_mismatched : Careful (mismatched : Act γ (List Val)) := (Checks.throw rfl).careful

theorem careful_param {α : Type} {_ : Argument α} {k : α → List Val → Act γ (List Val)}
    (hk : ∀ a args, Careful (k a args)) : ∀ args, Careful (param k args) := by
  intro args
  unfold param
  split
  · exact careful_mismatched
  · split
    · exact hk _ _
    · exact careful_mismatched

theorem careful_done {x : Act γ (List Val)} (hx : Careful x) : ∀ args, Careful (done x args) := by
  intro args
  cases args with
  | nil => exact hx
  | cons v rest => exact careful_mismatched

theorem careful_byteOrder {k : Bool → Act γ (List Val)} (hk : ∀ order, Careful (k order)) :
    ∀ args, Careful (byteOrder k args) := by
  intro args
  unfold byteOrder
  split
  · exact hk _
  · exact hk _
  · exact careful_mismatched

end HostCall

/-- Whether the function runs module or native code. -/
def HostFunc.entersModule : HostFunc → Bool
  | .stringToModule | .stringFromModule _ | .arrayFromModuleList | .typedArrayFromModuleList
  | .callFunction => true
  | _ => false

namespace HostCall

/-- Which machine there is does not matter to a function that runs no code. -/
theorem run_eq_run {f : HostFunc} (hf : f.entersModule = false) (m m' : Machine γ) :
    run m f = run m' f := by
  cases f with
  | stringToModule | stringFromModule | arrayFromModuleList | typedArrayFromModuleList
  | callFunction => cases hf
  | _ => rfl

/-- A call of a function that runs no code is careful, whatever its arguments. -/
theorem careful_run (m : Machine γ) {f : HostFunc} (hf : f.entersModule = false) :
    ∀ args, Careful (run m f args) := by
  cases f with
  | stringToModule | stringFromModule | arrayFromModuleList | typedArrayFromModuleList
  | callFunction => cases hf
  | print => exact careful_param fun _ => careful_done (careful_noResult (careful_print _))
  | dateNow => exact careful_done (careful_numberResult returns_clockMillis.careful)
  | performanceNow => exact careful_done (careful_numberResult returns_clockMillis.careful)
  | globalThis => exact careful_done (careful_refResult returns_globalThis.careful)
  | isWindows => exact careful_done (careful_wordResult (Returns.pure _).careful)
  | setTimeout =>
    exact careful_param fun _ => careful_param fun _ =>
      careful_done (careful_wordResult (careful_scheduleTimer _))
  | setInterval =>
    exact careful_param fun _ => careful_param fun _ =>
      careful_done (careful_wordResult (careful_scheduleTimer _))
  | clearTimeout =>
    exact careful_param fun _ => careful_done (careful_noResult (Returns.modifySession _).careful)
  | clearInterval =>
    exact careful_param fun _ => careful_done (careful_noResult (Returns.modifySession _).careful)
  | queueMicrotask =>
    exact careful_param fun _ => careful_done (careful_noResult (Returns.modifySession _).careful)
  | typeTag =>
    exact careful_param fun _ => careful_done (careful_wordResult (checks_typeTag _).careful)
  | undefined => exact careful_done (careful_refResult (Returns.give _).careful)
  | isUndefined =>
    exact careful_param fun _ => careful_done (careful_wordResult (checks_isUndefined _).careful)
  | identical =>
    exact careful_param fun _ => careful_param fun _ =>
      careful_done (careful_wordResult (checks_identical _ _).careful)
  | boxBool =>
    exact careful_param fun _ => careful_done (careful_refResult (Returns.give _).careful)
  | unboxBool =>
    exact careful_param fun _ => careful_done (careful_wordResult (checks_unboxBool _).careful)
  | boxNumber =>
    exact careful_param fun _ => careful_done (careful_refResult (Returns.give _).careful)
  | unboxNumber =>
    exact careful_param fun _ => careful_done (careful_numberResult (checks_unboxNumber _).careful)
  | toDisplayString =>
    exact careful_param fun _ => careful_done (careful_refResult (careful_toDisplayString _))
  | isError =>
    exact careful_param fun _ => careful_done (careful_wordResult (checks_isError _).careful)
  | errorMessage =>
    exact careful_param fun _ => careful_done (careful_refResult (careful_errorMessage _))
  | decodeUtf8 =>
    exact careful_param fun _ => careful_param fun _ =>
      careful_done (careful_refResult (careful_decodeUtf8 _ _))
  | arrayNew => exact careful_done (careful_refResult (returns_giveArray _).careful)
  | arrayLength =>
    exact careful_param fun _ => careful_done (careful_wordResult (checks_arrayLength _).careful)
  | arrayGet =>
    exact careful_param fun _ => careful_param fun _ =>
      careful_done (careful_refResult (careful_arrayGet _ _))
  | arraySet =>
    exact careful_param fun _ => careful_param fun _ => careful_param fun _ =>
      careful_done (careful_noResult (careful_arraySet _ _ _))
  | arrayPush =>
    exact careful_param fun _ => careful_param fun _ =>
      careful_done (careful_noResult (careful_arrayPush _ _))
  | objectNew => exact careful_done (careful_refResult returns_objectNew.careful)
  | objectGet =>
    exact careful_param fun _ => careful_param fun _ =>
      careful_done (careful_refResult (careful_objectGet _ _))
  | objectSet =>
    exact careful_param fun _ => careful_param fun _ => careful_param fun _ =>
      careful_done (careful_noResult (careful_objectSet _ _ _))
  | objectHas =>
    exact careful_param fun _ => careful_param fun _ =>
      careful_done (careful_wordResult (checks_objectHas _ _).careful)
  | objectDelete =>
    exact careful_param fun _ => careful_param fun _ =>
      careful_done (careful_wordResult (careful_objectDelete _ _))
  | objectKeys =>
    exact careful_param fun _ => careful_done (careful_refResult (careful_objectKeys _))
  | wrapFunction _ =>
    exact careful_param fun _ =>
      careful_done (careful_refResult (returns_wrapFunction _ _).careful)
  | isModuleFunction =>
    exact careful_param fun _ =>
      careful_done (careful_wordResult (checks_isModuleFunction _).careful)
  | unwrapFunction =>
    exact careful_param fun _ => careful_done (careful_wordResult (checks_unwrapFunction _).careful)
  | finalizationRegistryNew =>
    exact careful_param fun _ =>
      careful_done (careful_refResult (careful_finalizationRegistryNew _))
  | finalizationRegister =>
    exact careful_param fun _ => careful_param fun _ => careful_param fun _ => careful_param fun _ =>
      careful_done (careful_noResult (careful_finalizationRegister _ _ _ _))
  | finalizationUnregister =>
    exact careful_param fun _ => careful_param fun _ =>
      careful_done (careful_wordResult (careful_finalizationUnregister _ _))
  | arrayBufferNew =>
    exact careful_param fun _ => careful_done (careful_refResult (careful_arrayBufferNew _))
  | arrayBufferByteLength =>
    exact careful_param fun _ =>
      careful_done (careful_wordResult (checks_arrayBufferByteLength _).careful)
  | typedArrayNew =>
    exact careful_param fun _ => careful_param fun _ =>
      careful_done (careful_refResult (careful_typedArrayNew _ _))
  | typedArrayLength =>
    exact careful_param fun _ =>
      careful_done (careful_wordResult (checks_typedArrayLength _).careful)
  | typedArrayGet =>
    exact careful_param fun _ => careful_param fun _ =>
      careful_done (careful_numberResult (checks_typedArrayGet _ _).careful)
  | typedArraySet =>
    exact careful_param fun _ => careful_param fun _ => careful_param fun _ =>
      careful_done (careful_noResult (careful_typedArraySet _ _ _))
  | typedArrayCopyFromModule =>
    exact careful_param fun _ => careful_param fun _ => careful_param fun _ => careful_param fun _ =>
      careful_done (careful_noResult (careful_typedArrayCopyFromModule _ _ _ _))
  | typedArrayCopyToModule =>
    exact careful_param fun _ => careful_param fun _ => careful_param fun _ => careful_param fun _ =>
      careful_done (careful_noResult (careful_typedArrayCopyToModule _ _ _ _))
  | dataViewNew =>
    exact careful_param fun _ => careful_done (careful_refResult (careful_dataViewNew _))
  | dataViewOf =>
    exact careful_param fun _ => careful_param fun _ => careful_param fun _ =>
      careful_done (careful_refResult (careful_dataViewOf _ _ _))
  | dataViewByteLength =>
    exact careful_param fun _ =>
      careful_done (careful_wordResult (checks_dataViewByteLength _).careful)
  | dataViewCopy =>
    exact careful_param fun _ => careful_param fun _ => careful_param fun _ =>
      careful_done (careful_refResult (careful_dataViewCopy _ _ _))
  | dataViewFromModule =>
    exact careful_param fun _ => careful_param fun _ =>
      careful_done (careful_refResult (careful_dataViewFromModule _ _))
  | dataViewGet _ =>
    exact careful_param fun _ => careful_param fun _ =>
      careful_byteOrder fun _ => (checks_dataViewGet _ _ _ _).careful.before fun _ => .pure _
  | dataViewSet _ =>
    exact careful_param fun _ => careful_param fun _ => careful_param fun _ =>
      careful_byteOrder fun _ => careful_noResult (careful_dataViewSet _ _ _ _ _)

/-- A call of a function that runs no code, with whatever arguments, has changed nothing if it
fails with an error: not the heap, nor the memories, timers, console, closures, releases or anything
else of the session.  The only other failure is a panic, when no timer can be made, and then the
clock has been read. -/
theorem failed_calls_change_nothing (m : Machine γ) {f : HostFunc} (hf : f.entersModule = false)
    {args : List Val} {w w' : World γ} {e : Fault} (hr : run m f args w = .error e w') :
    (e.isError = true → w' = w) ∧ (e.isError = false → e = .panic ∧ w' = w.ticked) := by
  obtain ⟨herror, hw⟩ | ⟨rfl, hw⟩ := careful_run m hf args w w' e hr
  · refine ⟨fun _ => hw, fun hn => ?_⟩
    rw [herror] at hn
    cases hn
  · exact ⟨fun h => absurd h (by decide), fun _ => ⟨rfl, hw⟩⟩

/-- Four bytes where only three are left. -/
def storeBeyond : Act Unit (List Val) :=
  run absentModule (.dataViewSet .int32) [.ref (.host (.dataView laterBytes)), .i32 3, .i32 7]

theorem failed_calls_change_nothing_storeBeyond :
    ((HostFunc.dataViewSet .int32).entersModule = false ∧
      storeBeyond withBytes = .error (.marshal (.outOfBounds 3 4 6)) (final storeBeyond withBytes)) ∧
    final storeBeyond withBytes = withBytes := by
  have hfails : storeBeyond withBytes
      = .error (.marshal (.outOfBounds 3 4 6)) (final storeBeyond withBytes) := rfl
  exact ⟨⟨rfl, hfails⟩, (failed_calls_change_nothing absentModule rfl hfails).1 rfl⟩

end HostCall

end ModuleHost
