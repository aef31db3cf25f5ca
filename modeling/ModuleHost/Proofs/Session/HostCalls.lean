/-
The functions of the host table are put together from steps of the session and calls of the
machine.

Each function is followed by its text; what it changes is a change of the session by the
rules for the heap, or a request to the timers.  `HostCall.patient_run` puts them together: a call
of the host table is orderly and takes nothing out of the queue of timers, whatever its arguments
are, references that no module was ever given included.
-/
import Mathlib
import ModuleHost.Session.HostCalls
import ModuleHost.Proofs.Session.Exchange

namespace ModuleHost

open Act

variable {γ : Type} {m : Machine γ}

namespace HostCall

/-! ### Console, clock and timers -/

theorem patient_print (v : Reference) : Patient m (print v : Act γ Unit) :=
  (Patient.arg v).bind fun _ => Patient.heap.bind fun _ =>
    .modifySession ⟨fun _ => (Session.Change.printed _).evolves, fun _ _ => rfl⟩ fun _ => .refl rfl

/-- Put a timer into the queue of a session. -/
def schedule (put : TimerQueue → Nat → Option (Int32 × TimerQueue)) (instant : Nat) (s : Session) :
    Except Fault (Int32 × Session) :=
  match put s.timers instant with
  | some (handle, timers) => .ok (handle, { s with timers })
  | none => .error .panic

theorem exists_of_schedule_ok {put : TimerQueue → Nat → Option (Int32 × TimerQueue)}
    {instant : Nat} {s : Session} {r : Int32 × Session} (h : schedule put instant s = .ok r) :
    ∃ timer, put s.timers instant = some timer ∧ r = (timer.1, { s with timers := timer.2 }) := by
  unfold schedule at h
  cases hq : put s.timers instant with
  | none => rw [hq] at h; cases h
  | some timer =>
    rw [hq] at h
    cases h
    exact ⟨timer, rfl, rfl⟩

theorem blindStep_schedule {put : TimerQueue → Nat → Option (Int32 × TimerQueue)}
    (hput : ∀ {q now r}, put q now = some r → q.Change r.2) (instant : Nat) :
    Session.BlindStep (schedule put instant) where
  evolves h := by
    obtain ⟨timer, hq, rfl⟩ := exists_of_schedule_ok h
    exact (Session.Change.timers (hput hq)).evolves
  blind s x := by
    show schedule put instant (s.under x) = (schedule put instant s).map _
    unfold schedule
    rw [show (s.under x).timers = s.timers from rfl]
    cases put s.timers instant with
    | none => rfl
    | some timer => rfl

theorem scheduleTimer_eq (put : TimerQueue → Nat → Option (Int32 × TimerQueue)) :
    (scheduleTimer put : Act γ Int32) = now >>= fun instant => step (schedule put instant) := by
  refine bind_congr fun instant => ?_
  funext w
  refine (bind_session _ w).trans ?_
  unfold step schedule
  cases put w.session.timers instant with
  | none => rfl
  | some timer => rfl

theorem patient_scheduleTimer {put : TimerQueue → Nat → Option (Int32 × TimerQueue)}
    (hput : ∀ {q now r}, put q now = some r → q.Change r.2)
    (hask : ∀ {q now r}, put q now = some r → q.Asks r.2) :
    Patient m (scheduleTimer put : Act γ Int32) := by
  rw [scheduleTimer_eq]
  refine Patient.now.bind fun instant => .step (blindStep_schedule hput instant) fun h => ?_
  obtain ⟨timer, hq, rfl⟩ := exists_of_schedule_ok h
  exact hask hq

theorem patient_setTimeout (callback : Int32) (delay : Double) :
    Patient m (setTimeout callback delay : Act γ Int32) :=
  patient_scheduleTimer (fun h => .timeout h) fun h => .timeout h

theorem patient_setInterval (callback : Int32) (period : Double) :
    Patient m (setInterval callback period : Act γ Int32) :=
  patient_scheduleTimer (fun h => .interval h) fun h => .interval h

theorem patient_clearTimer (handle : Int32) : Patient m (clearTimer handle : Act γ Unit) :=
  .modifySession ⟨fun _ => (Session.Change.timers (.cancelled handle)).evolves, fun _ _ => rfl⟩
    fun _ => .single (c := .cancel handle) ⟨⟩

theorem patient_queueMicrotask (callback : Int32) :
    Patient m (queueMicrotask callback : Act γ Unit) :=
  .modifySession ⟨fun _ => (Session.Change.timers (.queued callback)).evolves, fun _ _ => rfl⟩
    fun _ => .single (c := .addMicrotask callback) ⟨⟩

theorem patient_clockMillis : Patient m (clockMillis : Act γ Double) :=
  Patient.now.bind fun _ => .pure _

theorem patient_globalThis : Patient m (globalThis : Act γ Reference) :=
  .read (fun _ _ => rfl) fun _ => .giveStored _

/-! ### Values -/

theorem patient_typeTag (v : Reference) : Patient m (typeTag v : Act γ Int32) :=
  (Patient.arg v).bind fun _ => .pure _

theorem patient_isUndefined (v : Reference) : Patient m (isUndefined v : Act γ Int32) :=
  (Patient.arg v).bind fun _ => .pure _

theorem patient_identical (a b : Reference) : Patient m (identical a b : Act γ Int32) :=
  (Patient.arg a).bind fun _ => (Patient.arg b).bind fun _ => .pure _

theorem patient_unboxBool (v : Reference) : Patient m (unboxBool v : Act γ Int32) :=
  (Patient.arg v).bind fun _ => (Patient.orFail _).bind fun _ => .pure _

theorem patient_unboxNumber (v : Reference) : Patient m (unboxNumber v : Act γ Double) :=
  (Patient.arg v).bind fun _ => .orFail _

theorem patient_toDisplayString (v : Reference) :
    Patient m (toDisplayString v : Act γ Reference) :=
  (Patient.arg v).bind fun _ => Patient.heap.bind fun _ => .give _

theorem patient_isError (v : Reference) : Patient m (isError v : Act γ Int32) := by
  refine (Patient.arg v).bind fun v => ?_
  split
  · exact .pure _
  · exact .pure _

theorem patient_errorMessage (v : Reference) : Patient m (errorMessage v : Act γ Reference) := by
  refine (Patient.arg v).bind fun v => ?_
  split
  · exact Patient.heap.bind fun _ => .give _
  · exact .throw _

/-! ### Strings -/

theorem patient_stringToModule (v : Reference) :
    Patient m (stringToModule m v) :=
  (Patient.arg v).bind fun _ => (Patient.orFail _).bind fun _ =>
    (Patient.sendText _).bind fun _ => .pure _

theorem patient_stringFromModule (handle length : Int32) (width : TextWidth) :
    Patient m (stringFromModule m handle length width) :=
  (Patient.index length).bind fun _ => (Patient.receiveText _).bind fun _ => .give _

theorem patient_decodeUtf8 (address length : Int32) :
    Patient m (decodeUtf8 address length : Act γ Reference) :=
  (Patient.index address).bind fun _ => (Patient.index length).bind fun _ =>
    (Patient.readMemory _ _).bind fun _ => .give _

/-! ### Arrays -/

theorem patient_giveArray (values : List Value) :
    Patient m (giveArray values : Act γ Reference) :=
  (Patient.onHeap fun _ => .newArray values).bind fun _ => .give _

theorem patient_arrayLength (a : Reference) : Patient m (arrayLength a : Act γ Int32) :=
  (Patient.arg a).bind fun _ => (Patient.orFail _).bind fun _ =>
    Patient.heap.bind fun _ => .count _

theorem patient_arrayGet (a : Reference) (i : Int32) :
    Patient m (arrayGet a i : Act γ Reference) :=
  (Patient.arg a).bind fun _ => (Patient.orFail _).bind fun _ =>
    (Patient.index i).bind fun _ => Patient.heap.bind fun _ => .giveStored _

theorem patient_arraySet (a : Reference) (i : Int32) (v : Reference) :
    Patient m (arraySet a i v : Act γ Unit) :=
  (Patient.arg a).bind fun _ => (Patient.orFail _).bind fun id =>
    (Patient.index i).bind fun i => (Patient.arg v).bind fun v =>
      .modifyHeap fun _ => .arraySet id i v

theorem patient_arrayPush (a v : Reference) : Patient m (arrayPush a v : Act γ Unit) :=
  (Patient.arg a).bind fun _ => (Patient.orFail _).bind fun id =>
    (Patient.arg v).bind fun v => .modifyHeap fun _ => .arrayPush id v

theorem patient_arrayFromModuleList (list : Int32) :
    Patient m (arrayFromModuleList m list) :=
  (Patient.receiveList list).bind fun _ => patient_giveArray _

/-! ### Objects -/

theorem patient_objectNew : Patient m (objectNew : Act γ Reference) :=
  (Patient.onHeap fun _ => Heap.Change.newObject.evolves).bind fun _ => .give _

theorem patient_objectGet (o k : Reference) : Patient m (objectGet o k : Act γ Reference) :=
  (Patient.arg o).bind fun _ => (Patient.arg k).bind fun _ =>
    (Patient.orFail _).bind fun _ => (Patient.orFail _).bind fun _ =>
      Patient.heap.bind fun _ => .giveStored _

theorem patient_objectSet (o k v : Reference) : Patient m (objectSet o k v : Act γ Unit) :=
  (Patient.arg k).bind fun _ => (Patient.orFail _).bind fun key =>
    (Patient.arg o).bind fun _ => (Patient.orFail _).bind fun id =>
      (Patient.arg v).bind fun v => .modifyHeap fun _ => .objectSet id key v

theorem patient_objectHas (o k : Reference) : Patient m (objectHas o k : Act γ Int32) :=
  (Patient.arg k).bind fun _ => (Patient.arg o).bind fun _ =>
    (Patient.orFail _).bind fun _ => (Patient.orFail _).bind fun _ =>
      Patient.heap.bind fun _ => .pure _

theorem patient_objectDelete (o k : Reference) : Patient m (objectDelete o k : Act γ Int32) :=
  (Patient.arg k).bind fun _ => (Patient.arg o).bind fun _ =>
    (Patient.orFail _).bind fun id => (Patient.orFail _).bind fun key =>
      Patient.heap.bind fun _ =>
        (Patient.modifyHeap fun _ => .objectDelete id key).bind fun _ => .pure _

theorem patient_objectKeys (o : Reference) : Patient m (objectKeys o : Act γ Reference) :=
  (Patient.arg o).bind fun _ => (Patient.orFail _).bind fun _ =>
    Patient.heap.bind fun _ => patient_giveArray _

/-! ### Functions -/

theorem patient_wrapFunction (closure : Int32) (arity : Nat) :
    Patient m (wrapFunction closure arity : Act γ Reference) :=
  (Patient.onHeap fun _ => (Heap.Change.wrapped .session _).evolves).bind fun _ => .give _

theorem patient_isModuleFunction (v : Reference) :
    Patient m (isModuleFunction v : Act γ Int32) := by
  refine (Patient.arg v).bind fun v => ?_
  split
  · exact .pure _
  · exact .pure _

theorem patient_unwrapFunction (v : Reference) : Patient m (unwrapFunction v : Act γ Int32) := by
  refine (Patient.arg v).bind fun v => ?_
  split
  · exact Patient.heap.bind fun _ => .pure _
  · exact .throw _

theorem patient_argumentList (args : Value) :
    Patient m (argumentList args : Act γ (List Value)) := by
  unfold argumentList
  split
  · exact .pure _
  · exact .pure _
  · exact (Patient.orFail _).bind fun _ => Patient.heap.bind fun _ => .pure _

theorem patient_callFunction (f args : Reference) :
    Patient m (callFunction m f args) :=
  (Patient.arg f).bind fun _ => (Patient.arg args).bind fun _ =>
    (patient_argumentList _).bind fun _ => (Patient.orFail _).bind fun _ =>
      (Patient.applyFunction _ _).bind fun _ => .give _

/-! ### Finalization -/

/-- Make a registry that the session keeps track of. -/
def track (cleanup : FunctionRef) (s : Session) : Except Fault (Nat × Session) :=
  .ok ((s.heap.newRegistry cleanup).1, { s with
    heap := (s.heap.newRegistry cleanup).2
    finalizers := s.finalizers ++ [(s.heap.newRegistry cleanup).1] })

/-- The handle on the cleanup function is taken first; then the registry is made and the
session keeps track of it. -/
theorem blindStep_track (cleanup : FunctionRef) : Session.BlindStep (track cleanup) where
  evolves {s r} h := by
    cases h
    exact (Session.Evolves.ofHeap (.retain (.function cleanup))).trans
      (Session.Change.tracked cleanup).evolves
  blind _ _ := rfl

theorem patient_finalizationRegistryNew (cleanup : Reference) :
    Patient m (finalizationRegistryNew cleanup : Act γ Reference) := by
  have hnew : (finalizationRegistryNew cleanup : Act γ Reference) = (do
      let f ← orFail (← arg cleanup).expectFunction
      let id ← step (track f)
      give (.registry id)) := rfl
  rw [hnew]
  exact (Patient.arg cleanup).bind fun v => (Patient.orFail _).bind fun f =>
    (Patient.step (blindStep_track f) fun h => by cases h; exact .refl rfl).bind fun _ => .give _

theorem patient_finalizationRegister (r target held token : Reference) :
    Patient m (finalizationRegister r target held token : Act γ Unit) := by
  refine (Patient.arg r).bind fun r => (Patient.arg token).bind fun token => ?_
  have hrest : ∀ token : Option Value, Patient m (do
      let id ← orFail r.expectRegistry
      let target ← arg target
      let held ← arg held
      tryChange fun h => h.register id target held token : Act γ Unit) := fun _ =>
    (Patient.orFail _).bind fun _ => (Patient.arg target).bind fun _ =>
      (Patient.arg held).bind fun _ => .tryChange .register
  split
  · exact hrest none
  · exact hrest _

theorem patient_finalizationUnregister (r token : Reference) :
    Patient m (finalizationUnregister r token : Act γ Int32) :=
  (Patient.arg r).bind fun _ => (Patient.orFail _).bind fun _ =>
    (Patient.arg token).bind fun _ =>
      (Patient.tryHeap fun h => .unregister h).bind fun _ => .pure _

/-! ### Buffers and typed arrays -/

theorem patient_arrayBufferNew (length : Int32) :
    Patient m (arrayBufferNew length : Act γ Reference) :=
  (Patient.index length).bind fun _ =>
    (Patient.onHeap fun _ => (Heap.Change.newBuffer _).evolves).bind fun _ => .give _

theorem patient_arrayBufferByteLength (b : Reference) :
    Patient m (arrayBufferByteLength b : Act γ Int32) :=
  (Patient.arg b).bind fun _ => (Patient.orFail _).bind fun _ =>
    Patient.heap.bind fun _ => .count _

theorem patient_elementOfTag (tag : Int32) : Patient m (elementOfTag tag : Act γ Element) := by
  unfold elementOfTag
  split
  · exact .pure _
  · exact .throw _

theorem patient_typedArrayNew (tag length : Int32) :
    Patient m (typedArrayNew tag length : Act γ Reference) :=
  (patient_elementOfTag tag).bind fun e => (Patient.index length).bind fun length =>
    (Patient.onHeap fun _ => .newTypedArray e length).bind fun _ => .give _

theorem patient_typedArrayLength (a : Reference) :
    Patient m (typedArrayLength a : Act γ Int32) :=
  (Patient.arg a).bind fun _ => (Patient.orFail _).bind fun _ => .count _

theorem patient_typedArrayGet (a : Reference) (i : Int32) :
    Patient m (typedArrayGet a i : Act γ Double) := by
  refine (Patient.arg a).bind fun _ => (Patient.orFail _).bind fun v =>
    (Patient.index i).bind fun i => Patient.heap.bind fun h => ?_
  split
  · exact .pure _
  · exact .throw _

theorem patient_typedArraySet (a : Reference) (i : Int32) (x : Double) :
    Patient m (typedArraySet a i x : Act γ Unit) :=
  (Patient.arg a).bind fun _ => (Patient.orFail _).bind fun _ =>
    (Patient.index i).bind fun _ => .tryChange .setElement

theorem patient_typedArrayCopyFromModule (a : Reference) (start length address : Int32) :
    Patient m (typedArrayCopyFromModule a start length address : Act γ Unit) :=
  (Patient.arg a).bind fun _ => (Patient.orFail _).bind fun _ =>
    (Patient.index start).bind fun _ => (Patient.index length).bind fun _ =>
      (Patient.index address).bind fun _ => .receiveElements _ _ _ _

theorem patient_typedArrayCopyToModule (a : Reference) (start length address : Int32) :
    Patient m (typedArrayCopyToModule a start length address : Act γ Unit) :=
  (Patient.arg a).bind fun _ => (Patient.orFail _).bind fun _ =>
    (Patient.index start).bind fun _ => (Patient.index length).bind fun _ =>
      (Patient.index address).bind fun _ => .sendElements _ _ _ _

theorem patient_typedArrayFromModuleList (tag list : Int32) :
    Patient m (typedArrayFromModuleList m tag list) :=
  (patient_elementOfTag tag).bind fun e => (Patient.receiveNumbers list).bind fun numbers =>
    (Patient.onHeap fun _ => .typedArrayOf e numbers).bind fun _ => .give _

/-! ### Data views -/

theorem patient_dataViewNew (length : Int32) :
    Patient m (dataViewNew length : Act γ Reference) :=
  (Patient.index length).bind fun _ =>
    (Patient.onHeap fun _ => .newDataView _).bind fun _ => .give _

theorem patient_dataViewOf (b : Reference) (offset length : Int32) :
    Patient m (dataViewOf b offset length : Act γ Reference) :=
  (Patient.arg b).bind fun _ => (Patient.orFail _).bind fun _ =>
    (Patient.index offset).bind fun _ => (Patient.index length).bind fun _ =>
      (Patient.tryHeap fun h => .byteWindow h).bind fun _ => .give _

theorem patient_dataViewByteLength (v : Reference) :
    Patient m (dataViewByteLength v : Act γ Int32) :=
  (Patient.arg v).bind fun _ => (Patient.orFail _).bind fun _ => .count _

theorem patient_dataViewCopy (v : Reference) (offset length : Int32) :
    Patient m (dataViewCopy v offset length : Act γ Reference) :=
  (Patient.arg v).bind fun _ => (Patient.orFail _).bind fun _ =>
    (Patient.index offset).bind fun _ => (Patient.index length).bind fun _ =>
      (Patient.tryHeap fun h => .copyView h).bind fun _ => .give _

theorem patient_dataViewFromModule (address length : Int32) :
    Patient m (dataViewFromModule address length : Act γ Reference) :=
  (Patient.index address).bind fun _ => (Patient.index length).bind fun _ =>
    (Patient.readMemory _ _).bind fun _ =>
      (Patient.onHeap fun _ => .newDataView _).bind fun _ => .give _

theorem patient_dataViewGet (t : Scalar) (v : Reference) (offset : Int32) (littleEndian : Bool) :
    Patient m (dataViewGet t v offset littleEndian : Act γ Val) :=
  (Patient.arg v).bind fun _ => (Patient.orFail _).bind fun _ =>
    (Patient.index offset).bind fun _ => Patient.heap.bind fun _ =>
      (Patient.orFail _).bind fun _ => .pure _

theorem patient_dataViewSet (t : Scalar) (v : Reference) (offset : Int32) (x : Val)
    (littleEndian : Bool) : Patient m (dataViewSet t v offset x littleEndian : Act γ Unit) :=
  (Patient.arg v).bind fun _ => (Patient.orFail _).bind fun _ =>
    (Patient.index offset).bind fun _ => .tryChange .writeScalar

/-! ### The table -/

theorem patient_wordResult {x : Act γ Int32} (hx : Patient m x) : Patient m (wordResult x) :=
  hx.bind fun _ => .pure _

theorem patient_numberResult {x : Act γ Double} (hx : Patient m x) :
    Patient m (numberResult x) := hx.bind fun _ => .pure _

theorem patient_refResult {x : Act γ Reference} (hx : Patient m x) : Patient m (refResult x) :=
  hx.bind fun _ => .pure _

theorem patient_noResult {x : Act γ Unit} (hx : Patient m x) : Patient m (noResult x) :=
  hx.bind fun _ => .pure _

theorem patient_param {α : Type} {_ : Argument α} {k : α → List Val → Act γ (List Val)}
    (hk : ∀ a args, Patient m (k a args)) : ∀ args, Patient m (param k args) := by
  intro args
  unfold param
  split
  · exact .throw _
  · split
    · exact hk _ _
    · exact .throw _

theorem patient_done {x : Act γ (List Val)} (hx : Patient m x) : ∀ args, Patient m (done x args) := by
  intro args
  cases args with
  | nil => exact hx
  | cons v rest => exact .throw _

theorem patient_byteOrder {k : Bool → Act γ (List Val)} (hk : ∀ order, Patient m (k order)) :
    ∀ args, Patient m (byteOrder k args) := by
  intro args
  unfold byteOrder
  split
  · exact hk _
  · exact hk _
  · exact .throw _

/-- A call of the host table is orderly and takes nothing out of the queue of timers, whatever its
arguments. -/
theorem patient_run (f : HostFunc) : ∀ args, Patient m (run m f args) := by
  cases f with
  | print => exact patient_param fun _ => patient_done (patient_noResult (patient_print _))
  | dateNow => exact patient_done (patient_numberResult patient_clockMillis)
  | performanceNow => exact patient_done (patient_numberResult patient_clockMillis)
  | globalThis => exact patient_done (patient_refResult patient_globalThis)
  | isWindows => exact patient_done (patient_wordResult (.pure _))
  | setTimeout =>
    exact patient_param fun _ => patient_param fun _ =>
      patient_done (patient_wordResult (patient_setTimeout _ _))
  | setInterval =>
    exact patient_param fun _ => patient_param fun _ =>
      patient_done (patient_wordResult (patient_setInterval _ _))
  | clearTimeout =>
    exact patient_param fun _ => patient_done (patient_noResult (patient_clearTimer _))
  | clearInterval =>
    exact patient_param fun _ => patient_done (patient_noResult (patient_clearTimer _))
  | queueMicrotask =>
    exact patient_param fun _ => patient_done (patient_noResult (patient_queueMicrotask _))
  | typeTag =>
    exact patient_param fun _ => patient_done (patient_wordResult (patient_typeTag _))
  | undefined => exact patient_done (patient_refResult (.give _))
  | isUndefined =>
    exact patient_param fun _ => patient_done (patient_wordResult (patient_isUndefined _))
  | identical =>
    exact patient_param fun _ => patient_param fun _ =>
      patient_done (patient_wordResult (patient_identical _ _))
  | boxBool => exact patient_param fun _ => patient_done (patient_refResult (.give _))
  | unboxBool =>
    exact patient_param fun _ => patient_done (patient_wordResult (patient_unboxBool _))
  | boxNumber => exact patient_param fun _ => patient_done (patient_refResult (.give _))
  | unboxNumber =>
    exact patient_param fun _ => patient_done (patient_numberResult (patient_unboxNumber _))
  | toDisplayString =>
    exact patient_param fun _ => patient_done (patient_refResult (patient_toDisplayString _))
  | isError =>
    exact patient_param fun _ => patient_done (patient_wordResult (patient_isError _))
  | errorMessage =>
    exact patient_param fun _ => patient_done (patient_refResult (patient_errorMessage _))
  | stringToModule =>
    exact patient_param fun _ => patient_done (patient_wordResult (patient_stringToModule _))
  | stringFromModule _ =>
    exact patient_param fun _ => patient_param fun _ =>
      patient_done (patient_refResult (patient_stringFromModule _ _ _))
  | decodeUtf8 =>
    exact patient_param fun _ => patient_param fun _ =>
      patient_done (patient_refResult (patient_decodeUtf8 _ _))
  | arrayNew => exact patient_done (patient_refResult (patient_giveArray _))
  | arrayLength =>
    exact patient_param fun _ => patient_done (patient_wordResult (patient_arrayLength _))
  | arrayGet =>
    exact patient_param fun _ => patient_param fun _ =>
      patient_done (patient_refResult (patient_arrayGet _ _))
  | arraySet =>
    exact patient_param fun _ => patient_param fun _ => patient_param fun _ =>
      patient_done (patient_noResult (patient_arraySet _ _ _))
  | arrayPush =>
    exact patient_param fun _ => patient_param fun _ =>
      patient_done (patient_noResult (patient_arrayPush _ _))
  | arrayFromModuleList =>
    exact patient_param fun _ => patient_done (patient_refResult (patient_arrayFromModuleList _))
  | objectNew => exact patient_done (patient_refResult patient_objectNew)
  | objectGet =>
    exact patient_param fun _ => patient_param fun _ =>
      patient_done (patient_refResult (patient_objectGet _ _))
  | objectSet =>
    exact patient_param fun _ => patient_param fun _ => patient_param fun _ =>
      patient_done (patient_noResult (patient_objectSet _ _ _))
  | objectHas =>
    exact patient_param fun _ => patient_param fun _ =>
      patient_done (patient_wordResult (patient_objectHas _ _))
  | objectDelete =>
    exact patient_param fun _ => patient_param fun _ =>
      patient_done (patient_wordResult (patient_objectDelete _ _))
  | objectKeys =>
    exact patient_param fun _ => patient_done (patient_refResult (patient_objectKeys _))
  | wrapFunction _ =>
    exact patient_param fun _ => patient_done (patient_refResult (patient_wrapFunction _ _))
  | isModuleFunction =>
    exact patient_param fun _ => patient_done (patient_wordResult (patient_isModuleFunction _))
  | unwrapFunction =>
    exact patient_param fun _ => patient_done (patient_wordResult (patient_unwrapFunction _))
  | callFunction =>
    exact patient_param fun _ => patient_param fun _ =>
      patient_done (patient_refResult (patient_callFunction _ _))
  | finalizationRegistryNew =>
    exact patient_param fun _ =>
      patient_done (patient_refResult (patient_finalizationRegistryNew _))
  | finalizationRegister =>
    exact patient_param fun _ => patient_param fun _ => patient_param fun _ => patient_param fun _ =>
        patient_done (patient_noResult (patient_finalizationRegister _ _ _ _))
  | finalizationUnregister =>
    exact patient_param fun _ => patient_param fun _ =>
      patient_done (patient_wordResult (patient_finalizationUnregister _ _))
  | arrayBufferNew =>
    exact patient_param fun _ => patient_done (patient_refResult (patient_arrayBufferNew _))
  | arrayBufferByteLength =>
    exact patient_param fun _ => patient_done (patient_wordResult (patient_arrayBufferByteLength _))
  | typedArrayNew =>
    exact patient_param fun _ => patient_param fun _ =>
      patient_done (patient_refResult (patient_typedArrayNew _ _))
  | typedArrayLength =>
    exact patient_param fun _ => patient_done (patient_wordResult (patient_typedArrayLength _))
  | typedArrayGet =>
    exact patient_param fun _ => patient_param fun _ =>
      patient_done (patient_numberResult (patient_typedArrayGet _ _))
  | typedArraySet =>
    exact patient_param fun _ => patient_param fun _ => patient_param fun _ =>
      patient_done (patient_noResult (patient_typedArraySet _ _ _))
  | typedArrayCopyFromModule =>
    exact patient_param fun _ => patient_param fun _ => patient_param fun _ => patient_param fun _ =>
        patient_done (patient_noResult (patient_typedArrayCopyFromModule _ _ _ _))
  | typedArrayCopyToModule =>
    exact patient_param fun _ => patient_param fun _ => patient_param fun _ => patient_param fun _ =>
        patient_done (patient_noResult (patient_typedArrayCopyToModule _ _ _ _))
  | typedArrayFromModuleList =>
    exact patient_param fun _ => patient_param fun _ =>
      patient_done (patient_refResult (patient_typedArrayFromModuleList _ _))
  | dataViewNew =>
    exact patient_param fun _ => patient_done (patient_refResult (patient_dataViewNew _))
  | dataViewOf =>
    exact patient_param fun _ => patient_param fun _ => patient_param fun _ =>
      patient_done (patient_refResult (patient_dataViewOf _ _ _))
  | dataViewByteLength =>
    exact patient_param fun _ => patient_done (patient_wordResult (patient_dataViewByteLength _))
  | dataViewCopy =>
    exact patient_param fun _ => patient_param fun _ => patient_param fun _ =>
      patient_done (patient_refResult (patient_dataViewCopy _ _ _))
  | dataViewFromModule =>
    exact patient_param fun _ => patient_param fun _ =>
      patient_done (patient_refResult (patient_dataViewFromModule _ _))
  | dataViewGet _ =>
    exact patient_param fun _ => patient_param fun _ =>
      patient_byteOrder fun _ => (patient_dataViewGet _ _ _ _).bind fun _ => .pure _
  | dataViewSet _ =>
    exact patient_param fun _ => patient_param fun _ => patient_param fun _ =>
      patient_byteOrder fun _ => patient_noResult (patient_dataViewSet _ _ _ _ _)

theorem orderly_run (f : HostFunc) (args : List Val) : Orderly m (run m f args) :=
  (patient_run f args).orderly

end HostCall

open HostCall

/-- A call of a string builtin is orderly and takes nothing out of the queue of timers. -/
theorem TextBuiltin.patient_run (b : TextBuiltin) (args : List Val) :
    Patient m (b.run args : Act γ (List Val)) := by
  unfold TextBuiltin.run
  split
  · exact patient_refResult ((Patient.orFail _).bind fun _ => .give _)
  · refine patient_wordResult ((Patient.arg _).bind fun v => ?_)
    split
    · exact .pure _
    · exact .pure _
  · exact patient_refResult (.give _)
  · exact patient_refResult ((Patient.orFail _).bind fun _ => .give _)
  · exact patient_wordResult ((Patient.orFail _).bind fun _ =>
      (Patient.orFail _).bind fun _ => .pure _)
  · exact patient_wordResult ((Patient.orFail _).bind fun _ =>
      (Patient.orFail _).bind fun _ => .pure _)
  · exact patient_wordResult ((Patient.orFail _).bind fun _ => .pure _)
  · exact patient_refResult ((Patient.orFail _).bind fun _ =>
      (Patient.orFail _).bind fun _ => .give _)
  · exact patient_refResult ((Patient.orFail _).bind fun _ => .give _)
  · exact patient_wordResult ((Patient.arg _).bind fun _ => (Patient.arg _).bind fun _ =>
      (Patient.orFail _).bind fun _ => .pure _)
  · exact patient_wordResult ((Patient.orFail _).bind fun _ =>
      (Patient.orFail _).bind fun _ => .pure _)
  · exact .throw _

theorem TextBuiltin.orderly_run (b : TextBuiltin) (args : List Val) :
    Orderly m (b.run args : Act γ (List Val)) := (b.patient_run args).orderly

end ModuleHost
