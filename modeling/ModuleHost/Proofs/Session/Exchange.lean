/-
What the host does through the exports of a module is put together from steps of the session, none
of which takes anything out of the queue of timers, and calls of the machine.
-/
import Mathlib
import ModuleHost.Session.Exchange
import ModuleHost.Proofs.Session.Patient

namespace ModuleHost.Act

variable {γ : Type} {m : Machine γ}

/-! ### Calling exports -/

theorem Patient.checkCall (t : FuncType) (args : List Val) (results : Nat) :
    Patient m (checkCall t args results : Act γ Unit) := by
  unfold ModuleHost.checkCall
  split
  · exact .unless (.unless (.throw _))
  · exact .unless (.unless (.pure _))

theorem Patient.crossArg (v : Val) : Patient m (crossArg v : Act γ Unit) := by
  unfold ModuleHost.crossArg
  split
  · exact (Patient.modifyHeap fun _ => .retain _).bind fun _ => .cross _
  · exact .pure _

theorem Patient.callFunc (f : Func) (args : List Val) (results : Nat) :
    Patient m (callFunc m f args results) :=
  (Patient.checkCall _ _ _).bind fun _ =>
    (Patient.forM Patient.crossArg args).bind fun _ => .call f args

theorem Patient.callAny (f : Func) (args : List Val) : Patient m (callAny m f args) :=
  .callFunc f args _

theorem Patient.primary : Patient m (primary : Act γ Instance) := by
  refine .read (fun _ _ => rfl) fun s => ?_
  cases s.primary with
  | none => exact .throw _
  | some i => exact .pure i

theorem Patient.lookupExport (name : String) :
    Patient m (lookupExport name : Act γ (Option Func)) :=
  Patient.primary.bind fun _ => .pure _

theorem Patient.requireExport (name : String) : Patient m (requireExport name : Act γ Func) := by
  refine (Patient.lookupExport name).bind fun f => ?_
  cases f with
  | none => exact .throw _
  | some f => exact .pure f

theorem Patient.requireMemory : Patient m (requireMemory : Act γ Nat) := by
  refine .read (fun _ _ => rfl) fun s => ?_
  cases s.memory with
  | none => exact .throw _
  | some id => exact .pure id

theorem Patient.callForInt (f : Func) (name : String) (args : List Val) :
    Patient m (callForInt m f name args) := by
  refine (Patient.callFunc f args 1).bind fun r => ?_
  split
  · exact .pure _
  · exact .throw _

/-! ### Strings and lists -/

theorem Patient.writeUnits (write : Func) (handle : Int32) (units : List UInt16) :
    ∀ i, Patient m (writeUnits m write handle i units) := by
  induction units with
  | nil => exact fun _ => .pure _
  | cons u rest ih =>
    exact fun i => (Patient.count i).bind fun _ =>
      (Patient.callFunc write _ 0).bind fun _ => ih (i + 1)

theorem Patient.sendText (s : Text) : Patient m (sendText m s) := by
  unfold ModuleHost.sendText
  refine .ite_bind (.lookupExport _) (.pure _) fun fast => ?_
  cases fast with
  | some f => exact (Patient.callForInt f _ _).bind fun _ => .pure _
  | none =>
    exact (Patient.requireExport _).bind fun allocate =>
      (Patient.requireExport _).bind fun write => (Patient.count _).bind fun _ =>
        (Patient.callForInt allocate _ _).bind fun handle =>
          (Patient.writeUnits write handle _ 0).bind fun _ => .pure _

theorem Patient.readUnits (read : Func) (name : String) (handle : Int32) (n : Nat) :
    ∀ i, Patient m (readUnits m read name handle i n) := by
  induction n with
  | zero => exact fun _ => .pure _
  | succ n ih =>
    exact fun i => (Patient.count i).bind fun _ =>
      (Patient.callForInt read name _).bind fun _ => (ih (i + 1)).bind fun _ => .pure _

theorem Patient.readChunks (read : Func) (name : String) (handle : Int32) (fuel : Nat) :
    ∀ i n, Patient m (readChunks m read name handle fuel i n) := by
  induction fuel with
  | zero => exact fun _ _ => .pure _
  | succ fuel ih =>
    intro i n
    refine .ite (.pure _) ?_
    exact (Patient.readUnits read name handle _ i).bind fun _ => (ih _ _).bind fun _ => .pure _

theorem Patient.receiveText (s : ModuleText) : Patient m (receiveText m s) := by
  refine .ite (.pure _) ?_
  exact (Patient.requireExport _).bind fun read =>
    (Patient.readChunks read _ _ _ 0 _).bind fun _ => .pure _

theorem Patient.readItems (read : Func) (list : Int32) (n : Nat) :
    ∀ i, Patient m (readItems m read list i n) := by
  induction n with
  | zero => exact fun _ => .pure _
  | succ n ih =>
    intro i
    refine (Patient.callFunc read _ 1).bind fun r => ?_
    split
    · exact (Patient.arg _).bind fun _ => (ih (i + 1)).bind fun _ => .pure _
    · exact .throw _

theorem Patient.receiveList (list : Int32) : Patient m (receiveList m list) :=
  (Patient.requireExport _).bind fun length => (Patient.requireExport _).bind fun read =>
    (Patient.callForInt length _ _).bind fun _ => .readItems read list _ 0

theorem Patient.receiveNumbers (list : Int32) : Patient m (receiveNumbers m list) :=
  (Patient.receiveList list).bind fun vs => .mapM (fun _ => .orFail _) vs

/-! ### Memory -/

theorem Patient.readMemory (address length : Nat) :
    Patient m (readMemory address length : Act γ (List UInt8)) :=
  Patient.requireMemory.bind fun id => (Patient.memoryAt id).bind fun _ => .orFail _

theorem Patient.writeMemory (address : Nat) (bytes : List UInt8) :
    Patient m (writeMemory address bytes : Act γ Unit) :=
  Patient.requireMemory.bind fun id => (Patient.memoryAt id).bind fun _ =>
    (Patient.orFail _).bind fun _ => .setMemory id _

theorem Patient.sendElements (v : TypedView) (start count address : Nat) :
    Patient m (sendElements v start count address : Act γ Unit) :=
  Patient.heap.bind fun _ => (Patient.orFail _).bind fun _ => .writeMemory _ _

theorem Patient.receiveElements (v : TypedView) (start count address : Nat) :
    Patient m (receiveElements v start count address : Act γ Unit) := by
  unfold ModuleHost.receiveElements
  refine .unless ?_
  exact (Patient.readMemory _ _).bind fun _ => .tryChange .setElementBytes

/-! ### Functions -/

theorem Patient.callWrapper (w : Wrapper) (args : List Value) :
    Patient m (callWrapper m w args) := by
  unfold ModuleHost.callWrapper
  refine .unless ?_
  refine (Patient.requireExport _).bind fun f => (Patient.callFunc f _ 1).bind fun r => ?_
  split
  · exact .arg _
  · exact .throw _

theorem Patient.applyFunction (f : FunctionRef) (args : List Value) :
    Patient m (applyFunction m f args) := by
  refine .keeping _ ?_
  cases f with
  | native id => exact .native id args
  | wrapper k id =>
    exact Patient.heap.bind fun h => (Patient.callWrapper _ args).bind fun result =>
      (Patient.modifyHeap fun _ => .retain result).bind fun _ => .pure _

theorem Patient.runCallback (callback : Int32) : Patient m (runCallback m callback) :=
  (Patient.requireExport _).bind fun f => (Patient.callFunc f _ 0).bind fun _ => .pure _

/-! ### Releases and cleanup calls -/

theorem Patient.announceEach (f : Func) (closures : List Int32) :
    Patient m (announceEach m f closures) := by
  induction closures with
  | nil => exact .pure _
  | cons c rest ih => exact (Patient.callFunc f _ 0).bind fun _ => ih

theorem Patient.announceOrphans : Patient m (announceOrphans m) := by
  refine Patient.sweep.bind fun _ => ?_
  refine (Patient.onHeap fun _ => (Heap.Change.taken .session).evolves).bind fun ids => ?_
  refine .ite (.pure _) ((Patient.lookupExport _).bind fun f => ?_)
  cases f with
  | none => exact .pure _
  | some f => exact (Patient.announceEach f ids).bind fun _ => .pure _

theorem Patient.cleanupEach (due : List Heap.DueCleanup) : Patient m (cleanupEach m due) := by
  induction due with
  | nil => exact .pure _
  | cons d rest ih =>
    exact (Patient.applyFunction d.cleanup _).bind fun _ =>
      (Patient.modifyHeap fun _ => .release _).bind fun _ => ih

/-- Forget registries that are gone, and keep the others. -/
def prune (s : Session) : Except Fault (List ℕ × Session) :=
  let live := s.finalizers.filter s.heap.registries.isLive
  .ok (live, { s with finalizers := live })

theorem blindStep_prune : Session.BlindStep prune where
  evolves h := by
    cases h
    exact Session.Change.pruned.evolves
  blind _ _ := rfl

theorem Patient.runCleanups : Patient m (runCleanups m) := by
  have hprune : ModuleHost.runCleanups m = (do
      Act.sweep
      let live ← Act.step prune
      let due ← Act.onHeap fun h => h.collectAll live
      Act.holding (due.flatMap Heap.DueCleanup.values) do
        ModuleHost.cleanupEach m due
        return due.length) := rfl
  rw [hprune]
  have hstep : Patient m (Act.step prune) := .step blindStep_prune fun h => by
    cases h
    exact .refl rfl
  exact Patient.sweep.bind fun _ => hstep.bind fun live =>
    (Patient.onHeap fun _ => .collectAll live).bind fun due =>
      .holding _ ((Patient.cleanupEach due).bind fun _ => .pure _)

/-! ### Passes are orderly -/

theorem Orderly.callFunc (f : Func) (args : List Val) (results : Nat) :
    Orderly m (callFunc m f args results) := (Patient.callFunc f args results).orderly

theorem Orderly.announceEach (f : Func) (closures : List Int32) :
    Orderly m (announceEach m f closures) := (Patient.announceEach f closures).orderly

theorem Orderly.announceOrphans : Orderly m (announceOrphans m) := Patient.announceOrphans.orderly

theorem Orderly.cleanupEach (due : List Heap.DueCleanup) : Orderly m (cleanupEach m due) :=
  (Patient.cleanupEach due).orderly

end ModuleHost.Act
