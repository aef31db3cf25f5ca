/-
The single changes that everything a session does is made of.

Whatever runs in a session, whether driven by the embedder or called by a module, changes it
only by a few kinds of small steps: a handle more or less, a fresh payload, a stored
content, a timer.  `Heap.Change` and `Session.Change` list them, and an evolution is any number
of them in a row.

* `Heap.Evolves.release` and its neighbours — the operations of the heap are evolutions;
* `Session.Evolves.keeps` — what every single change keeps, every evolution keeps;
* `Session.Reachable` — a session that has evolved from a new one.

Design notes: changes are finer than the operations that code can ask for, so a session may
evolve in more ways than any module can make it.  What is proved of all evolutions holds
for every module, and later proofs look at one change at a time and never at the code.
-/
import Mathlib
import ModuleHost.Heap.Containers
import ModuleHost.Heap.Watch
import ModuleHost.Heap.Windows
import ModuleHost.Session.Load

namespace ModuleHost

/-- What a computation with a result went through. -/
theorem exists_of_bind_eq_ok {ε α β : Type} {x : Except ε α} {f : α → Except ε β} {b : β}
    (h : (x >>= f) = .ok b) : ∃ a, x = .ok a ∧ f a = .ok b := by
  cases x with
  | error e => exact absurd h (by simp [bind, Except.bind])
  | ok a => exact ⟨a, rfl, h⟩

/-! ### The heap -/

namespace Heap

/-- One change of a heap. -/
inductive Change (h : Heap) : Heap → Prop
  | retained (t : Target) : Change h (h.retainTarget t)
  | released (t : Target) : Change h (h.releaseTarget t).2
  | newBuffer (contents : ByteStore) : Change h (h.newBuffer contents).2
  | newArray (values : List Value) : Change h { h with arrays := (h.arrays.alloc values).2 }
  | newObject : Change h h.newObject.2
  | newNative (f : NativeFunction) : Change h { h with natives := (h.natives.alloc f).2 }
  | newError (f : Failure) : Change h (h.newError f).2
  | newModule (name : String) : Change h (h.newModule name).2
  | newRegistry (cleanup : FunctionRef) :
      Change h { h with registries := (h.registries.alloc ⟨cleanup, []⟩).2 }
  | wrapped (k : Keeper) (w : Wrapper) : Change h (h.wrap k w).2
  | taken (k : Keeper) : Change h (h.takeOrphans k).2
  | elements (array : Nat) (values : List Value) : Change h (h.setElements array values)
  | properties (object : Nat) (props : List (Text × Value)) :
      Change h (h.setProperties object props)
  /-- The bytes of a buffer change, its size does not. -/
  | contents (buffer : Nat) (contents : ByteStore) (size : contents.size = h.byteLength buffer) :
      Change h (h.setContents buffer contents)
  | watched (registry : Nat) (cell : WatchCell) :
      Change h (h.setWatchCells registry (h.watchCells registry ++ [cell]))
  | unwatched (registry : Nat) (token : Target) :
      Change h (h.setWatchCells registry
        ((h.watchCells registry).filter (·.token ≠ some token)))
  | collected (registry : Nat) : Change h (h.collect registry).2

/-- Any number of changes in a row. -/
def Evolves : Heap → Heap → Prop := Relation.ReflTransGen Change

variable {h h' h'' : Heap}

theorem Change.evolves (hc : Change h h') : h.Evolves h' := Relation.ReflTransGen.single hc

theorem Evolves.refl : h.Evolves h := Relation.ReflTransGen.refl

theorem Evolves.trans (h₁ : h.Evolves h') (h₂ : h'.Evolves h'') : h.Evolves h'' :=
  Relation.ReflTransGen.trans h₁ h₂

/-- What every change keeps, every evolution keeps. -/
theorem Evolves.keeps {P : Heap → Prop} (hev : h.Evolves h')
    (hstep : ∀ {a b : Heap}, a.Change b → P a → P b) (hp : P h) : P h' := by
  induction hev with
  | refl => exact hp
  | tail _ hc ih => exact hstep hc ih

theorem Change.littleEndian_eq (hc : Change h h') : h'.littleEndian = h.littleEndian := by
  have hclosures (k : Keeper) (c : Closures) :
      (h.setClosures k c).littleEndian = h.littleEndian := by cases k <;> rfl
  have hcells (r : ℕ) (cells : List WatchCell) :
      (h.setWatchCells r cells).littleEndian = h.littleEndian := by
    unfold setWatchCells
    split <;> rfl
  cases hc with
  | retained t => rcases t with _ | _ | _ | (_ | _) | _ | _ | _ <;> first | rfl | exact hclosures _ _
  | released t => rcases t with _ | _ | _ | (_ | _) | _ | _ | _ <;> first | rfl | exact hclosures _ _
  | wrapped k w => exact hclosures k _
  | taken k => exact hclosures k _
  | watched r cell => exact hcells r _
  | unwatched r token => exact hcells r _
  | collected r => exact hcells r _
  | _ => rfl

theorem Evolves.littleEndian_eq (hev : h.Evolves h') : h'.littleEndian = h.littleEndian :=
  hev.keeps (P := fun a => a.littleEndian = h.littleEndian)
    (fun hc ih => hc.littleEndian_eq.trans ih) rfl

/-! #### Handles -/

/-- What one handle more keeps, retaining keeps. -/
theorem retain_keeps {P : Heap → Prop} (hstep : ∀ {a : Heap} (t : Target), P a → P (a.retainTarget t))
    (v : Value) (hp : P h) : P (h.retain v) := by
  unfold Heap.retain
  split
  · exact hstep _ hp
  · exact hp

theorem retainAll_keeps {P : Heap → Prop}
    (hstep : ∀ {a : Heap} (t : Target), P a → P (a.retainTarget t)) (vs : List Value) :
    ∀ {h : Heap}, P h → P (h.retainAll vs) := by
  induction vs with
  | nil => exact fun hp => hp
  | cons v rest ih => exact fun hp => ih (retain_keeps hstep v hp)

/-- What one handle less keeps, releasing keeps, whatever is freed on the way. -/
theorem release_keeps {P : Heap → Prop}
    (hstep : ∀ {a : Heap} (t : Target), P a → P (a.releaseTarget t).2) (v : Value) (hp : P h) :
    P (h.release v) := by
  have hone : ∀ {a : Heap} (w : Value), P a → P (a.releaseOne w).2 := by
    intro a w ha
    unfold releaseOne
    split
    · exact hstep _ ha
    · exact ha
  have hwith : ∀ (fuel : ℕ) {a : Heap} (ws : List Value), P a → P (releaseWith fuel a ws) := by
    intro fuel
    induction fuel with
    | zero => exact fun _ ha => ha
    | succ fuel ih =>
      intro a ws ha
      cases ws with
      | nil => exact ha
      | cons w rest => exact ih _ (hone w ha)
  have hfirst := hone v hp
  unfold Heap.release
  split
  · rename_i hr
    rwa [hr] at hfirst
  · rename_i hr
    rw [hr] at hfirst
    exact hwith _ _ hfirst

theorem releaseAll_keeps {P : Heap → Prop}
    (hstep : ∀ {a : Heap} (t : Target), P a → P (a.releaseTarget t).2) (vs : List Value) :
    ∀ {h : Heap}, P h → P (h.releaseAll vs) := by
  induction vs with
  | nil => exact fun hp => hp
  | cons v rest ih => exact fun hp => ih (release_keeps hstep v hp)

theorem Evolves.retain (v : Value) : h.Evolves (h.retain v) :=
  retain_keeps (fun t hev => hev.tail (.retained t)) v .refl

theorem Evolves.retainAll (vs : List Value) : h.Evolves (h.retainAll vs) :=
  retainAll_keeps (fun t hev => hev.tail (.retained t)) vs .refl

theorem Evolves.release (v : Value) : h.Evolves (h.release v) :=
  release_keeps (fun t hev => hev.tail (.released t)) v .refl

theorem Evolves.releaseAll (vs : List Value) : h.Evolves (h.releaseAll vs) :=
  releaseAll_keeps (fun t hev => hev.tail (.released t)) vs .refl

/-! #### Makers -/

theorem Evolves.newArray (values : List Value) : h.Evolves (h.newArray values).2 :=
  (Evolves.retainAll values).trans (Change.newArray values).evolves

theorem Evolves.newNative (f : NativeFunction) : h.Evolves (h.newNative f).2 :=
  (Evolves.retainAll f.captured).trans (Change.newNative f).evolves

theorem Evolves.newTypedArray (e : Element) (length : Nat) :
    h.Evolves (h.newTypedArray e length).2 := (Change.newBuffer _).evolves

theorem Evolves.typedArrayOf (e : Element) (numbers : List Double) :
    h.Evolves (h.typedArrayOf e numbers).2 := (Change.newBuffer _).evolves

theorem Evolves.newDataView (contents : ByteStore) : h.Evolves (h.newDataView contents).2 :=
  (Change.newBuffer contents).evolves

theorem Evolves.newRegistry (cleanup : FunctionRef) : h.Evolves (h.newRegistry cleanup).2 :=
  (Evolves.retain (.function cleanup)).trans (Change.newRegistry cleanup).evolves

/-! #### Containers -/

theorem Evolves.arraySet (array i : Nat) (v : Value) : h.Evolves (h.arraySet array i v) :=
  (Evolves.retain v).trans ((Change.elements array _).evolves.trans (.release _))

theorem Evolves.arrayPush (array : Nat) (v : Value) : h.Evolves (h.arrayPush array v) :=
  (Evolves.retain v).trans (Change.elements array _).evolves

theorem Evolves.objectSet (object : Nat) (key : Text) (v : Value) :
    h.Evolves (h.objectSet object key v) :=
  (Evolves.retain v).trans ((Change.properties object _).evolves.trans (.release _))

theorem Evolves.objectDelete (object : Nat) (key : Text) :
    h.Evolves (h.objectDelete object key) :=
  (Change.properties object _).evolves.trans (.releaseAll _)

/-! #### Windows -/

theorem Evolves.writeBytes {buffer offset : Nat} {bytes : List UInt8}
    (hw : h.writeBytes buffer offset bytes = .ok h') : h.Evolves h' := by
  obtain ⟨contents, hb, hr⟩ := exists_of_bind_eq_ok hw
  obtain ⟨-, -, hc⟩ := exists_of_bind_eq_ok hb
  cases hr
  cases hc
  exact (Change.contents buffer _ (ByteStore.size_patch _ _ _)).evolves

theorem Evolves.setElement {v : TypedView} {i : Nat} {x : Double} (hw : v.set h i x = .ok h') :
    h.Evolves h' := by
  obtain ⟨-, -, hr⟩ := exists_of_bind_eq_ok hw
  cases hr
  exact (Change.contents v.buffer _ (ByteStore.size_patch _ _ _)).evolves

theorem Evolves.setElementBytes {v : TypedView} {start : Nat} {bytes : List UInt8}
    (hw : v.setElementBytes h start bytes = .ok h') : h.Evolves h' := by
  obtain ⟨-, -, hr⟩ := exists_of_bind_eq_ok hw
  exact .writeBytes hr

theorem Evolves.writeScalar {v : ByteView} {t : Scalar} {offset w : Nat} {littleEndian : Bool}
    (hw : v.write h t offset w littleEndian = .ok h') : h.Evolves h' := by
  obtain ⟨-, -, hr⟩ := exists_of_bind_eq_ok hw
  exact .writeBytes hr

theorem Evolves.byteWindow {buffer offset length : Nat} {r : ByteView × Heap}
    (hw : h.byteWindow buffer offset length = .ok r) : h.Evolves r.2 := by
  obtain ⟨-, -, hr⟩ := exists_of_bind_eq_ok hw
  cases hr
  exact (Change.retained (.buffer buffer)).evolves

theorem Evolves.copyView {v : ByteView} {offset length : Nat} {r : ByteView × Heap}
    (hw : v.copy h offset length = .ok r) : h.Evolves r.2 := by
  obtain ⟨-, -, hb⟩ := exists_of_bind_eq_ok hw
  obtain ⟨bytes, -, hr⟩ := exists_of_bind_eq_ok hb
  cases hr
  exact .newDataView _

/-! #### Finalization registries -/

theorem Evolves.register {registry : Nat} {target held : Value} {token : Option Value}
    (hr : h.register registry target held token = .ok h') : h.Evolves h' := by
  obtain ⟨t, -, hr⟩ := exists_of_bind_eq_ok hr
  cases token with
  | none =>
    cases hr
    exact (Evolves.retain held).trans (Change.watched registry _).evolves
  | some v =>
    obtain ⟨k, -, hr⟩ := exists_of_bind_eq_ok hr
    cases hr
    exact (Evolves.retain held).trans (Change.watched registry _).evolves

theorem Evolves.unregister {registry : Nat} {token : Value} {r : Bool × Heap}
    (hr : h.unregister registry token = .ok r) : h.Evolves r.2 := by
  obtain ⟨t, -, hr⟩ := exists_of_bind_eq_ok hr
  cases hr
  exact (Change.unwatched registry t).evolves.trans (.releaseAll _)

theorem Evolves.collectNext (due : List DueCleanup × Heap) (registry : Nat) :
    due.2.Evolves (Heap.collectNext due registry).2 := by
  obtain ⟨calls, h⟩ := due
  cases hc : h.cleanup? registry with
  | none =>
    simp only [Heap.collectNext, hc]
    exact .refl
  | some cleanup =>
    simp only [Heap.collectNext, hc]
    exact (Change.collected registry).evolves.trans (.retainAll _)

theorem Evolves.collectAll (registries : List Nat) : h.Evolves (h.collectAll registries).2 := by
  have hfold : ∀ due : List DueCleanup × Heap,
      due.2.Evolves (registries.foldl Heap.collectNext due).2 := by
    induction registries with
    | nil => exact fun _ => .refl
    | cons r rest ih => exact fun due => (Evolves.collectNext due r).trans (ih _)
  exact hfold ([], h)

end Heap

/-! ### Timers -/

/-- One change of a timer queue. -/
inductive TimerQueue.Change (q : TimerQueue) : TimerQueue → Prop
  | timeout {now delay : Nat} {callback : Int32} {r : Int32 × TimerQueue}
      (added : q.addTimeout? now delay callback = some r) : Change q r.2
  | interval {now period : Nat} {callback : Int32} {r : Int32 × TimerQueue}
      (added : q.addInterval? now period callback = some r) : Change q r.2
  | cancelled (handle : Int32) : Change q (q.cancel handle)
  | due (now : Nat) : Change q (q.takeDue now).2
  | queued (callback : Int32) : Change q (q.addMicrotask callback)
  | unqueued : Change q q.takeMicrotask.2

/-! ### The session -/

/-- A request is over: it has linked an instance, or it has failed and says why. -/
structure LoadRecord.Finished (r : LoadRecord) : Prop where
  isTerminal : r.state.isTerminal = true
  linked_iff : r.state = .linked ↔ r.linked.isSome = true
  error_iff : r.state = .linked ↔ r.error = none

namespace Session

/-- At some time the loader answers a name with what compiles to this module. -/
def Compiles (s : Session) (name : String) (module : Description) : Prop :=
  ∃ loader asked source bytes, s.deferred.loader = some loader ∧
    loader.load asked name = .ok source ∧
    source.read s.engine.config.chunkSize = .ok bytes ∧
    s.engine.compile bytes s.capabilities = .ok module

/-- One change of a session. -/
inductive Change (s : Session) : Session → Prop
  | heap {h : Heap} (change : s.heap.Change h) : Change s { s with heap := h }
  | lent (handles : List Value) : Change s { s with lent := handles }
  | crossed (handles : List Value) : Change s { s with crossed := handles }
  | printed (line : String) : Change s { s with console := s.console.push line }
  | ticked : Change s { s with clock := s.clock + 1 }
  | timers {q : TimerQueue} (change : s.timers.Change q) : Change s { s with timers := q }
  | stored (st : Store) : Change s (s.withStore st)
  | linked (i : Instance) (l : Linker) :
      Change s { s with
        primary := some i
        memory := i.memory? "memory"
        deferred := { s.deferred with linker := some l } }
  /-- The loader is asked, for a module that is not kept. -/
  | asked (name : String) (missing : s.deferred.cached? name = none) :
      Change s { s with deferred := s.deferred.ask name }
  | kept (name : String) (module : Description) (compiles : s.Compiles name module) :
      Change s { s with deferred := s.deferred.keep name module }
  | recorded (r : LoadRecord) (finished : r.Finished) :
      Change s { s with deferred := s.deferred.push r }
  /-- A fresh registry that the session keeps track of. -/
  | tracked (cleanup : FunctionRef) :
      Change s { s with
        heap := { s.heap with registries := (s.heap.registries.alloc ⟨cleanup, []⟩).2 }
        finalizers := s.finalizers ++ [s.heap.registries.next] }
  /-- Registries that are gone are forgotten. -/
  | pruned : Change s { s with finalizers := s.finalizers.filter s.heap.registries.isLive }

/-- Any number of changes in a row. -/
def Evolves : Session → Session → Prop := Relation.ReflTransGen Change

variable {s s' s'' : Session}

theorem Change.evolves (hc : Change s s') : s.Evolves s' := Relation.ReflTransGen.single hc

theorem Evolves.refl : s.Evolves s := Relation.ReflTransGen.refl

theorem Evolves.trans (h₁ : s.Evolves s') (h₂ : s'.Evolves s'') : s.Evolves s'' :=
  Relation.ReflTransGen.trans h₁ h₂

/-- What every change keeps, every evolution keeps. -/
theorem Evolves.keeps {P : Session → Prop} (hev : s.Evolves s')
    (hstep : ∀ {a b : Session}, a.Change b → P a → P b) (hp : P s) : P s' := by
  induction hev with
  | refl => exact hp
  | tail _ hc ih => exact hstep hc ih

/-- An evolution of the heap is one of the session. -/
theorem Evolves.ofHeap {h : Heap} (hev : s.heap.Evolves h) : s.Evolves { s with heap := h } := by
  induction hev with
  | refl => exact .refl
  | tail _ hc ih => exact ih.trans (Change.heap hc).evolves

/-- When a session evolves, so does its heap. -/
theorem Change.heap_evolves (hc : s.Change s') : s.heap.Evolves s'.heap := by
  cases hc with
  | heap change => exact change.evolves
  | tracked cleanup => exact (Heap.Change.newRegistry cleanup).evolves
  | _ => exact .refl

theorem Evolves.heap (hev : s.Evolves s') : s.heap.Evolves s'.heap :=
  hev.keeps (P := fun a => s.heap.Evolves a.heap) (fun hc ih => ih.trans hc.heap_evolves) .refl

/-- The byte order of the machine is settled when the session begins. -/
theorem Evolves.littleEndian_eq (hev : s.Evolves s') :
    s'.heap.littleEndian = s.heap.littleEndian :=
  hev.heap.littleEndian_eq

/-- How modules are loaded and compiled is settled when the session begins. -/
theorem Change.settled (hc : s.Change s') :
    s'.engine = s.engine ∧ s'.capabilities = s.capabilities ∧
      s'.deferred.loader = s.deferred.loader := by
  cases hc with
  | recorded r _ => simp only [DeferredLoads.push, and_self]
  | _ => exact ⟨rfl, rfl, rfl⟩

theorem Evolves.settled (hev : s.Evolves s') :
    s'.engine = s.engine ∧ s'.capabilities = s.capabilities ∧
      s'.deferred.loader = s.deferred.loader := by
  induction hev with
  | refl => exact ⟨rfl, rfl, rfl⟩
  | tail _ hc ih =>
    obtain ⟨he, hcap, hl⟩ := hc.settled
    exact ⟨he.trans ih.1, hcap.trans ih.2.1, hl.trans ih.2.2⟩

/-- A session that has evolved from a new one. -/
def Reachable (s : Session) : Prop :=
  ∃ (e : Engine) (c : Capabilities) (loader : Option Loader), (Session.new e c loader).Evolves s

theorem Reachable.evolves (hs : s.Reachable) (hev : s.Evolves s') : s'.Reachable := by
  obtain ⟨e, c, loader, h⟩ := hs
  exact ⟨e, c, loader, h.trans hev⟩

/-- What a new session has and every change keeps, every reachable session has. -/
theorem Reachable.invariant {P : Session → Prop} (hs : s.Reachable)
    (hnew : ∀ e c loader, P (Session.new e c loader))
    (hstep : ∀ {a b : Session}, a.Change b → P a → P b) : P s := by
  obtain ⟨e, c, loader, h⟩ := hs
  exact h.keeps hstep (hnew e c loader)

end Session

end ModuleHost
