/-
Windows stay within their buffers.

Whatever windows embedder and module make, from sizes and from numbers, on buffers and on other
windows, with the same buffer under several of them, and whatever the session goes through
afterwards: as long as a window's buffer is alive the window lies in it, so every access through
it is safe.

* `Heap.KeepsSizes` — a buffer that is alive has the size it was made with;
* `Obtained` — the buffers and windows that can be had;
* `Obtained.lies` — all of them lie in their buffers;
* `obtained_windows_are_safe` — the main theorem.

Design notes: windows are made with different checks.  A fresh buffer is made to the measure of
its window, a window on a buffer that is there is compared with its size, and a copy with the
window it is taken of; in each case the invariant is that of the window's bytes, `ByteView.Lies`.
Numbers of buffers are handed out once, so a live buffer is the one that the window was made on.
-/
import Mathlib
import ModuleHost.Proofs.Heap.Accesses
import ModuleHost.Proofs.Heap.Handles
import ModuleHost.Proofs.Session.Evolving
import ModuleHost.Session.Machine

namespace ModuleHost

open Act

variable {γ α : Type} {h h' h'' : Heap} {w w' : World γ}

/-! ### Sizes of buffers -/

namespace Heap

/-- A buffer that has been made and is alive has the size it had. -/
structure KeepsSizes (h h' : Heap) : Prop where
  next_le : h.buffers.next ≤ h'.buffers.next
  size : ∀ {b s'}, b < h.buffers.next → h'.buffers.get? b = some s' →
    ∃ s, h.buffers.get? b = some s ∧ s'.size = s.size

theorem KeepsSizes.of_get? (hn : h.buffers.next ≤ h'.buffers.next)
    (hg : ∀ {b s'}, b < h.buffers.next → h'.buffers.get? b = some s' →
      h.buffers.get? b = some s') : h.KeepsSizes h' :=
  ⟨hn, fun hb hs => ⟨_, hg hb hs, rfl⟩⟩

theorem KeepsSizes.of_eq (he : h'.buffers = h.buffers) : h.KeepsSizes h' :=
  .of_get? (by rw [he]) fun _ hs => by rwa [he] at hs

theorem KeepsSizes.refl : h.KeepsSizes h := .of_eq rfl

theorem KeepsSizes.trans (h₁ : h.KeepsSizes h') (h₂ : h'.KeepsSizes h'') : h.KeepsSizes h'' where
  next_le := h₁.next_le.trans h₂.next_le
  size hb hs'' := by
    obtain ⟨s', hs', heq'⟩ := h₂.size (lt_of_lt_of_le hb h₁.next_le) hs''
    obtain ⟨s, hs, heq⟩ := h₁.size hb hs'
    exact ⟨s, hs, heq'.trans heq⟩

theorem KeepsSizes.setClosures (k : Keeper) (closures : Closures) :
    h.KeepsSizes (h.setClosures k closures) := by
  cases k
  · exact .of_eq rfl
  · exact .of_eq rfl

theorem KeepsSizes.setWatchCells (r : ℕ) (cells : List WatchCell) :
    h.KeepsSizes (h.setWatchCells r cells) := by
  unfold Heap.setWatchCells
  split
  · exact .of_eq rfl
  · exact .refl

theorem KeepsSizes.retainTarget (t : Target) : h.KeepsSizes (h.retainTarget t) := by
  rcases t with i | i | i | (i | ⟨k, i⟩) | i | i | i
  case buffer =>
    exact .of_get? (le_of_eq Pool.next_retain.symm) fun _ hs => by
      rwa [Heap.retainTarget, Pool.get?_retain] at hs
  case function.wrapper => exact .setClosures _ _
  all_goals exact .of_eq rfl

theorem KeepsSizes.releaseTarget (t : Target) : h.KeepsSizes (h.releaseTarget t).2 := by
  rcases t with i | i | i | (i | ⟨k, i⟩) | i | i | i
  case buffer =>
    exact .of_get? (le_of_eq Pool.next_release.symm) fun _ hs => Pool.get?_release_of_some hs
  case function.wrapper => exact .setClosures _ _
  all_goals exact .of_eq rfl

theorem KeepsSizes.newBuffer (contents : ByteStore) : h.KeepsSizes (h.newBuffer contents).2 :=
  .of_get? (Nat.le_succ _) fun hb hs => by
    rwa [Heap.newBuffer, Pool.get?_alloc, if_neg (by omega)] at hs

theorem KeepsSizes.setContents {buffer : ℕ} {contents : ByteStore}
    (hsize : contents.size = h.byteLength buffer) :
    h.KeepsSizes (h.setContents buffer contents) where
  next_le := le_of_eq Pool.next_set.symm
  size {b s'} _ hs := by
    rw [Heap.setContents, Pool.get?_set] at hs
    split at hs
    · rename_i heq
      subst heq
      obtain ⟨s, hget, rfl⟩ := Option.map_eq_some_iff.mp hs
      refine ⟨s, hget, ?_⟩
      rw [hsize, Heap.byteLength, Heap.contents, hget]
      rfl
    · exact ⟨s', hs, rfl⟩

theorem Change.keepsSizes (hc : h.Change h') : h.KeepsSizes h' := by
  cases hc with
  | retained t => exact .retainTarget t
  | released t => exact .releaseTarget t
  | newBuffer contents => exact .newBuffer contents
  | contents buffer contents hsize => exact .setContents hsize
  | wrapped k w => exact .setClosures _ _
  | taken k => exact .setClosures _ _
  | watched r cell => exact .setWatchCells _ _
  | unwatched r token => exact .setWatchCells _ _
  | collected r => exact .setWatchCells _ _
  | _ => exact .of_eq rfl

theorem Evolves.keepsSizes (hev : h.Evolves h') : h.KeepsSizes h' :=
  hev.keeps (fun hc hs => KeepsSizes.trans hs hc.keepsSizes) .refl

end Heap

/-! ### Windows that lie in their buffers -/

/-- The window lies in its buffer, which is alive. -/
structure ByteView.Lies (v : ByteView) (h : Heap) : Prop extends v.Inside h where
  made : v.buffer < h.buffers.next
  live : h.buffers.isLive v.buffer = true

namespace ByteView.Lies

variable {v u : ByteView}

/-- A window that lies in its buffer does so as long as the buffer is alive. -/
theorem evolves (hv : v.Lies h) (hev : h.Evolves h') (hl : h'.buffers.isLive v.buffer = true) :
    v.Lies h' := by
  have hkeeps := hev.keepsSizes
  obtain ⟨s', hs'⟩ := Pool.isLive_iff_get?.mp hl
  -- the number had been handed out before, so this is the buffer that the window was made on
  obtain ⟨s, hs, hsize⟩ := hkeeps.size hv.made hs'
  have hlength : h'.byteLength v.buffer = h.byteLength v.buffer := by
    simp only [Heap.byteLength, Heap.contents, hs, hs', Option.getD_some, hsize]
  exact ⟨⟨hlength ▸ hv.inside, hlength ▸ hv.word⟩, lt_of_lt_of_le hv.made hkeeps.next_le, hl⟩

/-- Another window on the buffer that lies in it. -/
theorem other (hv : v.Lies h) (hb : u.buffer = v.buffer)
    (hin : u.offset + u.length ≤ h.byteLength v.buffer) : u.Lies h :=
  ⟨⟨hb ▸ hin, hb ▸ hv.word⟩, hb ▸ hv.made, hb ▸ hv.live⟩

theorem retained (hv : v.Lies h) (t : Target) : v.Lies (h.retainTarget t) := by
  refine hv.evolves (Heap.Change.retained t).evolves ?_
  exact (Heap.isLive_retainTarget t (.buffer v.buffer)).trans hv.live

/-- A window on a fresh buffer that is no larger than it. -/
theorem fresh {contents : ByteStore} {offset length : ℕ} (hword : contents.size < wordLimit)
    (hin : offset + length ≤ contents.size) :
    ByteView.Lies ⟨h.buffers.next, offset, length⟩ (h.newBuffer contents).2 := by
  have hget : (h.newBuffer contents).2.buffers.get? h.buffers.next = some contents := by
    rw [Heap.newBuffer, Pool.get?_alloc, if_pos rfl]
  have hlength : (h.newBuffer contents).2.byteLength h.buffers.next = contents.size := by
    rw [Heap.byteLength, Heap.contents, hget]
    rfl
  exact ⟨⟨hlength ▸ hin, hlength ▸ hword⟩, Nat.lt_succ_self _, Pool.isLive_iff_get?.mpr ⟨_, hget⟩⟩

end ByteView.Lies

/-- The window of a typed array lies in its buffer and starts at a whole element. -/
structure TypedView.Lies (v : TypedView) (h : Heap) : Prop where
  window : v.window.Lies h
  aligned : v.offset % v.element.width = 0

/-- A buffer is alive, and a window lies in its buffer; a buffer is an empty window on itself. -/
def Value.Lies (h : Heap) : Value → Prop
  | .buffer b => ByteView.Lies ⟨b, 0, 0⟩ h
  | .typedArray v => v.Lies h
  | .dataView v => v.Lies h
  | _ => True

namespace Value.Lies

variable {x : Value} {b base : ℕ}

theorem evolves (hx : x.Lies h) (hev : h.Evolves h') (hl : h'.Alive x) : x.Lies h' := by
  cases x with
  | buffer b => exact ByteView.Lies.evolves hx hev (hl (.buffer b) rfl)
  | typedArray v => exact ⟨hx.window.evolves hev (hl (.buffer v.buffer) rfl), hx.aligned⟩
  | dataView v => exact ByteView.Lies.evolves hx hev (hl (.buffer v.buffer) rfl)
  | _ => trivial

/-- A buffer and where something starts in it. -/
theorem buffer (hx : x.Lies h) (hb : x.expectBufferOrView = .ok (b, base)) :
    ByteView.Lies ⟨b, base, 0⟩ h := by
  cases x with
  | buffer i =>
    cases hb
    exact hx
  | typedArray v =>
    cases hb
    exact hx.window.other rfl ((Nat.add_le_add_left (Nat.zero_le _) _).trans hx.window.inside)
  | dataView v =>
    cases hb
    exact ByteView.Lies.other hx rfl
      ((Nat.add_le_add_left (Nat.zero_le _) _).trans (ByteView.Lies.toInside hx).inside)
  | _ => cases hb

end Value.Lies
/-! ### Making windows -/

section Makers

theorem lies_newBuffer {contents : ByteStore} (hsize : contents.size < wordLimit) :
    Value.Lies (h.newBuffer contents).2 (.buffer (h.newBuffer contents).1) :=
  ByteView.Lies.fresh hsize (Nat.zero_le _)

theorem lies_newTypedArray {e : Element} {n : ℕ} (hn : n * e.width < wordLimit) :
    (h.newTypedArray e n).1.Lies (h.newTypedArray e n).2 where
  window := .fresh hn (Nat.zero_add _).le
  aligned := Nat.zero_mod _

theorem length_flatMap_encode (order : Bool) (e : Element) (numbers : List Double) :
    (numbers.flatMap (e.encode order)).length = numbers.length * e.width := by
  induction numbers with
  | nil => exact (Nat.zero_mul _).symm
  | cons x rest ih =>
    rw [List.flatMap_cons, List.length_append, ih, e.length_encode order, List.length_cons,
      Nat.succ_mul, Nat.add_comm]

theorem size_ofList (bytes : List UInt8) : (ByteStore.ofList bytes).size = bytes.length :=
  ByteStore.size_patch _ _ _

theorem lies_typedArrayOf {e : Element} {numbers : List Double}
    (hn : numbers.length * e.width < wordLimit) :
    (h.typedArrayOf e numbers).1.Lies (h.typedArrayOf e numbers).2 := by
  have hsize : (ByteStore.ofList (numbers.flatMap (e.encode h.littleEndian))).size
      = numbers.length * e.width := by
    rw [size_ofList, length_flatMap_encode]
  exact ⟨.fresh (hsize ▸ hn) ((Nat.zero_add _).trans hsize.symm).le, Nat.zero_mod _⟩

theorem lies_typedWindow {e : Element} {b offset n : ℕ} {r : TypedView × Heap}
    (hb : Value.Lies h (.buffer b)) (hr : h.typedWindow e b offset n = .ok r) : r.1.Lies r.2 := by
  unfold Heap.typedWindow at hr
  -- three checks in this order: the product, the range, the alignment
  by_cases hlimit : wordLimit ≤ n * e.width
  · rw [if_pos hlimit] at hr
    cases hr
  · rw [if_neg hlimit] at hr
    obtain ⟨_, hrange, hr⟩ := exists_of_bind_eq_ok hr
    by_cases ha : offset % e.width = 0
    · rw [if_neg (not_not.mpr ha)] at hr
      cases hr
      have hin : offset + n * e.width ≤ h.byteLength b := Strict.le_of_requireRange hrange
      have hwindow := ByteView.Lies.other (u := ⟨b, offset, n * e.width⟩) hb rfl hin
      exact ⟨hwindow.retained (.buffer b), ha⟩
    · rw [if_pos ha] at hr
      cases hr

theorem lies_newDataView {contents : ByteStore} (hsize : contents.size < wordLimit) :
    (h.newDataView contents).1.Lies (h.newDataView contents).2 :=
  .fresh hsize (Nat.zero_add _).le

theorem lies_byteWindow {b offset n : ℕ} {r : ByteView × Heap} (hb : Value.Lies h (.buffer b))
    (hr : h.byteWindow b offset n = .ok r) : r.1.Lies r.2 := by
  obtain ⟨_, hrange, hr⟩ := exists_of_bind_eq_ok hr
  cases hr
  have hin : offset + n ≤ h.byteLength b := Strict.le_of_requireRange hrange
  exact (ByteView.Lies.other (u := ⟨b, offset, n⟩) hb rfl hin).retained (.buffer b)

theorem lies_copy {v : ByteView} {offset n : ℕ} {r : ByteView × Heap} (hv : v.Lies h)
    (hr : v.copy h offset n = .ok r) : r.1.Lies r.2 := by
  obtain ⟨_, hrange, hr⟩ := exists_of_bind_eq_ok hr
  obtain ⟨bytes, hbytes, hr⟩ := exists_of_bind_eq_ok hr
  cases hr
  obtain ⟨-, -, hread⟩ := exists_of_bind_eq_ok hbytes
  cases hread
  -- the copy is no longer than the window that it is taken of, so its size is a word as well
  refine lies_newDataView ?_
  rw [size_ofList, ByteStore.length_slice]
  exact lt_of_le_of_lt ((Nat.le_add_left _ _).trans (Strict.le_of_requireRange hrange))
    hv.length_lt

end Makers

/-! ### What can be obtained -/

/-- The buffers and windows that can be had, by whatever sequence of makers.  A size is a word. -/
inductive Obtained (m : Machine γ) : World γ → Value → Prop
  | buffer {w w' : World γ} {b : ℕ} (contents : ByteStore) (size : contents.size < wordLimit)
      (made : onHeap (·.newBuffer contents) w = .ok b w') : Obtained m w' (.buffer b)
  | typedArray {w w' : World γ} {v : TypedView} (e : Element) (length : ℕ)
      (size : length * e.width < wordLimit)
      (made : onHeap (·.newTypedArray e length) w = .ok v w') : Obtained m w' (.typedArray v)
  | typedArrayOf {w w' : World γ} {v : TypedView} (e : Element) (numbers : List Double)
      (size : numbers.length * e.width < wordLimit)
      (made : onHeap (·.typedArrayOf e numbers) w = .ok v w') : Obtained m w' (.typedArray v)
  | typedWindow {w w' : World γ} {v : TypedView} {b : ℕ} (e : Element) (offset length : ℕ)
      (on : Obtained m w (.buffer b))
      (made : tryHeap (·.typedWindow e b offset length) w = .ok v w') :
      Obtained m w' (.typedArray v)
  | dataView {w w' : World γ} {v : ByteView} (contents : ByteStore)
      (size : contents.size < wordLimit)
      (made : onHeap (·.newDataView contents) w = .ok v w') : Obtained m w' (.dataView v)
  | byteWindow {w w' : World γ} {v : ByteView} {b : ℕ} (offset length : ℕ)
      (on : Obtained m w (.buffer b))
      (made : tryHeap (·.byteWindow b offset length) w = .ok v w') : Obtained m w' (.dataView v)
  | copy {w w' : World γ} {u v : ByteView} (offset length : ℕ) (on : Obtained m w (.dataView u))
      (made : tryHeap (fun h => u.copy h offset length) w = .ok v w') : Obtained m w' (.dataView v)
  /-- The buffer of a window. -/
  | bufferOf {w : World γ} {x : Value} {b base : ℕ} (on : Obtained m w x)
      (of : x.expectBufferOrView = .ok (b, base)) : Obtained m w (.buffer b)
  | arrayBufferNew {w w' : World γ} {r : Reference} {x : Value} (length : Int32)
      (made : HostCall.arrayBufferNew length w = .ok r w') (value : r.value = .ok x) :
      Obtained m w' x
  | typedArrayNew {w w' : World γ} {r : Reference} {x : Value} (tag length : Int32)
      (made : HostCall.typedArrayNew tag length w = .ok r w') (value : r.value = .ok x) :
      Obtained m w' x
  | typedArrayFromModuleList {w w' : World γ} {r : Reference} {x : Value} (tag list : Int32)
      (made : HostCall.typedArrayFromModuleList m tag list w = .ok r w')
      (value : r.value = .ok x) : Obtained m w' x
  | dataViewNew {w w' : World γ} {r : Reference} {x : Value} (length : Int32)
      (made : HostCall.dataViewNew length w = .ok r w') (value : r.value = .ok x) :
      Obtained m w' x
  | dataViewOf {w w' : World γ} {on r : Reference} {y x : Value} (offset length : Int32)
      (of : on.value = .ok y) (had : Obtained m w y)
      (made : HostCall.dataViewOf on offset length w = .ok r w') (value : r.value = .ok x) :
      Obtained m w' x
  | dataViewCopy {w w' : World γ} {on r : Reference} {y x : Value} (offset length : Int32)
      (of : on.value = .ok y) (had : Obtained m w y)
      (made : HostCall.dataViewCopy on offset length w = .ok r w') (value : r.value = .ok x) :
      Obtained m w' x
  | dataViewFromModule {w w' : World γ} {r : Reference} {x : Value} (address length : Int32)
      (made : HostCall.dataViewFromModule address length w = .ok r w')
      (value : r.value = .ok x) : Obtained m w' x
  /-- Whatever the session goes through, what is still alive is still there. -/
  | later {w w' : World γ} {x : Value} (before : Obtained m w x)
      (evolves : w.session.Evolves w'.session) (alive : w'.session.heap.Alive x) :
      Obtained m w' x

/-! ### Calls that return -/

section Returns

theorem heap_of_onHeap {f : Heap → α × Heap} {a : α} (hr : onHeap f w = .ok a w') :
    f w.session.heap = (a, w'.session.heap) := by
  cases hr
  rfl

theorem give_returns {x : Value} {r : Reference} (hr : give x w = .ok r w') :
    r = .ofValue x ∧ w'.session.heap = w.session.heap := by
  cases hr
  exact ⟨rfl, rfl⟩

/-- A call that begins with a conversion has made it. -/
theorem exists_of_orFail_bind {β : Type} {x : Except ConversionError α} {k : α → Act γ β} {b : β}
    (hr : (orFail x >>= k) w = .ok b w') : ∃ a, x = .ok a ∧ k a w = .ok b w' := by
  cases x with
  | error e => cases hr
  | ok a => exact ⟨a, rfl, hr⟩

theorem exists_of_index_bind {β : Type} {i : Int32} {k : ℕ → Act γ β} {b : β}
    (hr : (index i >>= k) w = .ok b w') : ∃ n < 2 ^ 31, k n w = .ok b w' := by
  unfold index at hr
  split at hr
  · cases hr
  · refine ⟨i.toInt.toNat, ?_, hr⟩
    have := i.toInt_lt
    omega

theorem length_readItems {m : Machine γ} {read : Func} {list : Int32} {n : ℕ} :
    ∀ {w w' : World γ} {i : ℕ} {items : List Value},
      readItems m read list i n w = .ok items w' → items.length = n := by
  induction n with
  | zero =>
    intro w w' i items hr
    cases hr
    rfl
  | succ n ih =>
    intro w w' i items hr
    obtain ⟨results, w₁, -, hr⟩ := exists_of_bind_ok hr
    split at hr
    · obtain ⟨v, w₂, -, hr⟩ := exists_of_bind_ok hr
      obtain ⟨rest, w₃, hrest, hr⟩ := exists_of_bind_ok hr
      cases hr
      rw [List.length_cons, ih hrest]
    · cases hr

theorem length_mapM {β : Type} {f : α → Act γ β} {l : List α} :
    ∀ {w w' : World γ} {bs : List β}, l.mapM f w = .ok bs w' → bs.length = l.length := by
  induction l with
  | nil =>
    intro w w' bs hr
    cases hr
    rfl
  | cons a rest ih =>
    intro w w' bs hr
    rw [List.mapM_cons] at hr
    obtain ⟨b, w₁, -, hr⟩ := exists_of_bind_ok hr
    obtain ⟨more, w₂, hrest, hr⟩ := exists_of_bind_ok hr
    cases hr
    rw [List.length_cons, List.length_cons, ih hrest]

theorem length_receiveNumbers {m : Machine γ} {list : Int32} {numbers : List Double}
    (hr : receiveNumbers m list w = .ok numbers w') : numbers.length < 2 ^ 31 := by
  obtain ⟨items, w₁, hitems, hr⟩ := exists_of_bind_ok hr
  obtain ⟨_, w₂, -, hitems⟩ := exists_of_bind_ok hitems
  obtain ⟨_, w₃, -, hitems⟩ := exists_of_bind_ok hitems
  obtain ⟨n, w₄, -, hitems⟩ := exists_of_bind_ok hitems
  rw [length_mapM hr, length_readItems hitems]
  have := n.toInt_lt
  omega

theorem length_readMemory {address n : ℕ} {bytes : List UInt8}
    (hr : readMemory address n w = .ok bytes w') : bytes.length = n := by
  obtain ⟨_, w₁, -, hr⟩ := exists_of_bind_ok hr
  obtain ⟨memory, w₂, -, hr⟩ := exists_of_bind_ok hr
  cases hread : memory.read address n with
  | error e =>
    rw [hread] at hr
    cases hr
  | ok read =>
    rw [hread] at hr
    cases hr
    obtain ⟨-, -, hbytes⟩ := exists_of_bind_eq_ok hread
    cases hbytes
    exact ByteStore.length_slice _ _ _

end Returns

/-! ### Whatever is obtained lies in its buffer -/

section Lies

variable {m : Machine γ} {x y : Value} {r : Reference} {n : ℕ}

theorem wordLimit_bounds (e : Element) (hn : n < 2 ^ 31) :
    n < wordLimit ∧ n * e.width < wordLimit := by
  have hwidth : e.width ≤ 8 := by cases e <;> decide
  have hproduct : n * e.width ≤ n * 8 := Nat.mul_le_mul_left _ hwidth
  have hlimit : wordLimit = 2 ^ 64 := rfl
  omega

theorem lies_of_give (hr : give x w = .ok r w') (hv : r.value = .ok y)
    (hx : x.Lies w.session.heap) : y.Lies w'.session.heap := by
  obtain ⟨rfl, hheap⟩ := give_returns hr
  have hxy : x = y := by
    cases x <;> cases hv <;> rfl
  rwa [hheap, ← hxy]

theorem buffer_lies_of_window {v : ByteView} (hv : v.Lies h) : Value.Lies h (.buffer v.buffer) :=
  ByteView.Lies.other hv rfl (Nat.zero_le _)

/-- The view that `dataViewOf` makes, of a buffer or of a window. -/
theorem lies_dataViewOf {on : Reference} {offset length : Int32} (of : on.value = .ok y)
    (hy : y.Lies w.session.heap) (hr : HostCall.dataViewOf on offset length w = .ok r w')
    (hv : r.value = .ok x) : x.Lies w'.session.heap := by
  obtain ⟨z, hz, hr⟩ := exists_of_orFail_bind hr
  obtain rfl : y = z := Except.ok.inj (of.symm.trans hz)
  obtain ⟨⟨b, base⟩, hb, hr⟩ := exists_of_orFail_bind hr
  obtain ⟨o, -, hr⟩ := exists_of_index_bind hr
  obtain ⟨n, -, hr⟩ := exists_of_index_bind hr
  obtain ⟨v, w₁, hwindow, hr⟩ := exists_of_bind_ok hr
  have hbuffer : Value.Lies _ (.buffer b) := buffer_lies_of_window (hy.buffer hb)
  exact lies_of_give hr hv (lies_byteWindow hbuffer (heap_of_tryHeap hwindow))

theorem lies_dataViewCopy {on : Reference} {offset length : Int32} (of : on.value = .ok y)
    (hy : y.Lies w.session.heap) (hr : HostCall.dataViewCopy on offset length w = .ok r w')
    (hv : r.value = .ok x) : x.Lies w'.session.heap := by
  obtain ⟨z, hz, hr⟩ := exists_of_orFail_bind hr
  obtain rfl : y = z := Except.ok.inj (of.symm.trans hz)
  obtain ⟨u, hu, hr⟩ := exists_of_orFail_bind hr
  obtain ⟨o, -, hr⟩ := exists_of_index_bind hr
  obtain ⟨n, -, hr⟩ := exists_of_index_bind hr
  obtain ⟨v, w₁, hcopy, hr⟩ := exists_of_bind_ok hr
  have hlies : ByteView.Lies u w.session.heap := by
    cases y <;> cases hu
    exact hy
  exact lies_of_give hr hv (lies_copy hlies (heap_of_tryHeap hcopy))

theorem lies_of_onHeap (made : α → Value) {f : Heap → α × Heap} {a : α}
    (hf : ∀ h, (made (f h).1).Lies (f h).2) (hr : onHeap f w = .ok a w') :
    (made a).Lies w'.session.heap := by
  have hlies := hf w.session.heap
  rwa [heap_of_onHeap hr] at hlies

theorem lies_arrayBufferNew {length : Int32}
    (hr : HostCall.arrayBufferNew length w = .ok r w') (hv : r.value = .ok x) :
    x.Lies w'.session.heap := by
  obtain ⟨n, hn, hr⟩ := exists_of_index_bind hr
  obtain ⟨b, w₁, hb, hr⟩ := exists_of_bind_ok hr
  have hsize : (ByteStore.zeros n).size < wordLimit := (wordLimit_bounds .int8 hn).1
  exact lies_of_give hr hv (lies_of_onHeap .buffer (fun _ => lies_newBuffer hsize) hb)

theorem lies_typedArrayNew {tag length : Int32}
    (hr : HostCall.typedArrayNew tag length w = .ok r w') (hv : r.value = .ok x) :
    x.Lies w'.session.heap := by
  obtain ⟨e, w₁, -, hr⟩ := exists_of_bind_ok hr
  obtain ⟨n, hn, hr⟩ := exists_of_index_bind hr
  obtain ⟨v, w₂, hview, hr⟩ := exists_of_bind_ok hr
  have hsize : n * e.width < wordLimit := (wordLimit_bounds e hn).2
  exact lies_of_give hr hv (lies_of_onHeap .typedArray (fun _ => lies_newTypedArray hsize) hview)

theorem lies_typedArrayFromModuleList {tag list : Int32}
    (hr : HostCall.typedArrayFromModuleList m tag list w = .ok r w') (hv : r.value = .ok x) :
    x.Lies w'.session.heap := by
  obtain ⟨e, w₁, -, hr⟩ := exists_of_bind_ok hr
  obtain ⟨numbers, w₂, hnumbers, hr⟩ := exists_of_bind_ok hr
  obtain ⟨v, w₃, hview, hr⟩ := exists_of_bind_ok hr
  have hsize : numbers.length * e.width < wordLimit :=
    (wordLimit_bounds e (length_receiveNumbers hnumbers)).2
  exact lies_of_give hr hv (lies_of_onHeap .typedArray (fun _ => lies_typedArrayOf hsize) hview)

theorem lies_dataViewNew {length : Int32} (hr : HostCall.dataViewNew length w = .ok r w')
    (hv : r.value = .ok x) : x.Lies w'.session.heap := by
  obtain ⟨n, hn, hr⟩ := exists_of_index_bind hr
  obtain ⟨v, w₁, hview, hr⟩ := exists_of_bind_ok hr
  have hsize : (ByteStore.zeros n).size < wordLimit := (wordLimit_bounds .int8 hn).1
  exact lies_of_give hr hv (lies_of_onHeap .dataView (fun _ => lies_newDataView hsize) hview)

theorem lies_dataViewFromModule {address length : Int32}
    (hr : HostCall.dataViewFromModule address length w = .ok r w') (hv : r.value = .ok x) :
    x.Lies w'.session.heap := by
  obtain ⟨a, -, hr⟩ := exists_of_index_bind hr
  obtain ⟨n, hn, hr⟩ := exists_of_index_bind hr
  obtain ⟨bytes, w₁, hbytes, hr⟩ := exists_of_bind_ok hr
  obtain ⟨v, w₂, hview, hr⟩ := exists_of_bind_ok hr
  have hsize : (ByteStore.ofList bytes).size < wordLimit := by
    rw [size_ofList, length_readMemory hbytes]
    exact (wordLimit_bounds .int8 hn).1
  exact lies_of_give hr hv (lies_of_onHeap .dataView (fun _ => lies_newDataView hsize) hview)

/-- By induction on how it was obtained: a fresh buffer is made to the measure of its window, every
other maker checks, and evolutions keep sizes. -/
theorem Obtained.lies (hx : Obtained m w x) : x.Lies w.session.heap := by
  induction hx with
  | buffer contents size made => exact lies_of_onHeap .buffer (fun _ => lies_newBuffer size) made
  | typedArray e length size made =>
    exact lies_of_onHeap .typedArray (fun _ => lies_newTypedArray size) made
  | typedArrayOf e numbers size made =>
    exact lies_of_onHeap .typedArray (fun _ => lies_typedArrayOf size) made
  | typedWindow e offset length on made ih => exact lies_typedWindow ih (heap_of_tryHeap made)
  | dataView contents size made =>
    exact lies_of_onHeap .dataView (fun _ => lies_newDataView size) made
  | byteWindow offset length on made ih => exact lies_byteWindow ih (heap_of_tryHeap made)
  | copy offset length on made ih => exact lies_copy ih (heap_of_tryHeap made)
  | bufferOf on of ih => exact buffer_lies_of_window (ih.buffer of)
  | arrayBufferNew length made value => exact lies_arrayBufferNew made value
  | typedArrayNew tag length made value => exact lies_typedArrayNew made value
  | typedArrayFromModuleList tag list made value => exact lies_typedArrayFromModuleList made value
  | dataViewNew length made value => exact lies_dataViewNew made value
  | dataViewOf offset length of had made value ih => exact lies_dataViewOf of ih made value
  | dataViewCopy offset length of had made value ih => exact lies_dataViewCopy of ih made value
  | dataViewFromModule address length made value => exact lies_dataViewFromModule made value
  | later before evolves alive ih => exact ih.evolves evolves.heap alive

end Lies

/-! ### The main theorem -/

/-- The largest allocation. -/
def maxAllocation : ℕ := 2 ^ 63 - 1

/-- A window that has been obtained, by whatever sequence of makers, is safe from then on, whatever
the session goes through, as long as it is alive: it lies in its buffer, a typed array at a whole
element, and each access, with whatever arguments, succeeds or is refused by its range check, does
not panic and touches the window's own bytes only.  Where a view on it starts is a word, too. -/
theorem obtained_windows_are_safe {m : Machine γ} {x : Value} (hx : Obtained m w x)
    (hev : w.session.Evolves w'.session) (hl : w'.session.heap.Alive x) :
    (∀ v : TypedView, x = .typedArray v → v.Safe w'.session.heap) ∧
    (∀ v : ByteView, x = .dataView v → v.Safe w'.session.heap) ∧
    (∀ b base, x.expectBufferOrView = .ok (b, base) →
      w'.session.heap.byteLength b ≤ maxAllocation →
      ∀ offset < 2 ^ 31, Strict.add base offset = pure (base + offset)) := by
  have hlies : x.Lies w'.session.heap := hx.lies.evolves hev.heap hl
  refine ⟨?_, ?_, ?_⟩
  · rintro v rfl
    exact TypedView.safe_of_inside hlies.window.toInside hlies.aligned
  · rintro v rfl
    exact ByteView.safe_of_inside (ByteView.Lies.toInside hlies)
  · intro b base hb hsize offset hoffset
    have hbase : base ≤ w'.session.heap.byteLength b := (hlies.buffer hb).inside
    have hlimit : wordLimit = 2 ^ 64 := rfl
    have hmax : maxAllocation = 2 ^ 63 - 1 := rfl
    exact Strict.add_of_lt (by omega)

/-- Without a module, nothing runs. -/
def absentModule : Machine Unit :=
  ⟨fun _ _ => throw .panic, fun _ _ => throw .panic, fun _ => pure ⟨⟩⟩

/-- Four elements of two bytes. -/
def fourElements : TypedView := ⟨.uint16, 0, 0, 4⟩

/-- The bytes from the second element on. -/
def laterBytes : ByteView := ⟨0, 2, 6⟩

/-- A session with the elements. -/
def withElements : World Unit :=
  final (HostCall.typedArrayNew (Int32.ofNat Element.uint16.tag) 4)
    ⟨.new (.standard .default ⟨[]⟩ true) .none none, ()⟩

/-- A session with the elements and, on the same buffer, the bytes. -/
def withBytes : World Unit :=
  final (HostCall.dataViewOf (.host (.typedArray fourElements)) 2 6) withElements

/-- That session after an element has been stored. -/
def withStored : World Unit :=
  final (HostCall.typedArraySet (.host (.typedArray fourElements)) 3 (.ofNat 258)) withBytes

theorem obtained_windows_are_safe_laterBytes :
    (Obtained absentModule withBytes (.dataView laterBytes) ∧
      withBytes.session.Evolves withStored.session ∧
      withStored.session.heap.Alive (.dataView laterBytes)) ∧
    laterBytes.Safe withStored.session.heap := by
  have hmade : HostCall.typedArrayNew (Int32.ofNat Element.uint16.tag) 4
      ⟨.new (.standard .default ⟨[]⟩ true) .none none, ()⟩
        = .ok (.host (.typedArray fourElements)) withElements := rfl
  have helements : Obtained absentModule withElements (.typedArray fourElements) :=
    .typedArrayNew _ _ hmade rfl
  have hviewed : HostCall.dataViewOf (.host (.typedArray fourElements)) 2 6 withElements
      = .ok (.host (.dataView laterBytes)) withBytes := rfl
  have hbytes : Obtained absentModule withBytes (.dataView laterBytes) :=
    .dataViewOf 2 6 rfl helements hviewed rfl
  have hev : withBytes.session.Evolves withStored.session :=
    .ofHeap (Heap.Evolves.setElement (v := fourElements) (i := 3) (x := .ofNat 258) rfl)
  have hl : withStored.session.heap.Alive (.dataView laterBytes) := by
    rintro _ ⟨⟩
    rfl
  exact ⟨⟨hbytes, hev, hl⟩, (obtained_windows_are_safe hbytes hev hl).2.1 _ rfl⟩

end ModuleHost
