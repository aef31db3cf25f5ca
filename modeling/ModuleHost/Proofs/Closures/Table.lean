/-
What the operations on a table of wrappers keep.

* `Closures.Sound` — the index lists every live wrapper under its closure and arity, and
  a listed closure without a live wrapper waits in the queue;
* `Closures.Sound.wrap`, `.retain`, `.release`, `.takeOrphans` — all operations keep it;
* `Closures.Sound.mem_takeOrphans` — the closures that are taken are exactly the listed
  ones without a live wrapper, each once.

Design notes: an id is queued by every wrapper that goes, and taking passes over the ids
that are wrapped.  That none is lost rests on `Sound.queued`: it speaks of listed closures
without a live wrapper only, so an id that is passed over owes it nothing until its last
wrapper goes, and that wrapper queues it again.
-/
import Mathlib
import ModuleHost.Heap.Closures
import ModuleHost.Proofs.Heap.Pool

namespace ModuleHost

namespace Closures

variable {t : Closures} {w : Wrapper} {id : Nat} {c : Int32}

/-- A closure is listed when the index has a wrapper of it, live or not. -/
def Lists (t : Closures) (c : Int32) : Prop := ∃ w id, (w, id) ∈ t.index ∧ w.closure = c

/-- A closure has a live wrapper at some arity. -/
def HasWrapper (t : Closures) (c : Int32) : Prop :=
  ∃ id w, t.wrappers.get? id = some w ∧ w.closure = c

/-- What operations on a table rely on. -/
structure Sound (t : Closures) : Prop where
  pool : t.wrappers.Sound
  /-- A live wrapper is the newest one of its closure and arity. -/
  listed : ∀ {id w}, t.wrappers.get? id = some w → (w, id) ∈ t.index
  /-- Listed numbers have been handed out. -/
  handedOut : ∀ {w id}, (w, id) ∈ t.index → id < t.wrappers.next
  /-- A listed number that is live is what it is listed as. -/
  content : ∀ {w id w'}, (w, id) ∈ t.index → t.wrappers.get? id = some w' → w' = w
  keys : (t.index.map (·.1)).Nodup
  /-- A listed closure without a live wrapper waits to be taken. -/
  queued : ∀ {c}, t.Lists c → ¬ t.HasWrapper c → c ∈ t.queue
  /-- What waits is listed. -/
  waiting : ∀ {c}, c ∈ t.queue → t.Lists c

theorem sound_empty : empty.Sound where
  pool := Pool.sound_empty
  listed h := by simp [empty, Pool.get?, Pool.cell?_empty] at h
  handedOut h := by simp [empty] at h
  content h := by simp [empty] at h
  keys := List.nodup_nil
  queued h := by
    obtain ⟨w, id, h, -⟩ := h
    simp [empty] at h
  waiting h := by simp [empty] at h

/-! ### Looking wrappers up -/

theorem Sound.isWrapped_iff (ht : t.Sound) : t.isWrapped c = true ↔ t.HasWrapper c := by
  simp only [isWrapped, List.any_eq_true, Bool.and_eq_true, decide_eq_true_eq, Prod.exists]
  constructor
  · rintro ⟨w, id, hmem, hc, hlive⟩
    obtain ⟨w', hw'⟩ := Pool.isLive_iff_get?.mp hlive
    rw [← ht.content hmem hw'] at hc
    exact ⟨id, w', hw', hc⟩
  · rintro ⟨id, w, hw, hc⟩
    exact ⟨w, id, ht.listed hw, hc, Pool.isLive_iff_get?.mpr ⟨w, hw⟩⟩

theorem lookup_eq_some_iff {l : List (Wrapper × Nat)} (hl : (l.map (·.1)).Nodup) :
    l.lookup w = some id ↔ (w, id) ∈ l := by
  induction l with
  | nil => simp
  | cons e rest ih =>
    obtain ⟨v, j⟩ := e
    rw [List.map_cons, List.nodup_cons] at hl
    by_cases hv : w = v
    · subst hv
      rw [List.lookup_cons_self, List.mem_cons]
      constructor
      · intro h
        rw [Option.some_inj] at h
        exact Or.inl (by rw [h])
      · rintro (h | h)
        · rw [(Prod.mk.injEq ..).mp h |>.2]
        · exact absurd (List.mem_map_of_mem h) hl.1
    · rw [List.lookup_cons, beq_eq_false_iff_ne.mpr hv, ih hl.2, List.mem_cons]
      simp [hv]

theorem Sound.find?_eq_some_iff (ht : t.Sound) :
    t.find? w = some id ↔ t.wrappers.get? id = some w := by
  rw [find?, Option.filter_eq_some_iff, lookup_eq_some_iff ht.keys]
  constructor
  · rintro ⟨hmem, hlive⟩
    obtain ⟨w', hw'⟩ := Pool.isLive_iff_get?.mp hlive
    rw [hw', ht.content hmem hw']
  · intro h
    exact ⟨ht.listed h, Pool.isLive_iff_get?.mpr ⟨w, h⟩⟩

theorem Sound.not_live_of_find?_eq_none (ht : t.Sound) (h : t.find? w = none) :
    t.wrappers.get? id ≠ some w := by
  intro hw
  rw [ht.find?_eq_some_iff.mpr hw] at h
  exact absurd h (by simp)

/-! ### Handles -/

theorem hasWrapper_retain : (t.retain id).HasWrapper c ↔ t.HasWrapper c := by
  simp only [HasWrapper, retain, Pool.get?_retain]

theorem Sound.retain (ht : t.Sound) : (t.retain id).Sound where
  pool := ht.pool.retain
  listed h := ht.listed (by rwa [Closures.retain, Pool.get?_retain] at h)
  handedOut h := by
    rw [Closures.retain, Pool.next_retain]
    exact ht.handedOut h
  content hmem h := ht.content hmem (by rwa [Closures.retain, Pool.get?_retain] at h)
  keys := ht.keys
  queued hl hw := ht.queued hl (by rwa [hasWrapper_retain] at hw)
  waiting h := ht.waiting h

/-- The queue after a handle is given up: the closure of a wrapper that goes comes last. -/
def queueAfter (t : Closures) (id : Nat) : List Int32 :=
  t.queue ++ ((t.wrappers.release id).1.map (·.closure)).toList

theorem release_eq :
    t.release id = ⟨(t.wrappers.release id).2, t.index, t.queueAfter id⟩ := by
  unfold release queueAfter
  cases h : t.wrappers.release id with
  | mk freed wrappers =>
    cases freed with
    | none => simp
    | some w => simp

/-- A closure loses its last wrapper only by being queued. -/
theorem Sound.mem_queueAfter (ht : t.Sound) (h : t.HasWrapper c)
    (h' : ¬ (t.release id).HasWrapper c) : c ∈ t.queueAfter id := by
  obtain ⟨j, w, hw, rfl⟩ := h
  have hlive : t.wrappers.isLive j = true := Pool.isLive_iff_get?.mpr ⟨w, hw⟩
  have hgone : (t.wrappers.release id).2.isLive j ≠ true := by
    intro hj
    obtain ⟨w', hw'⟩ := Pool.isLive_iff_get?.mp hj
    have hsame : w' = w := by
      have h₁ := Pool.get?_release_of_some hw'
      rw [hw, Option.some_inj] at h₁
      exact h₁.symm
    refine h' ⟨j, w, ?_, rfl⟩
    rw [release_eq, ← hsame]
    exact hw'
  rw [ne_eq, ht.pool.isLive_release] at hgone
  have hid : id = j ∧ t.wrappers.count j = 1 := by
    have := ht.pool.positive hlive
    by_contra hn
    refine hgone ⟨hlive, fun hj => ?_⟩
    have : t.wrappers.count j ≠ 1 := fun h1 => hn ⟨hj, h1⟩
    omega
  rw [queueAfter, hid.1, ht.pool.release_fst_eq, if_pos hid.2, hw]
  simp

theorem Sound.release (ht : t.Sound) : (t.release id).Sound where
  pool := by
    rw [release_eq]
    exact ht.pool.release
  listed h := by
    rw [release_eq] at h ⊢
    exact ht.listed (Pool.get?_release_of_some h)
  handedOut h := by
    rw [release_eq] at h ⊢
    rw [Pool.next_release]
    exact ht.handedOut h
  content hmem h := by
    rw [release_eq] at hmem h
    exact ht.content hmem (Pool.get?_release_of_some h)
  keys := by
    rw [release_eq]
    exact ht.keys
  queued {c} hl hw := by
    have hl' : t.Lists c := by rwa [release_eq] at hl
    rw [show (t.release id).queue = t.queueAfter id by rw [release_eq]]
    by_cases hc : t.HasWrapper c
    · exact ht.mem_queueAfter hc hw
    · exact List.mem_append_left _ (ht.queued hl' hc)
  waiting {c} h := by
    rw [release_eq, queueAfter, List.mem_append] at h
    have hl : t.Lists c := by
      rcases h with h | h
      · exact ht.waiting h
      · rw [Option.mem_toList, Option.map_eq_some_iff] at h
        obtain ⟨w, hw, hc⟩ := h
        rw [ht.pool.release_fst_eq] at hw
        split at hw
        · exact ⟨w, id, ht.listed hw, hc⟩
        · simp at hw
    rw [release_eq]
    exact hl

/-! ### Wrapping -/

theorem wrap_of_find?_eq_some (h : t.find? w = some id) : t.wrap w = (id, t.retain id) := by
  rw [wrap, h]

theorem wrap_of_find?_eq_none (h : t.find? w = none) :
    t.wrap w = (t.wrappers.next,
      ⟨(t.wrappers.alloc w).2, (w, t.wrappers.next) :: t.index.filter (·.1 ≠ w), t.queue⟩) := by
  rw [wrap, h]
  rfl

theorem mem_index_wrap {e : Wrapper × Nat} :
    e ∈ (w, t.wrappers.next) :: t.index.filter (·.1 ≠ w)
      ↔ e = (w, t.wrappers.next) ∨ (e ∈ t.index ∧ e.1 ≠ w) := by
  rw [List.mem_cons, List.mem_filter, decide_eq_true_eq]

theorem Sound.lists_wrap (ht : t.Sound) :
    (t.wrap w).2.Lists c ↔ w.closure = c ∨ t.Lists c := by
  cases h : t.find? w with
  | some id =>
    rw [wrap_of_find?_eq_some h]
    constructor
    · exact Or.inr
    · rintro (hc | hl)
      · exact ⟨w, id, ht.listed (ht.find?_eq_some_iff.mp h), hc⟩
      · exact hl
  | none =>
    rw [wrap_of_find?_eq_none h]
    simp only [Lists, mem_index_wrap]
    constructor
    · rintro ⟨v, j, hmem, hc⟩
      rcases hmem with hmem | hmem
      · exact Or.inl (by rw [← hc, (Prod.mk.injEq ..).mp hmem |>.1])
      · exact Or.inr ⟨v, j, hmem.1, hc⟩
    · rintro (hc | ⟨v, j, hmem, hc⟩)
      · exact ⟨w, t.wrappers.next, Or.inl rfl, hc⟩
      · by_cases hv : v = w
        · exact ⟨w, t.wrappers.next, Or.inl rfl, by rw [← hv, hc]⟩
        · exact ⟨v, j, Or.inr ⟨hmem, hv⟩, hc⟩

theorem Sound.hasWrapper_wrap (ht : t.Sound) :
    (t.wrap w).2.HasWrapper c ↔ w.closure = c ∨ t.HasWrapper c := by
  cases h : t.find? w with
  | some id =>
    rw [wrap_of_find?_eq_some h, hasWrapper_retain]
    constructor
    · exact Or.inr
    · rintro (hc | hw)
      · exact ⟨id, w, ht.find?_eq_some_iff.mp h, hc⟩
      · exact hw
  | none =>
    rw [wrap_of_find?_eq_none h]
    simp only [HasWrapper, Pool.get?_alloc]
    constructor
    · rintro ⟨j, v, hv, hc⟩
      split at hv
      · rw [Option.some_inj] at hv
        exact Or.inl (by rw [hv, hc])
      · exact Or.inr ⟨j, v, hv, hc⟩
    · rintro (hc | ⟨j, v, hv, hc⟩)
      · exact ⟨t.wrappers.next, w, by rw [if_pos rfl], hc⟩
      · have hj := ht.handedOut (ht.listed hv)
        exact ⟨j, v, by rw [if_neg (by omega)]; exact hv, hc⟩

theorem Sound.wrap (ht : t.Sound) : (t.wrap w).2.Sound := by
  cases h : t.find? w with
  | some id =>
    rw [wrap_of_find?_eq_some h]
    exact ht.retain
  | none =>
    have hlists := fun c => ht.lists_wrap (w := w) (c := c)
    have hwrapped := fun c => ht.hasWrapper_wrap (w := w) (c := c)
    rw [wrap_of_find?_eq_none h] at hlists hwrapped ⊢
    constructor
    case pool => exact ht.pool.alloc
    case listed =>
      intro j v hv
      rw [Pool.get?_alloc] at hv
      rw [mem_index_wrap]
      split at hv
      · rename_i hj
        rw [Option.some_inj] at hv
        exact Or.inl (by rw [hv, hj])
      · refine Or.inr ⟨ht.listed hv, fun hvw => ?_⟩
        exact ht.not_live_of_find?_eq_none h (by rw [← hvw]; exact hv)
    case handedOut =>
      intro v j hmem
      rw [mem_index_wrap] at hmem
      rw [Pool.next_alloc]
      rcases hmem with hmem | hmem
      · rw [(Prod.mk.injEq ..).mp hmem |>.2]
        exact Nat.lt_succ_self _
      · exact Nat.lt_succ_of_lt (ht.handedOut hmem.1)
    case content =>
      intro v j v' hmem hv'
      rw [mem_index_wrap] at hmem
      rw [Pool.get?_alloc] at hv'
      rcases hmem with hmem | hmem
      · obtain ⟨rfl, rfl⟩ := (Prod.mk.injEq ..).mp hmem
        rw [if_pos rfl, Option.some_inj] at hv'
        exact hv'.symm
      · have := ht.handedOut hmem.1
        rw [if_neg (by omega)] at hv'
        exact ht.content hmem.1 hv'
    case keys =>
      rw [List.map_cons, List.nodup_cons]
      constructor
      · simp
      · exact ht.keys.sublist (List.filter_sublist.map _)
    case queued =>
      -- the new wrapper is alive, so nothing about its closure has to be queued
      intro c hl hw
      rw [hwrapped, not_or] at hw
      exact ht.queued (((hlists c).mp hl).resolve_left hw.1) hw.2
    case waiting =>
      intro c hc
      exact (hlists c).mpr (Or.inr (ht.waiting hc))

/-! ### Taking the closures without wrappers -/

/-- A table whose queue is empty and whose index has lost some closures. -/
def without (t : Closures) (closures : List Int32) : Closures :=
  { t with index := t.index.filter (·.1.closure ∉ closures), queue := [] }

theorem lists_without {closures : List Int32} :
    (t.without closures).Lists c ↔ t.Lists c ∧ c ∉ closures := by
  simp only [Lists, without, List.mem_filter, decide_eq_true_eq]
  constructor
  · rintro ⟨w, id, ⟨hmem, hn⟩, rfl⟩
    exact ⟨⟨w, id, hmem, rfl⟩, hn⟩
  · rintro ⟨⟨w, id, hmem, rfl⟩, hn⟩
    exact ⟨w, id, ⟨hmem, hn⟩, rfl⟩

theorem isWrapped_without {closures : List Int32} (hc : c ∉ closures) :
    (t.without closures).isWrapped c = t.isWrapped c := by
  rw [isWrapped, isWrapped, without, List.any_filter]
  congr 1
  funext e
  by_cases he : e.1.closure = c
  · simp [he, hc]
  · simp [he]

theorem forget_without {closures : List Int32} :
    (t.without closures).forget c = t.without (closures ++ [c]) := by
  rw [forget, without, without, List.filter_filter]
  congr 2
  funext e
  simp only [List.mem_append, List.mem_singleton, ne_eq, ← Bool.decide_and, not_or]
  congr 1
  exact propext and_comm

/-- One queued id is looked at: those that are wrapped or taken already change nothing. -/
theorem take_without {closures : List Int32} :
    take (closures, t.without closures) c
      = if t.isWrapped c = false ∧ c ∉ closures then
          (closures ++ [c], t.without (closures ++ [c]))
        else (closures, t.without closures) := by
  by_cases hmem : c ∈ closures
  · simp [take, hmem]
  · cases hw : t.isWrapped c with
    | true => simp [take, isWrapped_without hmem, hw]
    | false => simp [take, isWrapped_without hmem, hw, hmem, forget_without]

/-- By induction on the queue: what has been taken is the queued closures without a wrapper, each
once, and the table has forgotten just those. -/
theorem foldl_take (queue : List Int32) : ∀ closures : List Int32, closures.Nodup →
    ∃ taken : List Int32,
      queue.foldl take (closures, t.without closures) = (taken, t.without taken) ∧
      taken.Nodup ∧
      ∀ c, c ∈ taken ↔ c ∈ closures ∨ (c ∈ queue ∧ t.isWrapped c = false) := by
  induction queue with
  | nil =>
    intro closures hn
    exact ⟨closures, rfl, hn, by simp⟩
  | cons d rest ih =>
    intro closures hn
    rw [List.foldl_cons, take_without]
    by_cases hd : t.isWrapped d = false ∧ d ∉ closures
    -- `d` is taken now
    · rw [if_pos hd]
      have hn' : (closures ++ [d]).Nodup :=
        List.nodup_append.mpr ⟨hn, List.nodup_singleton d, by
          intro a ha b hb hab
          rw [List.mem_singleton] at hb
          exact hd.2 (by rw [← hb, ← hab]; exact ha)⟩
      obtain ⟨taken, heq, hnodup, hmem⟩ := ih (closures ++ [d]) hn'
      refine ⟨taken, heq, hnodup, fun c => ?_⟩
      rw [hmem, List.mem_append, List.mem_singleton, List.mem_cons]
      constructor
      · rintro ((h | rfl) | h)
        · exact Or.inl h
        · exact Or.inr ⟨Or.inl rfl, hd.1⟩
        · exact Or.inr ⟨Or.inr h.1, h.2⟩
      · rintro (h | ⟨rfl | h, hw⟩)
        · exact Or.inl (Or.inl h)
        · exact Or.inl (Or.inr rfl)
        · exact Or.inr ⟨h, hw⟩
    -- `d` is passed over: wrapped, or taken already
    · rw [if_neg hd]
      obtain ⟨taken, heq, hnodup, hmem⟩ := ih closures hn
      refine ⟨taken, heq, hnodup, fun c => ?_⟩
      rw [hmem, List.mem_cons]
      constructor
      · rintro (h | h)
        · exact Or.inl h
        · exact Or.inr ⟨Or.inr h.1, h.2⟩
      · rintro (h | ⟨rfl | h, hw⟩)
        · exact Or.inl h
        · exact Or.inl (by_contra fun hc => hd ⟨hw, hc⟩)
        · exact Or.inr ⟨h, hw⟩

theorem takeOrphans_snd : t.takeOrphans.2 = t.without t.takeOrphans.1 := by
  obtain ⟨taken, heq, -, -⟩ := foldl_take (t := t) t.queue [] List.nodup_nil
  have h : t.takeOrphans = (taken, t.without taken) := by
    rw [← heq, takeOrphans]
    congr 2
    simp [without]
  rw [h]

theorem takeOrphans_mem_queue :
    t.takeOrphans.1.Nodup ∧
      ∀ c, c ∈ t.takeOrphans.1 ↔ c ∈ t.queue ∧ t.isWrapped c = false := by
  obtain ⟨taken, heq, hnodup, hmem⟩ := foldl_take (t := t) t.queue [] List.nodup_nil
  have h : t.takeOrphans = (taken, t.without taken) := by
    rw [← heq, takeOrphans]
    congr 2
    simp [without]
  rw [h]
  exact ⟨hnodup, by simpa using hmem⟩

theorem nodup_takeOrphans : t.takeOrphans.1.Nodup := takeOrphans_mem_queue.1

theorem Sound.mem_takeOrphans (ht : t.Sound) :
    c ∈ t.takeOrphans.1 ↔ t.Lists c ∧ ¬ t.HasWrapper c := by
  rw [takeOrphans_mem_queue.2, ← ht.isWrapped_iff, Bool.not_eq_true]
  constructor
  · rintro ⟨hq, hw⟩
    exact ⟨ht.waiting hq, hw⟩
  · rintro ⟨hl, hw⟩
    refine ⟨ht.queued hl ?_, hw⟩
    rw [← ht.isWrapped_iff, hw]
    exact Bool.false_ne_true

theorem lists_takeOrphans : t.takeOrphans.2.Lists c ↔ t.Lists c ∧ c ∉ t.takeOrphans.1 := by
  rw [takeOrphans_snd, lists_without]

theorem wrappers_takeOrphans : t.takeOrphans.2.wrappers = t.wrappers := by
  rw [takeOrphans_snd]
  rfl

theorem hasWrapper_takeOrphans : t.takeOrphans.2.HasWrapper c ↔ t.HasWrapper c := by
  simp only [HasWrapper, wrappers_takeOrphans]

theorem Sound.takeOrphans (ht : t.Sound) : t.takeOrphans.2.Sound where
  pool := by
    rw [wrappers_takeOrphans]
    exact ht.pool
  listed {id w} h := by
    rw [wrappers_takeOrphans] at h
    rw [takeOrphans_snd, without, List.mem_filter, decide_eq_true_eq]
    refine ⟨ht.listed h, fun hmem => ?_⟩
    exact (ht.mem_takeOrphans.mp hmem).2 ⟨id, w, h, rfl⟩
  handedOut h := by
    rw [takeOrphans_snd] at h
    rw [wrappers_takeOrphans]
    exact ht.handedOut (List.mem_of_mem_filter h)
  content hmem h := by
    rw [takeOrphans_snd] at hmem
    rw [wrappers_takeOrphans] at h
    exact ht.content (List.mem_of_mem_filter hmem) h
  keys := by
    rw [takeOrphans_snd]
    exact ht.keys.sublist (List.filter_sublist.map _)
  queued {c} hl hw := by
    rw [lists_takeOrphans] at hl
    rw [hasWrapper_takeOrphans] at hw
    exact absurd (ht.mem_takeOrphans.mpr ⟨hl.1, hw⟩) hl.2
  waiting h := by
    rw [takeOrphans_snd] at h
    exact absurd h (List.not_mem_nil)

end Closures

end ModuleHost
