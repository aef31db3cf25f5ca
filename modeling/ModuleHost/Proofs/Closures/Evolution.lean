/-
Closures that have been taken and not wrapped since.

A table of wrappers evolves by four operations.  Numbers of wrappers grow, so one number
separates what was made before a moment from what was made after it: once a closure has been
taken, only wrappers made later are ever listed for it again.

* `Closures.Evolves.sound` — evolutions keep `Closures.Sound`;
* `Closures.ForgottenBelow` — no wrapper of the closure with a number below `n` is listed;
  evolutions keep it, and taking a closure brings it about;
* `ForgottenBelow.hasWrapper_iff`, `.lists_iff` — a forgotten closure has a live wrapper, or
  is listed, exactly through wrappers made since.
-/
import Mathlib
import ModuleHost.Proofs.Closures.Table

namespace ModuleHost

namespace Closures

/-- One operation on a table of wrappers. -/
inductive Change (t : Closures) : Closures → Prop
  | retained (id : Nat) : Change t (t.retain id)
  | released (id : Nat) : Change t (t.release id)
  | wrapped (w : Wrapper) : Change t (t.wrap w).2
  | taken : Change t t.takeOrphans.2

/-- Any number of operations in a row. -/
def Evolves : Closures → Closures → Prop := Relation.ReflTransGen Change

variable {t t' : Closures} {c : Int32} {n : Nat}

theorem Change.evolves (hc : Change t t') : t.Evolves t' := Relation.ReflTransGen.single hc

theorem Evolves.refl : t.Evolves t := Relation.ReflTransGen.refl

theorem Evolves.keeps {P : Closures → Prop} (hev : t.Evolves t')
    (hstep : ∀ {a b : Closures}, a.Change b → P a → P b) (hp : P t) : P t' := by
  induction hev with
  | refl => exact hp
  | tail _ hc ih => exact hstep hc ih

theorem Change.sound (hc : t.Change t') (ht : t.Sound) : t'.Sound := by
  cases hc with
  | retained id => exact ht.retain
  | released id => exact ht.release
  | wrapped w => exact ht.wrap
  | taken => exact ht.takeOrphans

theorem Evolves.sound (hev : t.Evolves t') (ht : t.Sound) : t'.Sound :=
  hev.keeps Change.sound ht

/-! ### What is forgotten stays forgotten -/

/-- The index lists no wrapper of a closure with a number below `n`, and the next number is
not below `n` either. -/
structure ForgottenBelow (t : Closures) (n : Nat) (c : Int32) : Prop where
  reached : n ≤ t.wrappers.next
  forgotten : ∀ {w id}, (w, id) ∈ t.index → w.closure = c → n ≤ id

theorem Change.forgottenBelow (hc : t.Change t') (h : t.ForgottenBelow n c) :
    t'.ForgottenBelow n c := by
  cases hc with
  | retained id => exact ⟨by rw [retain, Pool.next_retain]; exact h.reached, h.forgotten⟩
  | released id =>
    rw [release_eq]
    exact ⟨by rw [Pool.next_release]; exact h.reached, h.forgotten⟩
  | wrapped w =>
    cases hf : t.find? w with
    | some id =>
      rw [wrap_of_find?_eq_some hf]
      exact ⟨by rw [retain, Pool.next_retain]; exact h.reached, h.forgotten⟩
    | none =>
      rw [wrap_of_find?_eq_none hf]
      -- a fresh wrapper has the next number, which is not below `n`
      refine ⟨Nat.le_succ_of_le h.reached, fun hmem hv => ?_⟩
      rcases mem_index_wrap.mp hmem with heq | hold
      · rw [(Prod.mk.injEq ..).mp heq |>.2]
        exact h.reached
      · exact h.forgotten hold.1 hv
  | taken =>
    refine ⟨by rw [wrappers_takeOrphans]; exact h.reached, fun hmem hv => ?_⟩
    rw [takeOrphans_snd] at hmem
    exact h.forgotten (List.mem_of_mem_filter hmem) hv

theorem Evolves.forgottenBelow (hev : t.Evolves t') (h : t.ForgottenBelow n c) :
    t'.ForgottenBelow n c := hev.keeps Change.forgottenBelow h

/-- A closure that is taken is forgotten up to that moment. -/
theorem forgottenBelow_takeOrphans (hc : c ∈ t.takeOrphans.1) :
    t.takeOrphans.2.ForgottenBelow t.wrappers.next c where
  reached := by rw [wrappers_takeOrphans]
  forgotten {w id} hmem hw := by
    have hlists : t.takeOrphans.2.Lists c := ⟨w, id, hmem, hw⟩
    exact absurd hc (lists_takeOrphans.mp hlists).2

/-! ### Wrappers made since -/

/-- Some wrapper of a closure with a number from `n` on has a handle. -/
def HasWrapperFrom (t : Closures) (n : Nat) (c : Int32) : Prop :=
  ∃ id w, n ≤ id ∧ t.wrappers.get? id = some w ∧ w.closure = c

/-- The index lists a wrapper of a closure with a number from `n` on. -/
def ListsFrom (t : Closures) (n : Nat) (c : Int32) : Prop :=
  ∃ w id, n ≤ id ∧ (w, id) ∈ t.index ∧ w.closure = c

theorem ForgottenBelow.hasWrapper_iff (h : t.ForgottenBelow n c) (ht : t.Sound) :
    t.HasWrapper c ↔ t.HasWrapperFrom n c := by
  constructor
  · rintro ⟨id, w, hw, hc⟩
    exact ⟨id, w, h.forgotten (ht.listed hw) hc, hw, hc⟩
  · rintro ⟨id, w, -, hw, hc⟩
    exact ⟨id, w, hw, hc⟩

theorem ForgottenBelow.lists_iff (h : t.ForgottenBelow n c) :
    t.Lists c ↔ t.ListsFrom n c := by
  constructor
  · rintro ⟨w, id, hmem, hc⟩
    exact ⟨w, id, h.forgotten hmem hc, hmem, hc⟩
  · rintro ⟨w, id, -, hmem, hc⟩
    exact ⟨w, id, hmem, hc⟩

/-- No wrapper has been made yet. -/
theorem Sound.not_hasWrapperFrom_next (ht : t.Sound) : ¬ t.HasWrapperFrom t.wrappers.next c := by
  rintro ⟨id, w, hid, hw, -⟩
  have := ht.handedOut (ht.listed hw)
  omega

end Closures

end ModuleHost
