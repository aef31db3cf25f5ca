/-
Texts of values that hold each other.

A value is written with the texts of its items inside, and arrays and objects may hold each other in
any way, themselves included.  What is being written is on a stack: it is not written again inside
itself, and it is taken off again before anything is written behind it.

* `Rendering` — how values are written: what they open, its items, and the texts around them;
* `Rendering.run` — writing with the stack as a state;
* `Rendering.text` — the texts, with the stack handed down;
* `Rendering.plain` — writing without a stack;
* `Rendering.room` — how much could still be opened, which is what bounds the recursion;
* `Rendering.run_eq`, `Rendering.plain_eq` — how the three are related;
* `Rendering.Correct`, `Rendering.correct` — what is to be said of a rendering, and that it holds.

Design notes: each of the three has fuel, and only `text` is total.  `run` and `plain` give nothing
when they run out of it, so that they give something means that they end.
-/
import Mathlib
import ModuleHost.Value.Basic

namespace ModuleHost

variable {κ : Type}

/-- How values are written. -/
structure Rendering (κ : Type) where
  /-- What a value that is written with items inside opens. -/
  opens : Value → Option κ
  /-- The items inside; nothing is written for those that are left out. -/
  items : κ → List (Option Value)
  /-- The text of a value that opens nothing. -/
  leaf : Value → String
  /-- The text of something inside itself. -/
  inside : κ → String
  /-- The text of something, put together from those of its items. -/
  join : κ → List String → String

namespace Rendering

/-! ### What is reached -/

/-- Something is opened by an item of something else. -/
def Within (R : Rendering κ) (t t' : κ) : Prop := ∃ v, some v ∈ R.items t ∧ R.opens v = some t'

/-- Something is opened by a value or anywhere inside it. -/
def Reaches (R : Rendering κ) (v : Value) (t : κ) : Prop :=
  ∃ t₀, R.opens v = some t₀ ∧ Relation.ReflTransGen R.Within t₀ t

variable {R : Rendering κ} {v u : Value} {t t' : κ}

theorem Reaches.opened (hv : R.opens v = some t) : R.Reaches v t := ⟨t, hv, .refl⟩

/-- What an item reaches is properly within what the item is in. -/
theorem Reaches.within (hu : some u ∈ R.items t) (h : R.Reaches u t') :
    Relation.TransGen R.Within t t' := by
  obtain ⟨t₀, ht₀, hreach⟩ := h
  exact .head' ⟨u, hu, ht₀⟩ hreach

theorem Reaches.of_item (hv : R.opens v = some t) (hu : some u ∈ R.items t)
    (h : R.Reaches u t') : R.Reaches v t' :=
  ⟨t, hv, (h.within hu).to_reflTransGen⟩

/-! ### Items -/

/-- Write items one after the other. -/
def each {μ : Type → Type} [Monad μ] (write : Value → μ String) (items : List (Option Value)) :
    μ (List String) :=
  items.mapM fun item => item.elim (pure "") write

/-- The texts of items. -/
def texts (text : Value → String) (items : List (Option Value)) : List String :=
  items.map fun item => item.elim "" text

section Items

variable {text text' : Value → String} {items : List (Option Value)} {stack : List κ}

theorem texts_congr (h : ∀ u, some u ∈ items → text u = text' u) :
    texts text items = texts text' items := by
  refine List.map_congr_left fun item hitem => ?_
  cases item with
  | none => rfl
  | some u => exact h u hitem

/-- What items give, one after the other, in whatever sense of giving that goes through binds. -/
theorem each_gives {μ : Type → Type} [Monad μ] [LawfulMonad μ] {write : Value → μ String}
    (Gives : ∀ {α : Type}, μ α → α → Prop) (hpure : ∀ {α : Type} (a : α), Gives (pure a) a)
    (hbind : ∀ {α β : Type} {x : μ α} {k : α → μ β} {a : α} {b : β},
      Gives x a → Gives (k a) b → Gives (x >>= k) b)
    (h : ∀ u, some u ∈ items → Gives (write u) (text u)) :
    Gives (each write items) (texts text items) := by
  induction items with
  | nil => exact hpure []
  | cons item rest ih =>
    have hitem : Gives (item.elim (pure "") write) (item.elim "" text) := by
      cases item with
      | none => exact hpure ""
      | some u => exact h u List.mem_cons_self
    have hrest := ih fun u hu => h u (List.mem_cons_of_mem _ hu)
    rw [each, List.mapM_cons]
    exact hbind hitem (hbind hrest (hpure _))

/-- Items that each leave the stack as it was. -/
theorem each_stack {write : Value → StateT (List κ) Option String}
    (h : ∀ u, some u ∈ items → write u stack = some (text u, stack)) :
    each write items stack = some (texts text items, stack) := by
  refine each_gives (fun (x : StateT (List κ) Option _) a => x stack = some (a, stack))
    (fun a => rfl) (fun hx hk => ?_) h
  exact (congrArg (Option.bind · _) hx).trans hk

theorem each_option {write : Value → Option String}
    (h : ∀ u, some u ∈ items → write u = some (text u)) :
    each write items = some (texts text items) := by
  refine each_gives (fun x a => x = some a) (fun a => rfl) (fun hx hk => ?_) h
  rw [hx]
  exact hk

end Items

/-! ### Writing values -/

/-- Write a value without a stack. -/
def plain (R : Rendering κ) : (fuel : ℕ) → Value → Option String
  | 0, _ => none
  | fuel + 1, v =>
    match R.opens v with
    | none => some (R.leaf v)
    | some t => return R.join t (← each (plain R fuel) (R.items t))

variable [DecidableEq κ]

/-- Write something, unless it is on the stack already. -/
def once (t : κ) (again : String) (body : StateT (List κ) Option String) :
    StateT (List κ) Option String := do
  if t ∈ (← get) then return again
  modify (t :: ·)
  let text ← body
  modify List.tail
  return text

/-- Write a value, with a stack of what is being written. -/
def run (R : Rendering κ) : (fuel : ℕ) → Value → StateT (List κ) Option String
  | 0, _ => failure
  | fuel + 1, v =>
    match R.opens v with
    | none => return R.leaf v
    | some t => once t (R.inside t) (return R.join t (← each (run R fuel) (R.items t)))

/-- The text of a value inside what is being written. -/
def text (R : Rendering κ) : (fuel : ℕ) → (stack : List κ) → Value → String
  | fuel, stack, v =>
    match R.opens v, fuel with
    | none, _ => R.leaf v
    | some t, 0 => R.inside t
    | some t, fuel + 1 =>
      if t ∈ stack then R.inside t
      else R.join t (texts (text R fuel (t :: stack)) (R.items t))

variable {stack stack' : List κ} {fuel fuel' : ℕ} {nodes : Finset κ}

/-! ### Room -/

/-- How many things could still be opened. -/
def room (nodes : Finset κ) (stack : List κ) : ℕ := (nodes.filter (· ∉ stack)).card

theorem room_le (nodes : Finset κ) (stack : List κ) : room nodes stack ≤ nodes.card :=
  Finset.card_filter_le _ _

theorem room_cons (ht : t ∈ nodes) (hs : t ∉ stack) :
    room nodes (t :: stack) < room nodes stack := by
  refine Finset.card_lt_card ⟨fun x hx => ?_, fun hsub => ?_⟩
  · rw [Finset.mem_filter, List.mem_cons, not_or] at hx
    exact Finset.mem_filter.mpr ⟨hx.1, hx.2.2⟩
  · have hopened := hsub (Finset.mem_filter.mpr ⟨ht, hs⟩)
    exact (Finset.mem_filter.mp hopened).2 List.mem_cons_self

/-- Whatever holds items is one of these. -/
def HasNodes (R : Rendering κ) (nodes : Finset κ) : Prop := ∀ t ∉ nodes, R.items t = []

/-- There is less room for the items of what is opened. -/
theorem HasNodes.room_lt (hR : R.HasNodes nodes) (hs : t ∉ stack)
    (hu : some u ∈ R.items t) : room nodes (t :: stack) < room nodes stack := by
  refine room_cons ?_ hs
  by_contra hn
  rw [hR t hn] at hu
  exact List.not_mem_nil hu

/-! ### Writing with a stack -/

theorem once_of_mem (hs : t ∈ stack) (again : String) (body : StateT (List κ) Option String) :
    once t again body stack = some (again, stack) := by
  show (if t ∈ stack then (pure again : StateT (List κ) Option String) else _) stack = _
  rw [if_pos hs]
  rfl

/-- The stack is restored when the body has restored it. -/
theorem once_of_not_mem (hs : t ∉ stack) (again : String) {body : StateT (List κ) Option String}
    {text : String} (hbody : body (t :: stack) = some (text, t :: stack)) :
    once t again body stack = some (text, stack) := by
  show (if t ∈ stack then (pure again : StateT (List κ) Option String) else _) stack = _
  rw [if_neg hs]
  show (body (t :: stack)).bind (fun a => some (a.1, a.2.tail)) = _
  rw [hbody]
  rfl

/-- Writing a value ends with its text, and the stack is as it was, with whatever fuel exceeds the
room.  By induction on the fuel: opening something leaves less room for its items. -/
theorem run_eq (hR : R.HasNodes nodes) : ∀ {fuel fuel' : ℕ} {stack : List κ} {v : Value},
    room nodes stack < fuel → room nodes stack < fuel' →
    R.run fuel v stack = some (R.text fuel' stack v, stack) := by
  intro fuel
  induction fuel with
  | zero => exact fun hroom => absurd hroom (Nat.not_lt_zero _)
  | succ fuel ih =>
    intro fuel' stack v hroom hroom'
    obtain ⟨k, rfl⟩ := Nat.exists_eq_succ_of_ne_zero (Nat.ne_zero_of_lt hroom')
    unfold run text
    cases hv : R.opens v with
    | none => rfl
    | some t =>
      by_cases hs : t ∈ stack
      · simp only [if_pos hs]
        exact once_of_mem hs _ _
      · simp only [if_neg hs]
        have hitems : each (run R fuel) (R.items t) (t :: stack)
            = some (texts (R.text k (t :: stack)) (R.items t), t :: stack) := by
          refine each_stack fun u hu => ?_
          -- the item has less room, so what is left of the fuel is enough for it
          have hless := hR.room_lt hs hu
          exact ih (by omega) (by omega)
        refine once_of_not_mem hs _ ?_
        show (each (run R fuel) (R.items t) (t :: stack)).bind
          (fun a => some (R.join t a.1, a.2)) = _
        rw [hitems]
        rfl

/-- How much fuel there is does not matter. -/
theorem text_fuel (hR : R.HasNodes nodes) (hroom : room nodes stack < fuel)
    (hroom' : room nodes stack < fuel') : R.text fuel stack v = R.text fuel' stack v := by
  have hrun := (run_eq hR hroom hroom (v := v)).symm.trans (run_eq hR hroom hroom')
  exact congrArg Prod.fst (Option.some.inj hrun)

/-! ### The texts -/

theorem text_of_mem (hv : R.opens v = some t) (hs : t ∈ stack) (fuel : ℕ) :
    R.text fuel stack v = R.inside t := by
  unfold text
  rw [hv]
  cases fuel with
  | zero => rfl
  | succ fuel => exact if_pos hs

/-- What is not on the stack is written in full. -/
theorem text_of_not_mem (hR : R.HasNodes nodes) (hroom : nodes.card < fuel)
    (hv : R.opens v = some t) (hs : t ∉ stack) :
    R.text fuel stack v = R.join t (texts (R.text fuel (t :: stack)) (R.items t)) := by
  obtain ⟨k, rfl⟩ := Nat.exists_eq_succ_of_ne_zero (Nat.ne_zero_of_lt hroom)
  have hopen : R.text (k + 1) stack v
      = R.join t (texts (R.text k (t :: stack)) (R.items t)) := by
    conv_lhs => unfold text
    rw [hv]
    exact if_neg hs
  rw [hopen]
  -- the items have one less of fuel than the value, which makes no difference
  refine congrArg (R.join t) (texts_congr fun u hu => ?_)
  have hless := hR.room_lt hs hu
  have hle := room_le nodes stack
  exact text_fuel hR (by omega) (by omega)

/-- Only what a value reaches matters of the stack. -/
theorem text_stack : ∀ {fuel : ℕ} {stack stack' : List κ} {v : Value},
    (∀ t, R.Reaches v t → (t ∈ stack ↔ t ∈ stack')) →
    R.text fuel stack v = R.text fuel stack' v := by
  intro fuel
  induction fuel with
  | zero =>
    intro stack stack' v _
    unfold text
    cases R.opens v <;> rfl
  | succ fuel ih =>
    intro stack stack' v hsame
    unfold text
    cases hv : R.opens v with
    | none => rfl
    | some t =>
      have hitems : texts (R.text fuel (t :: stack)) (R.items t)
          = texts (R.text fuel (t :: stack')) (R.items t) := by
        refine texts_congr fun u hu => ih fun t' ht' => ?_
        rw [List.mem_cons, List.mem_cons, hsame t' (ht'.of_item hv hu)]
      simp only [hsame t (.opened hv), hitems]

/-! ### Writing without a stack -/

/-- Where no cycle is reached, a value is written as it is without a stack. -/
theorem plain_eq (hR : R.HasNodes nodes) : ∀ {fuel fuel' : ℕ} {stack : List κ} {v : Value},
    room nodes stack < fuel → room nodes stack < fuel' →
    (∀ t, R.Reaches v t → t ∉ stack ∧ ¬ Relation.TransGen R.Within t t) →
    R.plain fuel v = some (R.text fuel' stack v) := by
  intro fuel
  induction fuel with
  | zero => exact fun hroom => absurd hroom (Nat.not_lt_zero _)
  | succ fuel ih =>
    intro fuel' stack v hroom hroom' hacyclic
    obtain ⟨k, rfl⟩ := Nat.exists_eq_succ_of_ne_zero (Nat.ne_zero_of_lt hroom')
    unfold plain text
    cases hv : R.opens v with
    | none => rfl
    | some t =>
      obtain ⟨hs, hcycle⟩ := hacyclic t (.opened hv)
      have hitems : each (plain R fuel) (R.items t)
          = some (texts (R.text k (t :: stack)) (R.items t)) := by
        refine each_option fun u hu => ?_
        have hless := hR.room_lt hs hu
        refine ih (by omega) (by omega) fun t' ht' => ?_
        obtain ⟨hs', hcycle'⟩ := hacyclic t' (ht'.of_item hv hu)
        -- what is inside is not what it is in: that would be a cycle
        have hne : t' ≠ t := by
          rintro rfl
          exact hcycle (ht'.within hu)
        exact ⟨fun hmem => (List.mem_cons.mp hmem).elim hne hs', hcycle'⟩
      simp only [if_neg hs, hitems]
      rfl

/-! ### What is to be said of a rendering -/

/-- The texts that a rendering is to have: writing a value ends and leaves the stack as it was, what
is on the stack is cut short and everything else is written in full, and without cycles the texts
are those of writing without a stack. -/
structure Correct (R : Rendering κ) (text : List κ → Value → String) : Prop where
  /-- Writing a value ends with its text and the stack as it was. -/
  terminates : ∀ stack v, ∃ enough, ∀ fuel ≥ enough,
    R.run fuel v stack = some (text stack v, stack)
  /-- Something inside itself. -/
  inside : ∀ {stack v t}, R.opens v = some t → t ∈ stack → text stack v = R.inside t
  /-- Something that is not inside itself, wherever it occurs: all its items are written. -/
  full : ∀ {stack v t}, R.opens v = some t → t ∉ stack →
    text stack v = R.join t (texts (text (t :: stack)) (R.items t))
  /-- What a value does not reach may be on the stack or not. -/
  unaffected : ∀ {stack v}, (∀ t, R.Reaches v t → t ∉ stack) → text stack v = text [] v
  /-- Without cycles, writing without a stack ends with the same text. -/
  acyclic : ∀ {v}, (∀ t, R.Reaches v t → ¬ Relation.TransGen R.Within t t) →
    ∃ enough, ∀ fuel ≥ enough, R.plain fuel v = some (text [] v)

theorem correct (hR : R.HasNodes nodes) (hfuel : nodes.card < fuel) :
    R.Correct (R.text fuel) where
  terminates _ _ :=
    ⟨fuel, fun _ hmore => run_eq hR ((room_le _ _).trans_lt (hfuel.trans_le hmore))
      ((room_le _ _).trans_lt hfuel)⟩
  inside hv hs := text_of_mem hv hs fuel
  full hv hs := text_of_not_mem hR hfuel hv hs
  unaffected hout := text_stack fun t ht => iff_of_false (hout t ht) List.not_mem_nil
  acyclic hacyclic :=
    ⟨fuel, fun _ hmore => plain_eq hR ((room_le _ _).trans_lt (hfuel.trans_le hmore))
      ((room_le _ _).trans_lt hfuel) fun t ht => ⟨List.not_mem_nil, hacyclic t ht⟩⟩

end Rendering

end ModuleHost
