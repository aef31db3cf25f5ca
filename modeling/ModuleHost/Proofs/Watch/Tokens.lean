/-
Which registrations a token drops.

A registry keeps a weak handle on the token of a registration and not the token itself, and a weak
handle on a window is one on its buffer.  So a token drops what was registered with it, and besides
what was registered with its buffer or with another window on that buffer.

* `Value.shares`, `Value.weak?_eq_iff` — the values that one weak handle stands for;
* `enrolments`, `enrolled` — the registrations of a run, each with the token it was made with;
* `Drops`, `exists_drops` — what `unregister` does, told from the tokens;
* `not_shares_of_gone` — a token whose payload is gone is never met again;
* `unregister_exact_iff` — the main theorem.

Design notes: no state has the tokens any more, so they are read off the moments of a run, beside
the registrations that `Reports` follows.
-/
import Mathlib
import ModuleHost.Proofs.Watch.Reports
import ModuleHost.Proofs.Value.Sameness

namespace ModuleHost

/-! ### Values with one weak handle -/

namespace Value

variable {v w : Value} {k : Target}

/-- The buffer that a value is or is a window on. -/
def buffer? : Value → Option ℕ
  | buffer id => some id
  | typedArray view => some view.buffer
  | dataView view => some view.buffer
  | _ => none

/-- Whether values are the same or on one buffer. -/
def shares (v w : Value) : Bool := v.same w || (v.buffer?.isSome && v.buffer? = w.buffer?)

theorem shares_of_same (h : v.same w = true) : v.shares w = true := by
  rw [shares, h, Bool.true_or]

theorem shares_symm (h : v.shares w = true) : w.shares v = true := by
  rw [shares, Bool.or_eq_true, Bool.and_eq_true, decide_eq_true_eq] at h ⊢
  obtain hsame | ⟨hsome, heq⟩ := h
  · exact .inl (same_symm hsame)
  · exact .inr ⟨heq ▸ hsome, heq.symm⟩

theorem weak?_of_buffer? {b : ℕ} (h : v.buffer? = some b) : v.weak? = some (.buffer b) := by
  cases v <;> cases h <;> rfl

theorem buffer?_of_weak? {b : ℕ} (h : v.weak? = some (.buffer b)) : v.buffer? = some b := by
  cases v <;> cases h <;> rfl

/-- Values with a weak handle on a payload that is not a buffer are told apart by it. -/
theorem eq_of_weak? (hv : v.weak? = some k) (hw : w.weak? = some k) (hk : w.buffer? = none) :
    v = w := by
  cases w <;> cases hk <;> cases hw <;> cases v <;> cases hv <;> rfl

theorem same_self_of_weak? (hv : v.weak? = some k) : v.same v = true := by
  cases v <;> cases hv <;> simp [same_eq]

/-- Whoever has the weak handle of a value is the same or on its buffer. -/
theorem weak?_eq_iff (hw : w.weak? = some k) : v.weak? = some k ↔ v.shares w = true := by
  constructor
  · intro hv
    cases hb : w.buffer? with
    | none =>
      obtain rfl := eq_of_weak? hv hw hb
      exact shares_of_same (same_self_of_weak? hv)
    | some b =>
      rw [weak?_of_buffer? hb] at hw
      obtain rfl := Option.some.inj hw
      simp [shares, buffer?_of_weak? hv, hb]
  · intro h
    rw [shares, Bool.or_eq_true, Bool.and_eq_true, decide_eq_true_eq, Option.isSome_iff_exists] at h
    obtain hsame | ⟨⟨b, hb⟩, heq⟩ := h
    · obtain rfl | ⟨x, y, rfl, rfl, -⟩ := eq_or_zeros_of_same hsame
      · exact hw
      · cases hw
    · rw [← hw, weak?_of_buffer? hb, weak?_of_buffer? (heq ▸ hb)]

end Value

/-! ### Registrations and their tokens -/

/-- The token that a move registers with. -/
def Move.token? : Move → Option Value
  | register _ _ _ token => token
  | _ => none

/-- A registration and the token it was made with. -/
structure Enrolment where
  token : Option Value
  registration : Registration

/-- Whether the token is one of these. -/
def Enrolment.tokenIs (e : Enrolment) (p : Value → Bool) : Bool := e.token.any p

/-- The registrations with a registry and their tokens, oldest first. -/
def enrolments (r : ℕ) : List Moment → List Enrolment
  | [] => []
  | m :: later =>
    (m.added? r).toList.map (fun c => ⟨m.move.token?, ⟨c, later⟩⟩) ++ enrolments r later

/-- The registrations that no moment has removed, and their tokens. -/
def enrolled (r : ℕ) (past : List Moment) : List Enrolment :=
  (enrolments r past).filter (·.registration.waits r)

section Enrolments

variable {r : ℕ} {past : List Moment} {e : Enrolment}

theorem map_registration_enrolments :
    (enrolments r past).map (·.registration) = registrations r past := by
  induction past with
  | nil => rfl
  | cons m later ih => simp [enrolments, registrations, ih, Function.comp_def]

theorem map_cell_enrolled : (enrolled r past).map (·.registration.cell) = waiting r past := by
  rw [enrolled, waiting, ← map_registration_enrolments, List.filter_map, List.map_map]
  rfl

/-- Every registration was made by a move. -/
theorem exists_moment_of_mem (he : e ∈ enrolments r past) :
    ∃ m ∈ past, m.added? r = some e.registration.cell ∧ e.token = m.move.token? := by
  induction past with
  | nil => exact absurd he List.not_mem_nil
  | cons m later ih =>
    rw [enrolments, List.mem_append, List.mem_map] at he
    obtain ⟨c, hc, rfl⟩ | he := he
    · exact ⟨m, List.mem_cons_self, Option.mem_toList.mp hc, rfl⟩
    · obtain ⟨m', hm', hadded⟩ := ih he
      exact ⟨m', List.mem_cons_of_mem m hm', hadded⟩

/-- A cell with a token has its weak handle. -/
theorem WatchCell.token_of? {target held : Value} {token : Option Value} {c : WatchCell}
    (h : of? target held token = some c) :
    c.token = token.bind Value.weak? ∧ ∀ t, token = some t → t.weak?.isSome = true := by
  unfold of? at h
  split at h
  · cases h
  · cases h
    exact ⟨rfl, fun t ht => nomatch ht⟩
  · rename_i v _
    obtain ⟨k, hk, rfl⟩ := Option.map_eq_some_iff.mp h
    refine ⟨hk.symm, fun t ht => ?_⟩
    obtain rfl := Option.some.inj ht
    rw [hk]
    rfl

/-- A move that adds a cell is a registration that was possible. -/
theorem Moment.added?_spec {m : Moment} {c : WatchCell} (h : m.added? r = some c) :
    m.desk.allows m.move = true ∧ c.token = m.move.token?.bind Value.weak? ∧
      ∀ t, m.move.token? = some t → t ∈ m.move.uses ∧ t.weak?.isSome = true := by
  obtain ⟨d, move⟩ := m
  cases move with
  | register q target held token =>
    simp only [added?, Option.ite_none_right_eq_some] at h
    obtain ⟨hallowed, hcell⟩ := h
    obtain ⟨htoken, hweak⟩ := WatchCell.token_of? hcell
    refine ⟨(Bool.and_eq_true_iff.mp hallowed).1, htoken, fun t ht => ⟨?_, hweak t ht⟩⟩
    obtain rfl : token = some t := ht
    simp [Move.uses]
  | _ => cases h

/-- What a registry keeps of the token of a registration. -/
theorem token_cell_of_mem (he : e ∈ enrolments r past) :
    e.registration.cell.token = e.token.bind Value.weak? := by
  obtain ⟨m, -, hadded, htoken⟩ := exists_moment_of_mem he
  rw [htoken, (Moment.added?_spec hadded).2.1]

/-- The cell of a registration has the weak handle of a value exactly if its token shares with that
value. -/
theorem token_cell_eq_iff {v : Value} {k : Target} (hv : v.weak? = some k)
    (he : e ∈ enrolments r past) :
    decide (e.registration.cell.token = some k) = e.tokenIs (·.shares v) := by
  rw [token_cell_of_mem he, Enrolment.tokenIs, Bool.eq_iff_iff, decide_eq_true_eq]
  cases e.token with
  | none => simp
  | some t => simpa using Value.weak?_eq_iff hv

end Enrolments

/-! ### What `unregister` drops -/

/-- Exactly the registrations with such a token were dropped, the others are there in order, and
the answer says whether there was one. -/
structure Drops (es : List Enrolment) (r : ℕ) (p : Value → Bool) (answer : Bool × Heap) : Prop where
  found : answer.1 = true ↔ ∃ e ∈ es, e.tokenIs p = true
  cells : answer.2.watchCells r = (es.filter fun e => !e.tokenIs p).map (·.registration.cell)

section Unregister

variable {order : Bool} {r : ℕ} {v : Value} {es : List Enrolment} {p q : Value → Bool}
  {answer : Bool × Heap}

/-- A narrower choice of tokens drops the same registrations exactly if there is no registration
that it spares. -/
theorem Drops.narrower_iff (hd : Drops es r p answer) (hqp : ∀ t, q t = true → p t = true) :
    Drops es r q answer ↔ ∀ e ∈ es, ∀ t, e.token = some t → p t = true → q t = true := by
  have hsub : ∀ e : Enrolment, e.tokenIs q = true → e.tokenIs p = true := by
    intro e he
    rw [Enrolment.tokenIs, Option.any_eq_true_iff_get] at he ⊢
    obtain ⟨hsome, hq⟩ := he
    exact ⟨hsome, hqp _ hq⟩
  constructor
  · intro hq e he t ht hp
    -- what is left over is a part of what the narrower choice leaves over, of the same length
    have hpart : (es.filter fun e => !e.tokenIs p).Sublist (es.filter fun e => !e.tokenIs q) := by
      refine List.monotone_filter_right es fun e hnot => ?_
      rw [Bool.not_eq_true'] at hnot ⊢
      exact Bool.eq_false_iff.mpr fun hq => by rw [hsub e hq] at hnot; cases hnot
    have hlength := congrArg List.length (hd.cells.symm.trans hq.cells)
    rw [List.length_map, List.length_map] at hlength
    have hleft := hpart.eq_of_length hlength
    by_contra hnot
    have hspared : e ∈ es.filter fun e => !e.tokenIs q :=
      List.mem_filter.mpr ⟨he, by simpa [Enrolment.tokenIs, ht] using hnot⟩
    rw [← hleft, List.mem_filter] at hspared
    simp [Enrolment.tokenIs, ht, hp] at hspared
  · intro hall
    have hsame : ∀ e ∈ es, e.tokenIs p = e.tokenIs q := by
      intro e he
      refine Bool.eq_iff_iff.mpr ⟨fun hp => ?_, hsub e⟩
      cases ht : e.token with
      | none => simp [Enrolment.tokenIs, ht] at hp
      | some t =>
        simp only [Enrolment.tokenIs, ht, Option.any_some] at hp ⊢
        exact hall e he t ht hp
    constructor
    · rw [hd.found]
      exact exists_congr fun e => and_congr_right fun he => by rw [hsame e he]
    · rw [hd.cells]
      exact congrArg _ (List.filter_congr fun e he => by rw [hsame e he])

/-- Whoever has a registry in hand has it still after an `unregister`. -/
theorem isLive_of_unregister {d : Desk} (hd : d.Sound) (hr : .registry r ∈ d.held)
    (ha : d.heap.unregister r v = .ok answer) : answer.2.registries.isLive r = true := by
  have hlive : d.heap.registries.isLive r = true :=
    Heap.Balanced.alive hd (List.mem_append_left _ hr) _ rfl
  have hb := Desk.balanced_unregister hd hlive v
  rw [ha] at hb
  exact hb.alive (List.mem_append_left _ hr) _ rfl

/-- What `unregister` does after any run, told from the tokens of the registrations that wait. -/
theorem exists_drops (moves : List Move) (hr : .registry r ∈ ((Desk.empty order).after moves).held)
    (hv : v.weak?.isSome = true) :
    ∃ answer, ((Desk.empty order).after moves).heap.unregister r v = .ok answer ∧
      Drops (enrolled r ((Desk.empty order).moments moves)) r (·.shares v) answer := by
  obtain ⟨k, hk⟩ := Option.isSome_iff_exists.mp hv
  set d := (Desk.empty order).after moves with hdesk
  set es := enrolled r ((Desk.empty order).moments moves)
  have hd : d.Sound := Desk.sound_after order moves
  have hlive : d.heap.registries.isLive r = true := hd.alive (List.mem_append_left _ hr) _ rfl
  have hcells : d.heap.watchCells r = es.map (·.registration.cell) :=
    (watchCells_after moves (.inl hlive)).trans map_cell_enrolled.symm
  have htokens : ∀ e ∈ es, decide (e.registration.cell.token = some k) = e.tokenIs (·.shares v) :=
    fun e he => token_cell_eq_iff hk (List.mem_of_mem_filter he)
  have hanswer := Heap.unregister_eq (h := d.heap) (r := r) v
  rw [hk] at hanswer
  cases ha : d.heap.unregister r v with
  | error e =>
    rw [ha] at hanswer
    cases hanswer
  | ok answer =>
    refine ⟨answer, rfl, ?_, ?_⟩
    · rw [ha] at hanswer
      obtain rfl := Option.some.inj hanswer
      simp only [hcells, Bool.not_eq_true', List.isEmpty_eq_false_iff_exists_mem, List.mem_filter,
        List.mem_map]
      constructor
      · rintro ⟨c, ⟨e, he, rfl⟩, hc⟩
        exact ⟨e, he, (htokens e he).symm.trans hc⟩
      · rintro ⟨e, he, ht⟩
        exact ⟨_, ⟨e, he, rfl⟩, (htokens e he).trans ht⟩
    · have hafter := watchCells_unregister hd.pools hlive v
      rw [ha, hk] at hafter
      have hleft := hafter (isLive_of_unregister hd hr ha)
      rw [hcells, List.filter_map] at hleft
      refine hleft.trans (congrArg _ (List.filter_congr fun e he => ?_))
      simp [← htokens e he]

end Unregister

/-! ### Tokens that are gone -/

/-- The desks of a run come after each other. -/
theorem Desk.ages_of_mem_moments (moves : List Move) :
    ∀ m ∈ (Desk.empty order).moments moves,
      m.desk.Sound ∧ m.desk.heap.Ages ((Desk.empty order).after moves).heap := by
  induction moves using List.reverseRecOn with
  | nil => exact fun m hm => absurd hm List.not_mem_nil
  | append_singleton moves m ih =>
    intro m' hm'
    have hages := (Desk.evolves_act ((Desk.empty order).after moves) m).ages
    rw [Desk.after_append]
    rw [Desk.moments_append, List.mem_append, List.mem_singleton] at hm'
    obtain hm' | rfl := hm'
    · exact ⟨(ih m' hm').1, (ih m' hm').2.trans hages⟩
    · exact ⟨Desk.sound_after order moves, hages⟩

theorem Desk.ages_after (d : Desk) (moves : List Move) : d.heap.Ages (d.after moves).heap := by
  induction moves using List.reverseRecOn with
  | nil => exact .refl
  | append_singleton moves m ih =>
    rw [Desk.after_append]
    exact ih.trans (Desk.evolves_act _ m).ages

/-- No value that is alive at any later time shares with a token whose payload is gone. -/
theorem not_shares_of_gone (moves : List Move) {r : ℕ} {e : Enrolment}
    (he : e ∈ enrolments r ((Desk.empty order).moments moves)) {t : Value} (ht : e.token = some t)
    (hgone : t.target?.any ((Desk.empty order).after moves).isStrong = false) (more : List Move)
    {w : Value}
    (hw : (((Desk.empty order).after moves).after more).heap.Alive w) : t.shares w = false := by
  obtain ⟨m, hm, hadded, htoken⟩ := exists_moment_of_mem he
  obtain ⟨hallowed, -, huses⟩ := Moment.added?_spec hadded
  obtain ⟨hused, hweak⟩ := huses t (htoken.symm.trans ht)
  obtain ⟨k, hk⟩ := Option.isSome_iff_exists.mp hweak
  have htarget := Value.target?_of_weak? hk
  -- the payload was there when the token was registered, so its number is not given again
  obtain ⟨hsound, hages⟩ := Desk.ages_of_mem_moments moves m hm
  have hmade := hages.made (hsound.pools.made (Desk.alive_of_allows hallowed hused k htarget))
  refine Bool.eq_false_iff.mpr fun hshares => ?_
  have hwk : w.weak? = some k := (Value.weak?_eq_iff hk).mpr (Value.shares_symm hshares)
  have hlater := hw k (Value.target?_of_weak? hwk)
  have hlive := (Desk.ages_after _ more).alive hmade hlater
  rw [(Desk.sound_after order moves).isLive_eq] at hlive
  simp [htarget, hlive] at hgone

/-! ### The main theorem -/

/-- After every run, a registry that somebody has in hand holds the cells of the registrations that
no moment has removed, in order.  With a value that can be a token, `unregister` drops those whose
token is the same or on the same buffer, keeps the others in order and answers whether there was
one.  So it drops exactly those whose token is the same if and only if none of them has the buffer
of the value, or another window on it, as its token.  A token whose payload is gone shares with no
value that is alive at any later time. -/
theorem unregister_exact_iff (order : Bool) (moves : List Move) (r : ℕ) (v : Value)
    (hr : .registry r ∈ ((Desk.empty order).after moves).held) (hv : v.weak?.isSome = true) :
    let d := (Desk.empty order).after moves
    let es := enrolled r ((Desk.empty order).moments moves)
    d.heap.watchCells r = es.map (·.registration.cell) ∧
    (∃ answer, d.heap.unregister r v = .ok answer ∧ Drops es r (·.shares v) answer ∧
      (Drops es r (·.same v) answer ↔
        ∀ e ∈ es, ∀ t, e.token = some t → t.shares v = true → t.same v = true)) ∧
    ∀ e ∈ es, ∀ t, e.token = some t → t.target?.any d.isStrong = false →
      ∀ (more : List Move) (w : Value), (d.after more).heap.Alive w → t.shares w = false := by
  intro d es
  have hlive := (Desk.sound_after order moves).alive (List.mem_append_left _ hr) _ rfl
  obtain ⟨answer, ha, hdrops⟩ := exists_drops moves hr hv
  refine ⟨(watchCells_after moves (.inl hlive)).trans map_cell_enrolled.symm,
    ⟨answer, ha, hdrops, hdrops.narrower_iff fun t => Value.shares_of_same⟩, ?_⟩
  intro e he t ht hgone more w hw
  exact not_shares_of_gone moves (List.mem_of_mem_filter he) ht hgone more hw

/-- Object 0 is watched twice, once with object 1 as token and once with a window on half of a
buffer.  That window is dropped, and a window on the other half is made. -/
def twoTokens : List Move :=
  [.newNative ⟨"echo", []⟩, .newRegistry (.native 0), .newObject, .newObject, .newBuffer (.zeros 8),
    .clone (.typedArray ⟨.uint8, 0, 0, 4⟩),
    .register 0 (.object 0) (.bool true) (some (.object 1)),
    .register 0 (.object 0) (.bool false) (some (.typedArray ⟨.uint8, 0, 0, 4⟩)),
    .drop (.typedArray ⟨.uint8, 0, 0, 4⟩), .clone (.typedArray ⟨.uint8, 0, 4, 4⟩)]

/-- The object drops its own registration and keeps the other one; once it is gone, nothing drops
its registration any more. -/
theorem unregister_exact_iff_object :
    (∃ answer, ((Desk.empty true).after twoTokens).heap.unregister 0 (.object 1) = .ok answer ∧
      answer.1 = true ∧
      answer.2.watchCells 0 = [⟨.object 0, .bool false, some (.buffer 0)⟩]) ∧
    ∀ (more : List Move) (w : Value),
      (((Desk.empty true).after (twoTokens ++ [.drop (.object 1)])).after more).heap.Alive w →
        (Value.object 1).shares w = false := by
  constructor
  · obtain ⟨-, ⟨answer, ha, hdrops, -⟩, -⟩ :=
      unregister_exact_iff true twoTokens 0 (.object 1) (by decide +kernel) (by decide)
    refine ⟨answer, ha, hdrops.found.mpr ?_, hdrops.cells.trans (by decide +kernel)⟩
    rw [← List.any_eq_true]
    decide +kernel
  · obtain ⟨-, -, hgone⟩ :=
      unregister_exact_iff true (twoTokens ++ [.drop (.object 1)]) 0 (.object 0)
      (by decide +kernel) (by decide)
    have henrolled : (enrolled 0 ((Desk.empty true).moments (twoTokens ++ [.drop (.object 1)]))).any
        (fun e => e.token = some (.object 1)) = true := by decide +kernel
    obtain ⟨e, he, ht⟩ := List.any_eq_true.mp henrolled
    exact hgone e he (.object 1) (of_decide_eq_true ht) (by decide +kernel)

/-- The second window drops the registration that was made with the first one, though they are not
the same and it was made when the first one had been dropped. -/
theorem other_window_unregisters :
    (Value.typedArray ⟨.uint8, 0, 0, 4⟩).same (.typedArray ⟨.uint8, 0, 4, 4⟩) = false ∧
    .typedArray ⟨.uint8, 0, 0, 4⟩ ∉ ((Desk.empty true).after twoTokens).held ∧
    ∃ answer,
      ((Desk.empty true).after twoTokens).heap.unregister 0 (.typedArray ⟨.uint8, 0, 4, 4⟩)
        = .ok answer ∧
      answer.1 = true ∧ answer.2.watchCells 0 = [⟨.object 0, .bool true, some (.object 1)⟩] ∧
      ¬ Drops (enrolled 0 ((Desk.empty true).moments twoTokens)) 0
        (·.same (.typedArray ⟨.uint8, 0, 4, 4⟩)) answer := by
  refine ⟨by decide, by decide +kernel, _, rfl, by decide +kernel, by decide +kernel, fun hd => ?_⟩
  have hnone : (enrolled 0 ((Desk.empty true).moments twoTokens)).any
      (·.tokenIs (·.same (.typedArray ⟨.uint8, 0, 4, 4⟩))) = false := by decide +kernel
  have hfound := hd.found.mp (by decide +kernel)
  rw [← List.any_eq_true, hnone] at hfound
  exact Bool.false_ne_true hfound

end ModuleHost
