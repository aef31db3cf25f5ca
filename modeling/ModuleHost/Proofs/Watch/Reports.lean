/-
Cells of a registry are reported exactly once.

The moments of a run are its moves, each with the desk as it was.  They alone say what should
become of every registration: it waits until the first moment that removes it, and is reported
if that moment is a collection.

* `waiting`, `reported` — the two fates, read off the moments of a run;
* `watchCells_act` — what one move does to the cells of a registry;
* `watchCells_after`, `answers_perm_reported` — by induction over runs, the cells of a
  registry are those that wait, and the answers of its collections are what is reported;
* `cells_reported_once` — the main theorem.

Design notes: the moments know only who holds what (`Desk.isStrong`), never a count, and a
registration is followed through the moments after it.  Appending a moment then filters
what waits and moves the rest to what is reported.
-/
import Mathlib
import ModuleHost.Proofs.Watch.Desk

namespace ModuleHost

/-- A move, and the desk before it. -/
structure Moment where
  desk : Desk
  move : Move

/-- The moments of a run, oldest first. -/
def Desk.moments (d : Desk) : List Move → List Moment
  | [] => []
  | m :: rest => ⟨d, m⟩ :: (d.act m).moments rest

theorem Desk.moments_append (d : Desk) (moves : List Move) (m : Move) :
    d.moments (moves ++ [m]) = d.moments moves ++ [⟨d.after moves, m⟩] := by
  induction moves generalizing d with
  | nil => rfl
  | cons m' rest ih =>
    rw [List.cons_append, moments, ih]
    rfl

namespace Moment

/-- Whether the move was possible. -/
def allowed (m : Moment) : Bool := m.desk.allows m.move

/-- The cell that is registered. -/
def added? (m : Moment) (r : ℕ) : Option WatchCell :=
  match m.move with
  | .register q target held token =>
    if m.allowed && q = r then WatchCell.of? target held token else none
  | _ => none

/-- Whether a cell is unregistered: the token given is the one it was registered with. -/
def unregisters (m : Moment) (r : ℕ) (c : WatchCell) : Bool :=
  match m.move with
  | .unregister q token =>
    m.allowed && q = r && token.weak?.any fun k => c.token = some k
  | _ => false

/-- Whether a cell is collected: there is no strong handle on its target. -/
def collects (m : Moment) (r : ℕ) (c : WatchCell) : Bool :=
  match m.move with
  | .collect q => m.allowed && q = r && !m.desk.isStrong c.target
  | _ => false

/-- Whether a cell leaves the registry. -/
def removes (m : Moment) (r : ℕ) (c : WatchCell) : Bool := m.unregisters r c || m.collects r c

/-- What a collection of the registry answers. -/
def answers (m : Moment) (r : ℕ) : List Value :=
  match m.move with
  | .collect q => if m.allowed && q = r then (m.desk.heap.collect r).1 else []
  | _ => []

end Moment

/-- A registration: its cell and the moments after it. -/
structure Registration where
  cell : WatchCell
  later : List Moment

namespace Registration

/-- Whether no moment has removed the cell. -/
def waits (e : Registration) (r : ℕ) : Bool := !e.later.any (·.removes r e.cell)

/-- Whether the first moment that removed the cell was a collection. -/
def isReported (e : Registration) (r : ℕ) : Bool :=
  (e.later.find? (·.removes r e.cell)).any (·.collects r e.cell)

/-- The registration one moment later. -/
def andThen (e : Registration) (m : Moment) : Registration := { e with later := e.later ++ [m] }

end Registration

/-- The registrations with a registry, oldest first. -/
def registrations (r : ℕ) : List Moment → List Registration
  | [] => []
  | m :: later => (m.added? r).toList.map (⟨·, later⟩) ++ registrations r later

/-- The cells that no moment has removed since their registration. -/
def waiting (r : ℕ) (past : List Moment) : List WatchCell :=
  ((registrations r past).filter (·.waits r)).map (·.cell)

/-- The held values of the cells that left by a collection. -/
def reported (r : ℕ) (past : List Moment) : List Value :=
  ((registrations r past).filter (·.isReported r)).map (·.cell.held)

/-! ### One moment more -/

section AndThen

variable {r : ℕ} {e : Registration} {past : List Moment} {m : Moment} {c : WatchCell}

@[simp] theorem cell_andThen : (e.andThen m).cell = e.cell := rfl

theorem waits_andThen : (e.andThen m).waits r = (e.waits r && !m.removes r e.cell) := by
  simp [Registration.waits, Registration.andThen]

theorem removes_of_collects (hc : m.collects r c = true) : m.removes r c = true := by
  rw [Moment.removes, hc, Bool.or_true]

theorem waits_eq_isNone : e.waits r = (e.later.find? (·.removes r e.cell)).isNone := by
  rw [Registration.waits, ← List.isSome_find?, Option.not_isSome]

theorem not_waits_of_isReported (he : e.isReported r = true) : e.waits r = false := by
  rw [Registration.isReported] at he
  rw [waits_eq_isNone]
  cases hf : e.later.find? (·.removes r e.cell) with
  | none =>
    rw [hf] at he
    exact absurd he Bool.false_ne_true
  | some m => rfl

/-- A registration is reported if it was before, or if it waited and is collected now. -/
theorem isReported_andThen :
    (e.andThen m).isReported r = (e.isReported r || (e.waits r && m.collects r e.cell)) := by
  rw [waits_eq_isNone]
  unfold Registration.isReported Registration.andThen
  rw [List.find?_append]
  cases e.later.find? (·.removes r e.cell) with
  | some m' => simp
  | none =>
    cases hc : m.collects r e.cell with
    | true => simp [hc, removes_of_collects hc]
    | false => cases hr : m.removes r e.cell <;> simp [hr, hc]

theorem registrations_append :
    registrations r (past ++ [m])
      = (registrations r past).map (·.andThen m) ++ (m.added? r).toList.map (⟨·, []⟩) := by
  induction past with
  | nil => simp [registrations]
  | cons m' rest ih => simp [registrations, ih, Registration.andThen, Function.comp_def]

theorem waiting_append :
    waiting r (past ++ [m])
      = (waiting r past).filter (fun c => !m.removes r c) ++ (m.added? r).toList := by
  have hnew : ∀ c : WatchCell, Registration.waits ⟨c, []⟩ r = true := fun _ => rfl
  simp [waiting, registrations_append, List.filter_map, List.filter_filter, Function.comp_def,
    waits_andThen, hnew, Bool.and_comm]

theorem filter_or_perm {α : Type} {p q : α → Bool} (hpq : ∀ a, p a = true → q a = false)
    (l : List α) : (l.filter fun a => p a || q a).Perm (l.filter p ++ l.filter q) := by
  induction l with
  | nil => exact .refl _
  | cons a rest ih =>
    cases hp : p a with
    | true => simpa [hp, hpq a hp] using ih
    | false =>
      cases hq : q a with
      | true => simpa [hp, hq] using (ih.cons a).trans List.perm_middle.symm
      | false => simpa [hp, hq] using ih

/-- What was reported stays so, and what waits is reported when it is collected. -/
theorem reported_append :
    (reported r (past ++ [m])).Perm
      (reported r past ++ ((waiting r past).filter (m.collects r)).map (·.held)) := by
  have hnew : ∀ c : WatchCell, Registration.isReported ⟨c, []⟩ r = false := fun _ => rfl
  have hdisjoint : ∀ e : Registration, e.isReported r = true →
      (e.waits r && m.collects r e.cell) = false := by
    intro e he
    rw [not_waits_of_isReported he, Bool.false_and]
  have hsplit := (filter_or_perm hdisjoint (registrations r past)).map (·.cell.held)
  simpa [reported, waiting, registrations_append, List.filter_map, List.filter_filter,
    Function.comp_def, isReported_andThen, hnew, Bool.and_comm] using hsplit

end AndThen

/-! ### What a move does to the cells of a registry -/

/-- A move that is about another registry, or not possible, neither adds nor removes a cell. -/
theorem Moment.idle {m : Moment} {r : ℕ} (h : m.allowed = false ∨ m.move.registry? ≠ some r) :
    m.added? r = none ∧ m.answers r = [] ∧ ∀ c, m.collects r c = false ∧ m.removes r c = false := by
  obtain ⟨d, move⟩ := m
  cases move with
  | register q target held token =>
    refine ⟨?_, rfl, fun c => ⟨rfl, rfl⟩⟩
    rcases h with h | h
    · simp [added?, h]
    · have hqr : q ≠ r := fun heq => h (congrArg some heq)
      simp [added?, hqr]
  | unregister q token =>
    refine ⟨rfl, rfl, fun c => ⟨rfl, ?_⟩⟩
    rcases h with h | h
    · simp [removes, unregisters, collects, h]
    · have hqr : q ≠ r := fun heq => h (congrArg some heq)
      simp [removes, unregisters, collects, hqr]
  | collect q =>
    rcases h with h | h
    · simp [added?, answers, removes, unregisters, collects, h]
    · have hqr : q ≠ r := fun heq => h (congrArg some heq)
      simp [added?, answers, removes, unregisters, collects, hqr]
  | _ => exact ⟨rfl, rfl, fun _ => ⟨rfl, rfl⟩⟩

section Act

variable {order : Bool} {d : Desk} {m : Move} {r : ℕ}

theorem watchCells_register {h : Heap} (hr : h.registries.isLive r = true) (target held : Value)
    (token : Option Value) :
    ((h.register r target held token).toOption.getD h).watchCells r
      = h.watchCells r ++ (WatchCell.of? target held token).toList := by
  rw [Heap.register_eq]
  cases WatchCell.of? target held token with
  | none => simp
  | some c => exact Heap.watchCells_setWatchCells_self (Heap.registries_isLive_retain hr)

theorem watchCells_unregister {h : Heap} (hs : h.PoolsSound) (hr : h.registries.isLive r = true)
    (token : Value)
    (hl : (((h.unregister r token).toOption.map (·.2)).getD h).registries.isLive r = true) :
    (((h.unregister r token).toOption.map (·.2)).getD h).watchCells r
      = (h.watchCells r).filter fun c => !token.weak?.any fun k => c.token = some k := by
  rw [Heap.unregister_eq] at hl ⊢
  cases hk : token.weak? with
  | none => simp
  | some k =>
    rw [hk] at hl
    -- the registry itself may have been freed with a held value, then there is nothing to say
    have hrest := (Heap.Spares.releaseAll _).watchCells hs.setWatchCells hl
    refine hrest.trans ((Heap.watchCells_setWatchCells_self hr).trans ?_)
    simp [decide_not]

theorem watchCells_collect (hd : d.Sound) (hr : d.heap.registries.isLive r = true) :
    (d.heap.collect r).2.watchCells r
      = (d.heap.watchCells r).filter fun c => d.isStrong c.target := by
  refine (Heap.watchCells_setWatchCells_self hr).trans ?_
  simp only [hd.isLive_eq]

theorem collect_fst (hd : d.Sound) :
    (d.heap.collect r).1
      = ((d.heap.watchCells r).filter fun c => !d.isStrong c.target).map (·.held) := by
  simp only [Heap.collect, hd.isLive_eq]

theorem not_allowed_or (hm : ¬ (d.allows m = true ∧ m.registry? = some r)) :
    (Moment.mk d m).allowed = false ∨ m.registry? ≠ some r := by
  rw [not_and_or, Bool.not_eq_true] at hm
  exact hm

/-- What one move does to the cells of a registry. -/
theorem watchCells_act (hd : d.Sound) (hl : (d.act m).heap.registries.isLive r = true) :
    (d.act m).heap.watchCells r
      = (d.heap.watchCells r).filter (fun c => !(Moment.mk d m).removes r c)
        ++ ((Moment.mk d m).added? r).toList := by
  by_cases hm : d.allows m = true ∧ m.registry? = some r
  · obtain ⟨hm, hr⟩ := hm
    have hallowed : (Moment.mk d m).allowed = true := hm
    have hlive := Desk.isLive_of_registry? hm hr
    rw [Desk.heap_act hm] at hl ⊢
    cases m with
    | register q target held token =>
      obtain rfl : q = r := Option.some.inj hr
      refine (watchCells_register hlive target held token).trans ?_
      simp [Moment.added?, Moment.removes, Moment.unregisters, Moment.collects, hallowed]
    | unregister q token =>
      obtain rfl : q = r := Option.some.inj hr
      refine (watchCells_unregister hd.pools hlive token hl).trans ?_
      simp [Moment.added?, Moment.removes, Moment.unregisters, Moment.collects, hallowed]
    | collect q =>
      obtain rfl : q = r := Option.some.inj hr
      refine (watchCells_collect hd hlive).trans ?_
      simp [Moment.added?, Moment.removes, Moment.unregisters, Moment.collects, hallowed]
    | _ => exact absurd hr (by simp [Move.registry?])
  · have hidle := not_allowed_or hm
    obtain ⟨hadded, -, hremoves⟩ := Moment.idle hidle
    have hspares : Heap.Spares r d.heap (d.act m).heap := by
      rcases hidle with hno | hr
      · rw [Desk.act_of_not_allows hno]
        exact .refl
      · exact Desk.spares_act d m hr
    rw [hspares.watchCells hd.pools hl, hadded]
    simp [hremoves]

/-- What a move answers are the held values of the cells that it collects. -/
theorem answers_eq (hd : d.Sound) {cells : List WatchCell}
    (hcells : d.heap.registries.isLive r = true → d.heap.watchCells r = cells) :
    (Moment.mk d m).answers r
      = (cells.filter ((Moment.mk d m).collects r)).map (·.held) := by
  by_cases hm : d.allows m = true ∧ m.registry? = some r
  · obtain ⟨hm, hr⟩ := hm
    have hallowed : (Moment.mk d m).allowed = true := hm
    cases m with
    | register | unregister => simp [Moment.answers, Moment.collects]
    | collect q =>
      obtain rfl : q = r := Option.some.inj hr
      have hcollects : (Moment.mk d (.collect q)).collects q = fun c => !d.isStrong c.target := by
        funext c
        simp [Moment.collects, hallowed]
      rw [hcollects, ← hcells (Desk.isLive_of_registry? hm hr), ← collect_fst hd]
      simp [Moment.answers, hallowed]
    | _ => exact absurd hr (by simp [Move.registry?])
  · obtain ⟨-, hanswers, hremoves⟩ := Moment.idle (not_allowed_or hm)
    rw [hanswers]
    simp [hremoves]

end Act

/-! ### Runs -/

section Runs

variable {order : Bool} {r : ℕ}

/-- By induction over runs: the cells of a registry that is alive, or not made yet, are those
that wait. -/
theorem watchCells_after (moves : List Move)
    (hr : ((Desk.empty order).after moves).heap.registries.isLive r = true ∨
      ((Desk.empty order).after moves).heap.registries.next ≤ r) :
    ((Desk.empty order).after moves).heap.watchCells r
      = waiting r ((Desk.empty order).moments moves) := by
  induction moves using List.reverseRecOn with
  | nil => exact Heap.watchCells_of_not_live rfl
  | append_singleton moves m ih =>
    rw [Desk.moments_append, waiting_append]
    rw [Desk.after_append] at hr ⊢
    have hd := Desk.sound_after order moves
    have hages := (Desk.evolves_act ((Desk.empty order).after moves) m).ages.registries
    rcases hr with hl | hfresh
    -- a registry that is alive now was alive before, or is fresh
    · have hbefore : ((Desk.empty order).after moves).heap.registries.isLive r = true ∨
          ((Desk.empty order).after moves).heap.registries.next ≤ r := by
        by_cases hlt : r < ((Desk.empty order).after moves).heap.registries.next
        · exact .inl (hages.isLive hlt hl)
        · exact .inr (by omega)
      rw [watchCells_act hd hl, ih hbefore]
    -- nothing can be registered with a registry that has not been made
    · have hbefore := hages.next_le.trans hfresh
      have hidle : ¬ (((Desk.empty order).after moves).allows m = true ∧ m.registry? = some r) := by
        rintro ⟨hm, hr⟩
        have hlt := hd.pools.registries.fresh (Desk.isLive_of_registry? hm hr)
        omega
      have hsound := hd.act m
      rw [← ih (.inr hbefore), Heap.watchCells_fresh hd.pools hbefore,
        Heap.watchCells_fresh hsound.pools hfresh, (Moment.idle (not_allowed_or hidle)).1]
      rfl

theorem answers_perm_reported (moves : List Move) (r : ℕ) :
    (((Desk.empty order).moments moves).flatMap (·.answers r)).Perm
      (reported r ((Desk.empty order).moments moves)) := by
  induction moves using List.reverseRecOn with
  | nil => exact .refl _
  | append_singleton moves m ih =>
    rw [Desk.moments_append, List.flatMap_append, List.flatMap_singleton,
      answers_eq (Desk.sound_after order moves) fun hl => watchCells_after moves (.inl hl)]
    exact (ih.append_right _).trans reported_append.symm

/-- The target of a registration has been made, and the desks since then have come after each
other. -/
structure Follows (d : Desk) (e : Registration) : Prop where
  made : d.heap.Made e.cell.target
  later : ∀ m ∈ e.later, m.desk.Sound ∧ m.desk.heap.Made e.cell.target ∧ m.desk.heap.Ages d.heap

theorem Follows.andThen {d : Desk} {m : Move} {e : Registration} (he : Follows d e)
    (hd : d.Sound) : Follows (d.act m) (e.andThen ⟨d, m⟩) := by
  have hages := (Desk.evolves_act d m).ages
  refine ⟨hages.made he.made, fun m' hm' => ?_⟩
  -- an earlier moment, or the one that is added
  rcases List.mem_append.mp hm' with hm' | hm'
  · obtain ⟨hsound, hmade, hbefore⟩ := he.later m' hm'
    exact ⟨hsound, hmade, hbefore.trans hages⟩
  · obtain rfl := List.mem_singleton.mp hm'
    exact ⟨hd, he.made, hages⟩

theorem follows_added {d : Desk} {m : Move} {c : WatchCell} (hd : d.Sound)
    (hc : (Moment.mk d m).added? r = some c) : Follows (d.act m) ⟨c, []⟩ := by
  refine ⟨(Desk.evolves_act d m).ages.made ?_, fun m' hm' => absurd hm' List.not_mem_nil⟩
  unfold Moment.added? at hc
  split at hc
  · rename_i q target held token hmove
    split at hc
    · rename_i hallowed
      obtain ⟨htarget, -⟩ := WatchCell.of?_spec hc
      have hm : d.allows m = true := (Bool.and_eq_true_iff.mp hallowed).1
      have huses : target ∈ m.uses := by
        simp only at hmove
        simp [hmove, Move.uses]
      exact hd.pools.made (Desk.alive_of_allows hm huses _ (Value.target?_of_weak? htarget))
    · exact absurd hc (by simp)
  · exact absurd hc (by simp)

theorem follows_after (moves : List Move) :
    ∀ e ∈ registrations r ((Desk.empty order).moments moves),
      Follows ((Desk.empty order).after moves) e := by
  induction moves using List.reverseRecOn with
  | nil => exact fun e he => absurd he List.not_mem_nil
  | append_singleton moves m ih =>
    intro e he
    have hd := Desk.sound_after order moves
    rw [Desk.moments_append, registrations_append, List.mem_append, List.mem_map,
      List.mem_map] at he
    rw [Desk.after_append]
    rcases he with ⟨e', he', rfl⟩ | ⟨c, hc, rfl⟩
    · exact (ih e' he').andThen hd
    · exact follows_added hd (Option.mem_toList.mp hc)

/-- Once there is no strong handle on the target of a cell, there never is one again. -/
theorem Follows.not_isStrong {d : Desk} (hd : d.Sound) {e : Registration} (he : Follows d e)
    {m : Moment} (hm : m ∈ e.later) (hgone : m.desk.isStrong e.cell.target = false) :
    d.isStrong e.cell.target = false := by
  obtain ⟨hsound, hmade, hages⟩ := he.later m hm
  rw [← hsound.isLive_eq] at hgone
  rw [← hd.isLive_eq]
  refine Bool.eq_false_iff.mpr fun hl => ?_
  rw [hages.alive hmade hl] at hgone
  exact absurd hgone (by simp)

end Runs

/-- A value without a payload is refused as target and as token, and nothing changes. -/
theorem register_refused (d : Desk) (r : ℕ) {target : Value} (held : Value) {token : Option Value}
    (h : target.target? = none ∨ ∃ v, token = some v ∧ v.target? = none) :
    (∃ e, d.heap.register r target held token = .error e) ∧
      d.act (.register r target held token) = d := by
  have hnone : WatchCell.of? target held token = none := by
    have hweak : ∀ {v : Value}, v.target? = none → v.weak? = none := by
      intro v hv
      rw [Value.weak?, hv]
    rcases h with ht | ⟨v, rfl, hv⟩
    · unfold WatchCell.of?
      rw [hweak ht]
    · unfold WatchCell.of?
      cases target.weak? with
      | none => rfl
      | some t => simp [hweak hv]
  have hrefused : (d.heap.register r target held token).toOption = none := by
    rw [Heap.register_eq, hnone]
    rfl
  constructor
  · cases hr : d.heap.register r target held token with
    | error e => exact ⟨e, rfl⟩
    | ok h =>
      rw [hr] at hrefused
      exact absurd hrefused (by simp [Except.toOption])
  · unfold Desk.act
    split
    · simp [Move.perform, hrefused, Move.drops]
    · rfl

/-- Cells are reported exactly once.  After every run, a registry that is alive has the cells that
no moment has removed, in order of registration, and a collection would answer those without a
strong handle on their target and keep the others.  All its collections together have answered
the held values of the cells that left by a collection.  A target that is gone stays gone, and a
refused registration changes nothing.  In a session, the calls that are due are those of each
listed registry that is alive, in order of creation, and no such registry is ever forgotten. -/
theorem cells_reported_once :
    (∀ (order : Bool) (moves : List Move) (r : ℕ),
      let d := (Desk.empty order).after moves
      let past := (Desk.empty order).moments moves
      (d.heap.registries.isLive r = true →
        d.heap.watchCells r = waiting r past ∧
        (d.heap.collect r).1
          = ((waiting r past).filter fun c => !d.isStrong c.target).map (·.held) ∧
        (d.heap.collect r).2.watchCells r
          = (waiting r past).filter fun c => d.isStrong c.target) ∧
      (past.flatMap (·.answers r)).Perm (reported r past) ∧
      (∀ e ∈ registrations r past, ∀ m ∈ e.later,
        m.desk.isStrong e.cell.target = false → d.isStrong e.cell.target = false) ∧
      (∀ (target held : Value) (token : Option Value),
        (target.target? = none ∨ ∃ v, token = some v ∧ v.target? = none) →
        (∃ e, d.heap.register r target held token = .error e) ∧
          d.act (.register r target held token) = d)) ∧
    (∀ s : Session, s.Reachable →
      let live := s.finalizers.filter s.heap.registries.isLive
      live.Pairwise (· < ·) ∧
      (s.heap.collectAll live).1 = live.flatMap s.heap.due ∧
      (∀ r ∈ live, (s.heap.collectAll live).2.watchCells r
        = (s.heap.watchCells r).filter fun c => s.heap.isLive c.target) ∧
      ∀ s', s.Evolves s' → ∀ r ∈ s.finalizers, s'.heap.registries.isLive r = true →
        r ∈ s'.finalizers) := by
  constructor
  · intro order moves r d past
    have hd : d.Sound := Desk.sound_after order moves
    refine ⟨fun hl => ?_, answers_perm_reported moves r, fun e he m hm hgone => ?_,
      fun target held token h => register_refused d r held h⟩
    · have hcells : d.heap.watchCells r = waiting r past := watchCells_after moves (.inl hl)
      rw [collect_fst hd, watchCells_collect hd hl, hcells]
      exact ⟨rfl, rfl, rfl⟩
    · exact (follows_after moves e he).not_isStrong hd hm hgone
  · intro s hs live
    have ha := hs.ascending
    have hsorted : live.Pairwise (· < ·) := ha.sorted.filter _
    have hnodup : live.Nodup := hsorted.imp ne_of_lt
    exact ⟨hsorted, Heap.collectAll_fst hnodup, fun r hr => Heap.collectAll_watchCells hnodup hr,
      fun s' hev r hr hl => hev.lists ha hr hl⟩

/-- A session with a registry that watched an object which is gone. -/
def watchingGone : Session :=
  let s := Session.new (.standard .default ⟨[]⟩ true) .none none
  let s := { s with heap := (s.heap.newNative ⟨"echo", []⟩).2 }
  let s := { s with
    heap := { s.heap with registries := (s.heap.registries.alloc ⟨.native 0, []⟩).2 }
    finalizers := s.finalizers ++ [s.heap.registries.next] }
  let s := { s with heap := s.heap.newObject.2 }
  let cell : WatchCell := ⟨.object 1, .bool true, none⟩
  let s := { s with heap := s.heap.setWatchCells 0 (s.heap.watchCells 0 ++ [cell]) }
  { s with heap := (s.heap.releaseTarget (.object 1)).2 }

theorem watchingGone_reachable : watchingGone.Reachable :=
  ⟨_, _, _, ((((Session.Evolves.refl.tail (.heap (.newNative ⟨"echo", []⟩))).tail
    (.tracked (.native 0))).tail (.heap .newObject)).tail (.heap (.watched 0 _))).tail
    (.heap (.released (.object 1)))⟩

/-- At a desk, an object that is watched and dropped is reported, though an array kept it alive
for a while; and a session reports one to its cleanup function. -/
theorem cells_reported_once_dropped :
    (((Desk.empty true).after [.newNative ⟨"echo", []⟩, .newRegistry (.native 0), .newObject,
        .newArray [.object 0], .register 0 (.object 0) (.bool true) (some (.array 0)),
        .drop (.object 0), .collect 0, .arraySet 0 0 .null]).heap.collect 0).1
      = [.bool true] ∧
    (watchingGone.Reachable ∧
      (watchingGone.heap.collectAll
        (watchingGone.finalizers.filter watchingGone.heap.registries.isLive)).1
        = [⟨.native 0, .bool true⟩]) := by
  refine ⟨?_, watchingGone_reachable, ?_⟩
  · rw [((cells_reported_once.1 true _ 0).1 (by decide +kernel)).2.1]
    decide +kernel
  · rw [(cells_reported_once.2 _ watchingGone_reachable).2.1]
    decide +kernel

end ModuleHost
