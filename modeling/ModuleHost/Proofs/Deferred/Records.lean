/-
Every request leaves one record.

Over a run of a session requests end one after the other, those that a module issues while it is
being linked before the one that links it.  The stored records are the last of them.

* `Session.Finishes` — from one session to another, the requests with these records end;
* `serveRequest_cases` — how serving a request may end, and when other requests end meanwhile;
* `load_leaves_one_record` — a request returns and leaves one record that agrees with what it
  returns, unless the host panics while it links;
* `panicking_start_leaves_no_record` — which can happen.

Design notes: a panic of the host is not an error, so nothing on the way out of a request catches
it.  That noting an event always succeeds and changes nothing but what the module keeps for
itself is asked of the code.
-/
import Mathlib
import ModuleHost.Proofs.Heap.Pool
import ModuleHost.Proofs.Session.Announcements

namespace ModuleHost

open Act

/-! ### The requests of a run -/

namespace Session

/-- From one session to another, the requests with these records end, in this order. -/
inductive Finishes (s : Session) : List LoadRecord → Session → Prop
  | refl : Finishes s [] s
  | change {rs : List LoadRecord} {a b : Session} (before : Finishes s rs a) (change : a.Change b)
      (same : b.deferred.records = a.deferred.records) : Finishes s rs b
  | ended {rs : List LoadRecord} {a : Session} (before : Finishes s rs a) (r : LoadRecord)
      (finished : r.Finished) :
      Finishes s (rs ++ [r]) { a with deferred := a.deferred.push r }

variable {s s' s'' : Session} {rs rs' : List LoadRecord}

theorem Finishes.trans (h : s.Finishes rs s') (h' : s'.Finishes rs' s'') :
    s.Finishes (rs ++ rs') s'' := by
  induction h' with
  | refl => rwa [List.append_nil]
  | change _ hc same ih => exact ih.change hc same
  | ended _ r finished ih =>
    rw [← List.append_assoc]
    exact ih.ended r finished

theorem Finishes.evolves (h : s.Finishes rs s') : s.Evolves s' := by
  induction h with
  | refl => exact .refl
  | change _ hc _ ih => exact ih.tail hc
  | ended _ r finished ih => exact ih.tail (.recorded r finished)

theorem Finishes.finished (h : s.Finishes rs s') : ∀ r ∈ rs, r.Finished := by
  induction h with
  | refl => exact nofun
  | change _ _ _ ih => exact ih
  | ended _ r finished ih =>
    intro q hq
    rcases List.mem_append.mp hq with hq | hq
    · exact ih q hq
    · rwa [List.mem_singleton.mp hq]

/-- A change leaves the records alone, unless a request ends with it. -/
theorem Change.same_or_ended (hc : s.Change s') :
    s'.deferred.records = s.deferred.records ∨
      ∃ r : LoadRecord, r.Finished ∧ s' = { s with deferred := s.deferred.push r } := by
  cases hc with
  | recorded r finished => exact .inr ⟨r, finished, rfl⟩
  | _ => exact .inl rfl

/-- Whatever a session does, some requests end meanwhile. -/
theorem Evolves.exists_finishes (hev : s.Evolves s') : ∃ rs, s.Finishes rs s' := by
  induction hev with
  | refl => exact ⟨[], .refl⟩
  | tail _ hc ih =>
    obtain ⟨rs, h⟩ := ih
    rcases hc.same_or_ended with same | ⟨r, finished, rfl⟩
    · exact ⟨rs, h.change hc same⟩
    · exact ⟨rs ++ [r], h.ended r finished⟩

theorem rtake_rtake_concat {α : Type} (l : List α) (a : α) {n : ℕ} (hn : 0 < n) :
    (l.rtake n ++ [a]).rtake n = (l ++ [a]).rtake n := by
  obtain ⟨k, rfl⟩ := Nat.exists_eq_add_of_lt hn
  rw [List.rtake_concat_succ, List.rtake_concat_succ]
  simp [List.rtake_eq_reverse_take_reverse, List.take_take]

theorem push_eq (d : DeferredLoads) (r : LoadRecord) :
    d.push r = { d with records := (d.records ++ [r]).rtake recordLimit } := by
  rw [DeferredLoads.push, List.rtake]

/-- The stored records are the last of those there were and those of the requests that ended. -/
theorem Finishes.records (h : s.Finishes rs s')
    (hs : s.deferred.records.length ≤ recordLimit) :
    s'.deferred.records = (s.deferred.records ++ rs).rtake recordLimit := by
  induction h with
  | refl =>
    rw [List.append_nil, List.rtake, Nat.sub_eq_zero_of_le hs, List.drop_zero]
  | change _ _ same ih => rw [same, ih]
  | ended _ r _ ih =>
    rw [push_eq]
    simp only
    rw [ih, ← List.append_assoc]
    exact rtake_rtake_concat _ r (by decide)

end Session

/-! ### Noting -/

/-- Noting an event changes nothing but what the module keeps for itself, and always succeeds. -/
def Machine.NotesOnly {γ : Type} (m : Machine γ) : Prop :=
  ∀ e w, ∃ g, m.note e w = .ok ⟨⟩ { w with guest := g }

/-- The machine of code notes as the code does. -/
theorem Code.notesOnly_machine {γ : Type} {c : Code γ}
    (hc : ∀ e w, ∃ g, c.note e w = .ok ⟨⟩ { w with guest := g }) (depth : ℕ) :
    (c.machine depth).NotesOnly := by
  cases depth with
  | zero => exact hc
  | succ depth => exact hc

section Requests

variable {γ : Type} {m : Machine γ} {w w' : World γ}

/-- Obtaining a module always comes to an end, and no request ends meanwhile. -/
theorem exists_obtainModule_eq_ok (hnotes : m.NotesOnly) (w : World γ) (name : String) :
    ∃ obtained w', obtainModule m name w.session.capabilities w = .ok obtained w' ∧
      w.session.Finishes [] w'.session ∧
      ∀ before after, obtained ≠ .error (.invalidTransition before after) := by
  have hfinal : w.session.Finishes []
      (final (obtainModule m name w.session.capabilities) w).session := by
    refine obtainModule_keeps .refl (fun h => h.evolves.settled)
      (fun h hc => h.change (.asked name hc) rfl) (fun {e w'} h => ?_)
      (fun h hc => h.change (.kept name _ hc) rfl)
    obtain ⟨g, hg⟩ := hnotes e w'
    rwa [final, hg]
  suffices hends : ∃ obtained w', obtainModule m name w.session.capabilities w = .ok obtained w' ∧
      ∀ before after, obtained ≠ .error (.invalidTransition before after) by
    obtain ⟨obtained, w', hok, hvalid⟩ := hends
    rw [final, hok] at hfinal
    exact ⟨obtained, w', hok, hfinal, hvalid⟩
  cases hc : w.session.deferred.cached? name with
  | some module => exact ⟨_, w, obtainModule_of_cached hc, fun _ _ h => by cases h⟩
  | none =>
    have hnew := obtainModule_of_not_cached (m := m) (c := w.session.capabilities) hc
    cases hl : w.session.deferred.loader with
    | none =>
      exact ⟨_, w, hnew.trans (bind_of_ok (askLoader_of_none hl) _), fun _ _ h => by cases h⟩
    | some loader =>
      obtain ⟨g, hg⟩ := hnotes (.load name (answerOf (loader.load w.session.deferred.asked name)))
        (asking name w)
      have hasked := hnew.trans (bind_of_ok ((askLoader_of_some hl).trans (bind_of_ok hg _)) _)
      cases hs : loader.load w.session.deferred.asked name with
      | error report =>
        rw [hs] at hasked
        exact ⟨_, _, hasked, fun _ _ h => by cases h⟩
      | ok source =>
        rw [hs] at hasked
        cases hd : w.session.engine.compileSource w.session.capabilities source with
        | error e =>
          refine ⟨_, _, hasked.trans (compileAndKeep_of_error hd), fun before after h => ?_⟩
          exact Engine.ne_invalidTransition_of_compileSource hd before after (Except.error.inj h)
        | ok module =>
          exact ⟨_, _, hasked.trans (compileAndKeep_of_ok hd), fun _ _ h => by cases h⟩

/-- An instance of a module is being made, whatever comes of it. -/
def Links (m : Machine γ) (w w' : World γ) : Prop :=
  ∃ linker module, w.session.deferred.linker = some linker ∧
    w' = final (makeInstance m linker module) w

/-- While an instance of a module is made, the host gives up. -/
def Panics (m : Machine γ) (w : World γ) (e : Fault) (w' : World γ) : Prop :=
  e.isError = false ∧ ∃ linker module, w.session.deferred.linker = some linker ∧
    makeInstance m linker module w = .error e w'

/-- Linking answers with an instance or an error, unless the host gives up. -/
theorem linkModule_cases (m : Machine γ) (w : World γ) (module : Description) :
    (∃ linked w', linkModule m module w = .ok linked w' ∧ (w' = w ∨ Links m w w') ∧
      ∀ before after, linked ≠ .error (.invalidTransition before after)) ∨
    ∃ e w', linkModule m module w = .error e w' ∧ Panics m w e w' := by
  have hread : linkModule m module w = _ :=
    bind_session _ w
  cases hl : w.session.deferred.linker with
  | none =>
    rw [hl] at hread
    exact .inl ⟨_, w, hread, .inl rfl, fun _ _ h => by cases h⟩
  | some linker =>
    rw [hl] at hread
    have hlinks : Links m w (final (makeInstance m linker module) w) := ⟨linker, module, hl, rfl⟩
    cases hi : makeInstance m linker module w with
    | ok i w' =>
      rw [final, hi] at hlinks
      exact .inl ⟨_, w', hread.trans (bind_of_ok (attempt_of_ok hi) _), .inr hlinks,
        fun _ _ h => by cases h⟩
    | error e w' =>
      rw [final, hi] at hlinks
      cases he : e.isError with
      | true =>
        exact .inl ⟨_, w', hread.trans (bind_of_ok (attempt_of_error hi he) _), .inr hlinks,
          fun _ _ h => by cases h⟩
      | false =>
        exact .inr ⟨e, w', hread.trans (bind_of_error (attempt_of_uncaught hi he) _), he, linker,
          module, hl, hi⟩

/-- Serving a request answers with an instance or an error, unless the host gives up while it
links; requests end meanwhile only while it links. -/
theorem serveRequest_cases (hnotes : m.NotesOnly) (w : World γ) (name : String) :
    ∃ w₁, w.session.Finishes [] w₁.session ∧
      ((∃ outcome w₂, serveRequest m name w.session.capabilities w = .ok outcome w₂ ∧
        (w₂ = w₁ ∨ Links m w₁ w₂) ∧
        ∀ before after, outcome ≠ .error (.invalidTransition before after)) ∨
      ∃ e w', serveRequest m name w.session.capabilities w = .error e w' ∧ Panics m w₁ e w') := by
  obtain ⟨obtained, w₁, hobtained, hbefore, hvalid⟩ := exists_obtainModule_eq_ok hnotes w name
  refine ⟨w₁, hbefore, ?_⟩
  have hserve : serveRequest m name w.session.capabilities w = _ := bind_of_ok hobtained _
  cases obtained with
  | error e =>
    refine .inl ⟨.error e, w₁, hserve, .inl rfl, fun before after h => ?_⟩
    exact hvalid before after (congrArg _ (Except.error.inj h))
  | ok module =>
    rcases linkModule_cases m w₁ module with ⟨linked, w₂, hok, h⟩ | ⟨e, w', herr, h⟩
    · exact .inl ⟨linked, w₂, hserve.trans hok, h⟩
    · exact .inr ⟨e, w', hserve.trans herr, h⟩

end Requests

/-! ### What a request leaves -/

/-- The record of a request and what the request returned tell the same. -/
inductive LoadRecord.Agrees (r : LoadRecord) (h : Heap) : Reference → Prop
  | linked (module : ℕ) (state : r.state = .linked) : Agrees r h (.host (.linkedModule module))
  | failed (error : ℕ) (e : LoadError) (state : r.state = .failed)
      (message : r.error = some e.message) (failure : h.failure error = .load e)
      (valid : ∀ before after, e ≠ .invalidTransition before after) :
      Agrees r h (.host (.error error))

/-- A request for a name has returned and has left this record. -/
structure Requested {γ : Type} (m : Machine γ) (name : Text) (w : World γ) (r : LoadRecord)
    (reference : Reference) (w' : World γ) : Prop where
  returned : loadModule m (.host (.string name)) w = .ok reference w'
  /-- Its record is the last one, after those of the requests that ended while it linked. -/
  left : ∃ nested w₁ w₂, w.session.Finishes [] w₁.session ∧ (w₂ = w₁ ∨ Links m w₁ w₂) ∧
    w₁.session.Finishes nested w₂.session ∧
    w'.session.deferred = w₂.session.deferred.push r ∧
    w.session.Finishes (nested ++ [r]) w'.session
  named : r.name = name.toString
  finished : r.Finished
  agrees : r.Agrees w'.session.heap reference

/-- A request for a name ends in a panic of the host while it links. -/
def Panicked {γ : Type} (m : Machine γ) (name : Text) (w : World γ) : Prop :=
  ∃ w₁ e w', w.session.Finishes [] w₁.session ∧ Panics m w₁ e w' ∧
    loadModule m (.host (.string name)) w = .error e w'

section Answers

variable {γ : Type} {m : Machine γ} {w w' : World γ} {name : Text}

/-- A request for a name is answered by what serving it came to. -/
theorem loadModule_string (m : Machine γ) (name : Text) (w : World γ) :
    loadModule m (.host (.string name)) w = (do
      match ← load m name.toString with
      | .ok _ => give (.linkedModule (← onHeap (·.newModule name.toString)))
      | .error e => give (.error (← onHeap (·.newError (.load e))))) w := rfl

/-- A request that was served returns, and leaves its record. -/
theorem exists_requested {outcome : Except LoadError Instance} {w₁ w₂ : World γ}
    {nested : List LoadRecord}
    (hserve : serveRequest m name.toString w.session.capabilities w = .ok outcome w₂)
    (hbefore : w.session.Finishes [] w₁.session) (hlinks : w₂ = w₁ ∨ Links m w₁ w₂)
    (hnested : w₁.session.Finishes nested w₂.session)
    (hvalid : ∀ before after, outcome ≠ .error (.invalidTransition before after)) :
    ∃ r reference w', Requested m name w r reference w' := by
  set r := LoadRecord.ended name.toString w.session.capabilities outcome
  have hfinished : r.Finished := LoadRecord.finished_ended _ _ outcome
  have hload : load m name.toString w
      = .ok outcome ⟨{ w₂.session with deferred := w₂.session.deferred.push r }, w₂.guest⟩ := by
    rw [load_eq]
    exact bind_of_ok hserve _
  have hended : w.session.Finishes (nested ++ [r])
      { w₂.session with deferred := w₂.session.deferred.push r } :=
    (hbefore.trans hnested).ended r hfinished
  have hreturned := (loadModule_string m name w).trans (bind_of_ok hload _)
  cases outcome with
  | ok i =>
    refine ⟨r, _, _, hreturned, ⟨nested, w₁, w₂, hbefore, hlinks, hnested, rfl, ?_⟩, rfl, hfinished,
      .linked _ rfl⟩
    exact (hended.change (.heap (.newModule _)) rfl).change (.crossed _) rfl
  | error e =>
    refine ⟨r, _, _, hreturned, ⟨nested, w₁, w₂, hbefore, hlinks, hnested, rfl, ?_⟩, rfl, hfinished,
      .failed _ e rfl rfl ?_ fun before after h => hvalid before after (congrArg _ h)⟩
    · exact (hended.change (.heap (.newError _)) rfl).change (.crossed _) rfl
    · show ((Pool.alloc _ _).2.get? _).getD _ = _
      rw [Pool.get?_alloc]
      exact congrArg (Option.getD · _) (if_pos rfl)

/-- A request leaves one record and answers with what it tells, unless the host gives up while
it links. -/
theorem requested_or_panicked (hm : m.Evolving) (hnotes : m.NotesOnly) (name : Text)
    (w : World γ) : (∃ r reference w', Requested m name w r reference w') ∨ Panicked m name w := by
  obtain ⟨w₁, hbefore, ⟨outcome, w₂, hserve, hlinks, hvalid⟩ | ⟨e, w', hserve, hpanics⟩⟩ :=
    serveRequest_cases hnotes w name.toString
  · obtain ⟨nested, hnested⟩ : ∃ nested, w₁.session.Finishes nested w₂.session := by
      rcases hlinks with rfl | ⟨linker, module, -, rfl⟩
      · exact ⟨[], .refl⟩
      · exact ((Orderly.makeInstance linker module).evolving hm w₁).exists_finishes
    exact .inl (exists_requested hserve hbefore hlinks hnested hvalid)
  · have hload : load m name.toString w = .error e w' := by
      rw [load_eq]
      exact bind_of_error hserve _
    exact .inr ⟨w₁, e, w', hbefore, hpanics,
      (loadModule_string m name w).trans (bind_of_error hload _)⟩

/-- Every request of a sequence that returns leaves a record of its own, in order, and answers
with what it tells. -/
theorem exists_records_of_mapM (hm : m.Evolving) (hnotes : m.NotesOnly) {names : List Text} :
    ∀ {w : World γ} {references : List Reference},
      names.mapM (fun name => loadModule m (.host (.string name))) w = .ok references w' →
      ∃ rs finished, rs.map (·.name) = names.map Text.toString ∧
        List.Forall₂ (fun r reference => ∃ h, LoadRecord.Agrees r h reference) rs references ∧
        rs.Sublist finished ∧ w.session.Finishes finished w'.session := by
  induction names with
  | nil =>
    intro w references h
    cases h
    exact ⟨[], [], rfl, .nil, .slnil, .refl⟩
  | cons name rest ih =>
    intro w references h
    rw [List.mapM_cons] at h
    obtain ⟨reference, w₁, hfirst, h⟩ := exists_of_bind_ok h
    obtain ⟨others, w₂, hrest, h⟩ := exists_of_bind_ok h
    cases h
    rcases requested_or_panicked hm hnotes name w with ⟨r, _, _, hr⟩ | ⟨_, _, _, _, _, herr⟩
    · obtain ⟨rfl, rfl⟩ := EStateM.Result.ok.inj (hr.returned.symm.trans hfirst)
      obtain ⟨nested, _, _, -, -, -, -, hleft⟩ := hr.left
      obtain ⟨rs, finished, hnames, hagree, hsub, hfinishes⟩ := ih hrest
      refine ⟨r :: rs, nested ++ [r] ++ finished, ?_, .cons ⟨_, hr.agrees⟩ hagree, ?_,
        hleft.trans hfinishes⟩
      · rw [List.map_cons, List.map_cons, hr.named, hnames]
      · exact (List.sublist_append_right nested [r]).append hsub
    · cases herr.symm.trans hfirst

end Answers

/-! ### All requests -/

/-- In every reachable session each stored record is of a request that is over, linked exactly if
it has an instance and exactly if it has no error, and the stored records are the last 256 of
those of the requests that have ended, in order of completion.  A request for a name leaves one
record and returns a module or an error value as it tells, or else the host gives up while it
links; and so do all requests of a sequence that returns. -/
theorem load_leaves_one_record {γ : Type} {code : Code γ} (hcode : code.Sandboxed)
    (hnotes : ∀ e w, ∃ g, code.note e w = .ok ⟨⟩ { w with guest := g }) (depth : ℕ) :
    (∀ s : Session, s.Reachable →
      (∀ r ∈ s.deferred.records, r.Finished) ∧
      ∃ e c loader finished, (Session.new e c loader).Finishes finished s ∧
        s.deferred.records = finished.rtake recordLimit) ∧
    (∀ name (w : World γ),
      (∃ r reference w', Requested (code.machine depth) name w r reference w') ∨
        Panicked (code.machine depth) name w) ∧
    ∀ (names : List Text) (w : World γ) references w',
      names.mapM (fun name => loadModule (code.machine depth) (.host (.string name))) w
        = .ok references w' →
      ∃ rs finished, rs.map (·.name) = names.map Text.toString ∧
        List.Forall₂ (fun r reference => ∃ h, LoadRecord.Agrees r h reference) rs references ∧
        rs.Sublist finished ∧ w.session.Finishes finished w'.session := by
  have hm := hcode.machine depth
  have hnotes := Code.notesOnly_machine hnotes depth
  refine ⟨fun s hs => ?_, requested_or_panicked hm hnotes, fun _ _ _ _ h =>
    exists_records_of_mapM hm hnotes h⟩
  obtain ⟨e, c, loader, hev⟩ := hs
  obtain ⟨finished, hfinishes⟩ := hev.exists_finishes
  have hrecords : s.deferred.records = finished.rtake recordLimit :=
    hfinishes.records (Nat.zero_le _)
  refine ⟨fun r hr => hfinishes.finished r ?_, e, c, loader, finished, hfinishes, hrecords⟩
  rw [hrecords] at hr
  exact List.mem_of_mem_drop hr

/-! ### A start function that panics -/

/-- A module whose callback asks for a timer in the infinite future. -/
def postponing : Code Unit := releaseCode fun m _ => do
  let _ ← m.call (.host .setTimeout) [.i32 5, .f64 (.infinity false)]

theorem postponing_sandboxed : postponing.Sandboxed :=
  releaseCode_sandboxed fun _ hm _ => (hm.call _ _).bind fun _ => .pure _

/-- A module that runs the callback of the primary instance when it is linked. -/
def startingCallback : Description :=
  { Description.empty with
    imports := [⟨primarySpace, "$invokeCallback", .func ⟨[.i32], []⟩⟩]
    start := some (.call 0 [.i32 1]) }

/-- A session with this module and one that declares nothing to load. -/
def offering : World Unit :=
  let i : Instance :=
    ⟨[("$invokeCallback", .func (.own 1 (.named "$invokeCallback") ⟨[.i32], []⟩))]⟩
  final (modifySession fun s => { s with
      primary := some i
      memory := none
      deferred := { s.deferred with linker := some (deferredLinker .empty i) } } : Act Unit Unit)
    ⟨.new (.standard .default ⟨[([1], startingCallback)]⟩ true) .none
      (some (.static [("empty", Image.header), ("starting", [1])])), ()⟩

theorem offering_reachable : offering.session.Reachable :=
  ⟨_, _, _, (Session.Change.linked _ _).evolves⟩

/-- What comes of asking that session for a name. -/
def requesting (name : String) : Act Unit Reference :=
  loadModule (postponing.machine 3) (.host (.string (.ofString name)))

theorem fault?_requesting_empty : fault? (requesting "empty") offering = none := by decide +kernel

theorem fault?_requesting_starting : fault? (requesting "starting") offering = some .panic := by
  decide +kernel

/-- One module is loaded, the other makes the host give up. -/
theorem load_leaves_one_record_offering :
    (postponing.Sandboxed ∧ offering.session.Reachable ∧
      ∀ e w, ∃ g, postponing.note e w = .ok ⟨⟩ { w with guest := g }) ∧
    (∀ r ∈ offering.session.deferred.records, r.Finished) ∧
    (∃ r reference w',
      Requested (postponing.machine 3) (.ofString "empty") offering r reference w') ∧
    Panicked (postponing.machine 3) (.ofString "starting") offering := by
  have hnotes : ∀ e w, ∃ g, postponing.note e w = .ok ⟨⟩ { w with guest := g } :=
    fun _ w => ⟨w.guest, rfl⟩
  obtain ⟨hstored, hrequests, -⟩ := load_leaves_one_record postponing_sandboxed hnotes 3
  refine ⟨⟨postponing_sandboxed, offering_reachable, hnotes⟩, (hstored _ offering_reachable).1,
    ?_, ?_⟩
  · rcases hrequests (.ofString "empty") offering with h | ⟨_, _, _, _, _, herr⟩
    · exact h
    · have hnone := fault?_requesting_empty
      rw [fault?, requesting, herr] at hnone
      cases hnone
  · rcases hrequests (.ofString "starting") offering with ⟨r, reference, w', h⟩ | h
    · have hsome := fault?_requesting_starting
      rw [fault?, requesting, h.returned] at hsome
      cases hsome
    · exact h

/-- A request does not always return: a start function may ask for a timer whose instant cannot
be formed, and then the request leaves no record. -/
theorem panicking_start_leaves_no_record :
    (∃ w', requesting "starting" offering = .error .panic w' ∧ w'.session.deferred.records = []) ∧
    ¬ ∀ (code : Code Unit) (depth : ℕ) (name : Text) (w : World Unit), code.Sandboxed →
      (∀ e w, ∃ g, code.note e w = .ok ⟨⟩ { w with guest := g }) → w.session.Reachable →
      ∃ r reference w', Requested (code.machine depth) name w r reference w' := by
  have hpanic := eq_error_of_fault? fault?_requesting_starting
  refine ⟨⟨_, hpanic, by decide +kernel⟩, fun h => ?_⟩
  obtain ⟨r, reference, w', hr⟩ := h postponing 3 (.ofString "starting") offering
    postponing_sandboxed (fun _ w => ⟨w.guest, rfl⟩) offering_reachable
  cases hr.returned.symm.trans hpanic

end ModuleHost
