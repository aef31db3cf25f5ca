/-
Requests that are refused.

A request may be refused before there is a module, because there is no loader or the loader, its
stream or the compiler fails, and it may be refused for the module, because nothing can be linked
yet or an import is missing or of another type.  Either way no code has run: the request leaves
its record and the error value that it returns, a module that was compiled is kept if modules are
kept, and nothing else has changed.

* `Session.Refuses` — why a request is refused, and whether a module was compiled for it;
* `Session.Isolates` — what a session looks like afterwards;
* `serveRequest_of_refuses` — serving such a request;
* `refused_load_is_isolated` — the main theorem.

Design notes: a request that gets as far as making an instance is not refused, as the segments and
the start function of the instance may have effects before they fail.
-/
import Mathlib
import ModuleHost.Proofs.Deferred.Records
import ModuleHost.Proofs.Linking.Checks

namespace ModuleHost

open Act

variable {γ : Type} {m : Machine γ} {w : World γ}

/-! ### Why a request is refused -/

namespace Session

/-- Why a compiled module cannot be linked in a session: the primary instance is not linked, or
one of the module's imports is missing or of another type. -/
inductive Unlinkable (s : Session) (module : Description) : Report → Prop
  | notLinked (linker : s.deferred.linker = none) :
      Unlinkable s module (.of "primary instance is not linked")
  | imports {l : Linker} {cause : Report} (linker : s.deferred.linker = some l)
      (check : l.check s module.imports = .error cause) : Unlinkable s module cause

/-- What the loader of a session answers to a name that is not kept. -/
structure Offers (s : Session) (name : String) (answer : Except Report Source) : Prop where
  notKept : s.deferred.cached? name = none
  loader : ∃ l, s.deferred.loader = some l ∧ l.load s.deferred.asked name = answer

/-- Why a request for a name is refused, and the module that was compiled for it before. -/
inductive Refuses (s : Session) (name : String) : LoadError → Option Description → Prop
  | noLoader (notKept : s.deferred.cached? name = none) (loader : s.deferred.loader = none) :
      Refuses s name .noLoader none
  | fetch {cause : Report} (offers : s.Offers name (.error cause)) :
      Refuses s name (.fetch cause) none
  | source {source : Source} {text : String} (offers : s.Offers name (.ok source))
      (read : source.read s.engine.config.chunkSize = .error text) :
      Refuses s name (.source text) none
  | compile {source : Source} {bytes : List UInt8} {cause : Report}
      (offers : s.Offers name (.ok source))
      (read : source.read s.engine.config.chunkSize = .ok bytes)
      (compile : s.engine.compile bytes s.capabilities = .error cause) :
      Refuses s name (.compile cause) none
  | linkKept {module : Description} {cause : Report}
      (kept : s.deferred.cached? name = some module) (unlinkable : s.Unlinkable module cause) :
      Refuses s name (.link cause) none
  | linkNew {source : Source} {bytes : List UInt8} {module : Description} {cause : Report}
      (offers : s.Offers name (.ok source))
      (read : source.read s.engine.config.chunkSize = .ok bytes)
      (compile : s.engine.compile bytes s.capabilities = .ok module)
      (unlinkable : s.Unlinkable module cause) : Refuses s name (.link cause) (some module)

end Session

/-! ### What is left of it -/

namespace DeferredLoads

/-- The modules that are kept once another one has been compiled, if it has. -/
def cacheWith (d : DeferredLoads) (name : String) (compiled : Option Description) :
    Option (List (String × Description)) :=
  match compiled with
  | none => d.cache
  | some module => d.cache.map ((name, module) :: ·)

/-- Deferred loads of a session that differ in what is kept and in what the loader was asked. -/
structure Gained (d d' : DeferredLoads) (name : String) (compiled : Option Description) : Prop where
  rest : d' = { d with cache := d'.cache, asked := d'.asked }
  cache : d'.cache = d.cacheWith name compiled
  asked : d'.asked = d.asked ∨ d'.asked = d.asked ++ [name]

/-- A record that is added drops the oldest one if there are as many as are kept, and no other. -/
theorem exists_push_eq {d : DeferredLoads} (hd : d.records.length ≤ recordLimit)
    (r : LoadRecord) :
    ∃ evicted kept, d.records = evicted ++ kept ∧ evicted.length ≤ 1 ∧
      (evicted ≠ [] → d.records.length = recordLimit) ∧
      d.push r = { d with records := kept ++ [r] } := by
  obtain ⟨n, hn⟩ : ∃ n, n = d.records.length + 1 - recordLimit := ⟨_, rfl⟩
  refine ⟨d.records.take n, d.records.drop n, (List.take_append_drop n _).symm, ?_, ?_, ?_⟩
  · exact (List.length_take_le _ _).trans (by omega)
  · intro hevicted
    by_contra hroom
    have hzero : n = 0 := by omega
    exact hevicted (by rw [hzero, List.take_zero])
  · have hle : n ≤ d.records.length := by
      have hlimit : 0 < recordLimit := by decide
      omega
    rw [Session.push_eq, List.rtake, List.length_append, List.length_singleton, ← hn,
      List.drop_append_of_le_length hle]

end DeferredLoads

/-- What a refused request leaves: its record, the error value that it returned and, if a module
was compiled and modules are kept, that module. -/
structure Session.Isolates (s s' : Session) (name : String) (e : LoadError)
    (compiled : Option Description) (error : ℕ) : Prop where
  rest : s' = { s with
    heap := { s.heap with errors := s'.heap.errors }
    crossed := s.crossed ++ [.error error]
    deferred := { s.deferred with
      records := s'.deferred.records
      cache := s'.deferred.cache
      asked := s'.deferred.asked } }
  errors : (error, s'.heap.errors) = s.heap.errors.alloc (.load e)
  failure : s'.heap.failure error = .load e
  records : ∃ evicted kept, s.deferred.records = evicted ++ kept ∧ evicted.length ≤ 1 ∧
    (evicted ≠ [] → s.deferred.records.length = recordLimit) ∧
    s'.deferred.records = kept ++ [⟨name, .failed, s.capabilities, none, some e.message⟩]
  cache : s'.deferred.cache = s.deferred.cacheWith name compiled
  asked : s'.deferred.asked = s.deferred.asked ∨
    s'.deferred.asked = s.deferred.asked ++ [name]

/-! ### Serving a request that is refused -/

theorem linkModule_of_unlinkable {module : Description} {cause : Report}
    (h : w.session.Unlinkable module cause) :
    linkModule m module w = .ok (.error (.link cause)) w := by
  have hread : linkModule m module w = _ :=
    bind_session _ w
  cases h with
  | notLinked hl =>
    rw [hl] at hread
    exact hread
  | @imports l _ hl hc =>
    rw [hl] at hread
    have hattempt : attempt (makeInstance m l module) w = .ok (.error (.failed cause)) w :=
      attempt_of_error (makeInstance_of_check_error hc) rfl
    exact hread.trans (bind_of_ok hattempt _)

/-- The loader of a session is asked, and that is all. -/
theorem exists_askLoader_of_offers (hnotes : m.NotesOnly) {name : String}
    {answer : Except Report Source} (h : w.session.Offers name answer) :
    ∃ g, obtainModule m name w.session.capabilities w
      = compileAndKeep name w.session.capabilities (answer.mapError .fetch)
          ⟨(asking name w).session, g⟩ := by
  obtain ⟨loader, hl, rfl⟩ := h.loader
  obtain ⟨g, hg⟩ := hnotes (.load name (answerOf (loader.load w.session.deferred.asked name)))
    (asking name w)
  have hasked : askLoader m name w = _ := (askLoader_of_some hl).trans (bind_of_ok hg _)
  exact ⟨g, (obtainModule_of_not_cached h.notKept).trans (bind_of_ok hasked _)⟩

theorem Engine.compileSource_of_read {e : Engine} {c : Capabilities} {source : Source}
    {bytes : List UInt8} (h : source.read e.config.chunkSize = .ok bytes) :
    e.compileSource c source = (e.compile bytes c).mapError .compile := by
  rw [compileSource, h]

theorem serveRequest_of_refuses (hnotes : m.NotesOnly) {name : String} {e : LoadError}
    {compiled : Option Description} (h : w.session.Refuses name e compiled) :
    ∃ d g, w.session.deferred.Gained d name compiled ∧
      serveRequest m name w.session.capabilities w
        = .ok (.error e) ⟨{ w.session with deferred := d }, g⟩ := by
  cases h with
  | noLoader hk hl =>
    have hobtained : obtainModule m name w.session.capabilities w = .ok (.error .noLoader) w :=
      (obtainModule_of_not_cached hk).trans (bind_of_ok (askLoader_of_none hl) _)
    exact ⟨w.session.deferred, w.guest, ⟨rfl, rfl, .inl rfl⟩, bind_of_ok hobtained _⟩
  | @fetch cause ho =>
    obtain ⟨g, hobtained⟩ := exists_askLoader_of_offers hnotes ho
    have hrefused : obtainModule m name w.session.capabilities w
        = .ok (.error (.fetch cause)) ⟨(asking name w).session, g⟩ := hobtained
    exact ⟨w.session.deferred.ask name, g, ⟨rfl, rfl, .inr rfl⟩, bind_of_ok hrefused _⟩
  | @source source text ho hr =>
    obtain ⟨g, hobtained⟩ := exists_askLoader_of_offers hnotes ho
    have hc : w.session.engine.compileSource w.session.capabilities source
        = .error (.source text) := by
      rw [Engine.compileSource, hr]
    have hrefused := hobtained.trans (compileAndKeep_of_error (w := ⟨(asking name w).session, g⟩) hc)
    exact ⟨w.session.deferred.ask name, g, ⟨rfl, rfl, .inr rfl⟩, bind_of_ok hrefused _⟩
  | @compile source bytes cause ho hr hd =>
    obtain ⟨g, hobtained⟩ := exists_askLoader_of_offers hnotes ho
    have hc : w.session.engine.compileSource w.session.capabilities source
        = .error (.compile cause) := by
      rw [Engine.compileSource_of_read hr, hd]
      rfl
    have hrefused := hobtained.trans (compileAndKeep_of_error (w := ⟨(asking name w).session, g⟩) hc)
    exact ⟨w.session.deferred.ask name, g, ⟨rfl, rfl, .inr rfl⟩, bind_of_ok hrefused _⟩
  | linkKept hk hu =>
    have hobtained := obtainModule_of_cached (m := m) (c := w.session.capabilities) hk
    exact ⟨w.session.deferred, w.guest, ⟨rfl, rfl, .inl rfl⟩,
      (bind_of_ok hobtained _).trans (linkModule_of_unlinkable hu)⟩
  | @linkNew source bytes module cause ho hr hd hu =>
    obtain ⟨g, hobtained⟩ := exists_askLoader_of_offers hnotes ho
    have hc : w.session.engine.compileSource w.session.capabilities source = .ok module := by
      rw [Engine.compileSource_of_read hr, hd]
      rfl
    have hnew := hobtained.trans (compileAndKeep_of_ok (w := ⟨(asking name w).session, g⟩) hc)
    -- the module is linked in a session whose linker, memories and tables are the same
    have hu' : { w.session with
        deferred := (w.session.deferred.ask name).keep name module }.Unlinkable module cause := by
      cases hu with
      | notLinked hl => exact .notLinked hl
      | imports hl hcheck => exact .imports hl hcheck
    exact ⟨(w.session.deferred.ask name).keep name module, g, ⟨rfl, rfl, .inr rfl⟩,
      (bind_of_ok hnew _).trans (linkModule_of_unlinkable hu')⟩

/-! ### The main theorem -/

theorem Session.Reachable.length_records_le {s : Session} (hs : s.Reachable) :
    s.deferred.records.length ≤ recordLimit := by
  obtain ⟨e, c, loader, hev⟩ := hs
  obtain ⟨finished, hfinishes⟩ := hev.exists_finishes
  rw [hfinishes.records (Nat.zero_le _), List.rtake, List.length_drop]
  omega

/-- A request for a name that is refused, in whatever state the session is, returns an error value
and leaves one failed record, for which the oldest one is dropped if there were as many as are
kept.  If a module was compiled for it, that module is kept if modules are kept.  Apart from the
error value nothing else has changed: not the memories, tables, globals, console, timers, closures,
registries or any other part of the heap, nor the linker or the other records. -/
theorem refused_load_is_isolated (hs : w.session.Reachable) (hnotes : m.NotesOnly) {name : Text}
    {e : LoadError} {compiled : Option Description}
    (hr : w.session.Refuses name.toString e compiled) :
    ∃ error w', loadModule m (.host (.string name)) w = .ok (.host (.error error)) w' ∧
      w.session.Isolates w'.session name.toString e compiled error := by
  obtain ⟨d, g, hd, hserve⟩ := serveRequest_of_refuses hnotes hr
  set r : LoadRecord := ⟨name.toString, .failed, w.session.capabilities, none, some e.message⟩
  have hrecords : d.records = w.session.deferred.records := by rw [hd.rest]
  obtain ⟨evicted, kept, hsplit, hone, hfull, hpush⟩ :=
    DeferredLoads.exists_push_eq (d := d) (hrecords ▸ hs.length_records_le) r
  rw [hrecords] at hsplit hfull
  have hload : load m name.toString w
      = .ok (.error e) ⟨{ w.session with deferred := { d with records := kept ++ [r] } }, g⟩ := by
    rw [load_eq, ← hpush]
    exact bind_of_ok hserve _
  refine ⟨_, ⟨{ w.session with
    heap := (w.session.heap.newError (.load e)).2
    crossed := w.session.crossed ++ [.error w.session.heap.errors.next]
    deferred := { d with records := kept ++ [r] } }, g⟩,
    (loadModule_string m name w).trans (bind_of_ok hload _), ?_⟩
  refine ⟨?_, rfl, ?_, ⟨evicted, kept, hsplit, hone, hfull, rfl⟩, hd.cache, hd.asked⟩
  · have hrest : { d with records := kept ++ [r] } = { w.session.deferred with
        records := kept ++ [r], cache := d.cache, asked := d.asked } := by
      conv_lhs => rw [hd.rest]
    rw [hrest]
    rfl
  · show ((Pool.alloc _ _).2.get? _).getD _ = _
    rw [Pool.get?_alloc]
    exact congrArg (Option.getD · _) (if_pos rfl)

/-- A module that imports a function of the primary instance with another type. -/
def doublingWords : Description :=
  { Description.empty with imports := [⟨primarySpace, "double", .func ⟨[.i64], [.i64]⟩⟩] }

/-- A session that keeps modules, with this module to load. -/
def offeringWords : World Unit :=
  let i : Instance := ⟨[("double", .func (.own 1 (.named "double") ⟨[.i32], [.i32]⟩))]⟩
  let s := Session.new
    (.standard { Config.default with cacheDeferred := true } ⟨[([1], doublingWords)]⟩ true) .none
    (some (.static [("words", [1])]))
  ⟨{ s with
    primary := some i
    memory := i.memory? "memory"
    deferred := { s.deferred with linker := some (deferredLinker .empty i) } }, ()⟩

theorem refused_load_is_isolated_offeringWords :
    ∃ cause,
      (offeringWords.session.Reachable ∧ (postponing.machine 3).NotesOnly ∧
        offeringWords.session.Refuses "words" (.link cause) (some doublingWords)) ∧
      ∃ error w', loadModule (postponing.machine 3) (.host (.string (.ofString "words")))
          offeringWords = .ok (.host (.error error)) w' ∧
        offeringWords.session.Isolates w'.session "words" (.link cause) (some doublingWords)
          error := by
  have hs : offeringWords.session.Reachable := ⟨_, _, _, (Session.Change.linked _ _).evolves⟩
  have hnotes : (postponing.machine 3).NotesOnly :=
    Code.notesOnly_machine (fun _ w => ⟨w.guest, rfl⟩) 3
  have hoffers : offeringWords.session.Offers "words" (.ok (.bytes [1])) := ⟨rfl, _, rfl, rfl⟩
  have hr : offeringWords.session.Refuses "words" (.link _) (some doublingWords) :=
    .linkNew hoffers rfl rfl (.imports rfl rfl)
  have hname : (Text.ofString "words").toString = "words" := by decide +kernel
  exact ⟨_, ⟨hs, hnotes, hr⟩, hname ▸ refused_load_is_isolated hs hnotes (hname ▸ hr)⟩

end ModuleHost
