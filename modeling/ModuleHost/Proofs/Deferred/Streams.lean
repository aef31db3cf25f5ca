/-
A source is what is read from it, however it is read.

Reading stops at the first end of the data or at the first failure, and ignores interruptions.
What has been read by then does not depend on how many bytes one read asks for or gives.  So
compiling from a stream is compiling its bytes, and a loader that gives streams may as well give
their bytes.

* `Reader.contents`, `Reader.drain_eq` — what a reader has to give, and that every chunk size
  gets it;
* `Source.read_eq`, `Loader.Agrees` — sources with the same contents, and loaders that give such;
* `Machine.Unaware.load` — a request comes to the same with either of two such loaders;
* `reading_is_chunk_free` — the main theorem.

Design notes: `drain` counts the reads that it may need, and `readsNeeded` is a bound on them
because a read that gives less than it could leaves a shorter chunk behind.  That a loader has
answered with bytes or with a stream is noted, so the two sessions are told apart by what is noted,
as long as what the module keeps for itself depends on it.
-/
import Mathlib
import ModuleHost.Proofs.Deferred.Cache

namespace ModuleHost

open Act

/-! ### Readers -/

/-- The bytes of a read. -/
def ReadOutcome.given : ReadOutcome → List UInt8
  | bytes chunk => chunk
  | interrupted | failed _ => []

/-- Whether there is another read after this one. -/
def ReadOutcome.goesOn : ReadOutcome → Bool
  | bytes chunk => !chunk.isEmpty
  | interrupted => true
  | failed _ => false

/-- What reads give up to the first end of the data, or why they fail before it. -/
def contentsOf : List ReadOutcome → Except String (List UInt8)
  | [] => .ok []
  | .bytes [] :: _ => .ok []
  | .bytes chunk :: rest => (contentsOf rest).map (chunk ++ ·)
  | .interrupted :: rest => contentsOf rest
  | .failed text :: _ => .error text

theorem contentsOf_bytes {chunk : List UInt8} (hc : chunk ≠ []) (rest : List ReadOutcome) :
    contentsOf (.bytes chunk :: rest) = (contentsOf rest).map (chunk ++ ·) := by
  cases chunk with
  | nil => exact absurd rfl hc
  | cons b bytes => rfl

theorem contentsOf_append {before : List ReadOutcome} (hb : ∀ o ∈ before, o.goesOn = true)
    (rest : List ReadOutcome) :
    contentsOf (before ++ rest) = (contentsOf rest).map (before.flatMap ReadOutcome.given ++ ·) := by
  induction before with
  | nil =>
    rw [List.nil_append, List.flatMap_nil]
    cases contentsOf rest <;> rfl
  | cons o later ih =>
    have hlater := ih fun o' ho' => hb o' (List.mem_cons_of_mem o ho')
    have ho := hb o List.mem_cons_self
    rw [List.cons_append, List.flatMap_cons]
    cases o with
    | bytes chunk =>
      have hc : chunk ≠ [] := by simpa [ReadOutcome.goesOn] using ho
      rw [contentsOf_bytes hc, hlater]
      cases contentsOf rest with
      | error text => rfl
      | ok bytes => exact congrArg Except.ok (List.append_assoc chunk _ bytes).symm
    | interrupted => exact hlater
    | failed text => cases ho

/-- Every reader gives some bytes and then ends or fails. -/
theorem exists_goesOn (outcomes : List ReadOutcome) :
    ∃ before rest, outcomes = before ++ rest ∧ (∀ o ∈ before, o.goesOn = true) ∧
      ∀ o ∈ rest.head?, o = .bytes [] ∨ ∃ text, o = .failed text := by
  refine ⟨outcomes.takeWhile (·.goesOn), outcomes.dropWhile (·.goesOn),
    List.takeWhile_append_dropWhile.symm, fun o ho => List.mem_takeWhile_imp ho, fun o ho => ?_⟩
  have hstop : o.goesOn = false := by
    have hnot := List.head?_dropWhile_not (·.goesOn) outcomes
    rw [Option.mem_def.mp ho] at hnot
    simpa using hnot
  cases o with
  | bytes chunk => exact .inl (congrArg _ (by simpa [ReadOutcome.goesOn] using hstop))
  | interrupted => cases hstop
  | failed text => exact .inr ⟨text, rfl⟩

namespace Reader

/-- What a reader has to give. -/
def contents (r : Reader) : Except String (List UInt8) := contentsOf r.outcomes

variable {room : ℕ}

/-- A read of a chunk gives some of its bytes and leaves the others. -/
theorem exists_read (hroom : 0 < room) {chunk : List UInt8} (hc : chunk ≠ [])
    (rest : List ReadOutcome) :
    ∃ part left, read room (.bytes chunk :: rest) = (.bytes part, left) ∧ part ≠ [] ∧
      (contentsOf left).map (part ++ ·) = contentsOf (.bytes chunk :: rest) ∧
      readsNeeded left < readsNeeded (.bytes chunk :: rest) := by
  have hlength := List.length_pos_iff.mpr hc
  by_cases hfits : chunk.length ≤ room
  · refine ⟨chunk, rest, if_pos hfits, hc, (contentsOf_bytes hc rest).symm, ?_⟩
    show readsNeeded rest < chunk.length + 1 + readsNeeded rest
    omega
  · have hpart : chunk.take room ≠ [] :=
      List.ne_nil_of_length_pos (by rw [List.length_take]; omega)
    have hleft : chunk.drop room ≠ [] :=
      List.ne_nil_of_length_pos (by rw [List.length_drop]; omega)
    refine ⟨chunk.take room, .bytes (chunk.drop room) :: rest, if_neg hfits, hpart, ?_, ?_⟩
    · rw [contentsOf_bytes hleft, contentsOf_bytes hc]
      cases contentsOf rest with
      | error text => rfl
      | ok bytes =>
        show Except.ok (chunk.take room ++ (chunk.drop room ++ bytes)) = .ok (chunk ++ bytes)
        rw [← List.append_assoc, List.take_append_drop]
    · show (chunk.drop room).length + 1 + readsNeeded rest < chunk.length + 1 + readsNeeded rest
      rw [List.length_drop]
      omega

/-- With reads of at least one byte, and enough of them, reading gets the contents: by induction on
the reads that are left, each of which leaves fewer to do. -/
theorem drainWith_eq (hroom : 0 < room) (fuel : ℕ) (got : List UInt8) (outcomes : List ReadOutcome)
    (hfuel : readsNeeded outcomes ≤ fuel) :
    drainWith room fuel got outcomes = (contentsOf outcomes).map (got ++ ·) := by
  induction fuel generalizing got outcomes with
  | zero =>
    cases outcomes with
    | nil => cases hfuel
    | cons o rest => cases o <;> simp [readsNeeded] at hfuel
  | succ fuel ih =>
    match outcomes with
    | [] => exact congrArg Except.ok (List.append_nil got).symm
    | .interrupted :: rest =>
      have hrest : 1 + readsNeeded rest ≤ fuel + 1 := hfuel
      exact ih got rest (by omega)
    | .failed text :: rest => rfl
    | .bytes [] :: rest => exact congrArg Except.ok (List.append_nil got).symm
    | .bytes (b :: bytes) :: rest =>
      obtain ⟨part, left, hread, hpart, hcontents, hneeded⟩ :=
        exists_read hroom (List.cons_ne_nil b bytes) rest
      obtain ⟨c, cs, rfl⟩ := List.exists_cons_of_ne_nil hpart
      rw [drainWith, hread, ← hcontents]
      refine (ih (got ++ c :: cs) left (by omega)).trans ?_
      cases contentsOf left with
      | error text => rfl
      | ok more => exact congrArg Except.ok (List.append_assoc got (c :: cs) more)

/-- Reading gets the contents whatever the chunk size. -/
theorem drain_eq (r : Reader) (chunkSize : ℕ) : r.drain chunkSize = r.contents := by
  have hroom : 0 < max chunkSize 1 := Nat.lt_of_lt_of_le Nat.one_pos (Nat.le_max_right _ _)
  rw [drain, drainWith_eq hroom _ _ _ (le_refl _), contents]
  cases contentsOf r.outcomes <;> rfl

end Reader

/-! ### Sources and loaders -/

/-- What a source has to give. -/
def Source.contents : Source → Except String (List UInt8)
  | .bytes data => .ok data
  | .stream reader => reader.contents

theorem Source.read_eq (s : Source) (chunkSize : ℕ) : s.read chunkSize = s.contents := by
  cases s with
  | bytes data => rfl
  | stream reader => exact reader.drain_eq chunkSize

/-- What a source compiles to: what its contents do. -/
theorem Engine.compileSource_eq (e : Engine) (c : Capabilities) (source : Source) :
    e.compileSource c source = match source.contents with
      | .ok bytes => (e.compile bytes c).mapError .compile
      | .error text => .error (.source text) := by
  rw [Engine.compileSource, Source.read_eq]
  cases source.contents <;> rfl

theorem Engine.compileReader_eq (e : Engine) (r : Reader) :
    e.compileReader r = match r.contents with
      | .ok bytes => e.compileProbed bytes
      | .error text => .error (.source text) := by
  rw [Engine.compileReader, Reader.drain_eq]
  cases r.contents <;> rfl

/-- Loaders that refuse alike, and otherwise give sources with the same contents. -/
def Loader.Agrees (l l' : Loader) : Prop :=
  ∀ asked name, (l.load asked name).map Source.contents = (l'.load asked name).map Source.contents

/-- The same session with another loader. -/
def Session.fedBy (s : Session) (loader : Loader) : Session :=
  s.under { s.setting with deferred := { s.deferred with loader := some loader } }

/-- A setting that differs from that of a session in having this loader, which agrees with the
one that the session has. -/
def FedAlike (loader : Loader) (s : Session) (x : Setting) : Prop :=
  ∃ l, s.deferred.loader = some l ∧ l.Agrees loader ∧ x = (s.fedBy loader).setting

theorem settled_fedAlike (loader : Loader) : Settled (FedAlike loader) := by
  rintro s s' x - hsetting ⟨l, hl, hagrees, rfl⟩
  have hdeferred : s'.deferred = s.deferred := congrArg Setting.deferred hsetting
  refine ⟨l, by rw [hdeferred, hl], hagrees, ?_⟩
  simp only [Session.fedBy, Session.setting_under, hsetting, hdeferred]

/-! ### Requests with either loader -/

section Fed

variable {γ : Type} {G : γ → γ → Prop} {loader : Loader} {m : Machine γ} {v w : World γ}
  {name : String}

theorem twins_fedAlike_iff :
    Twins (FedAlike loader) G v w ↔ (∃ l, v.session.deferred.loader = some l ∧ l.Agrees loader) ∧
      w.session = v.session.fedBy loader ∧ G v.guest w.guest := by
  constructor
  · rintro ⟨hsession, ⟨l, hl, hagrees, hsetting⟩, hg⟩
    refine ⟨⟨l, hl, hagrees⟩, ?_, hg⟩
    rw [hsession, hsetting]
    rfl
  · rintro ⟨⟨l, hl, hagrees⟩, hsession, hg⟩
    exact ⟨by rw [hsession]; rfl, ⟨l, hl, hagrees, by rw [hsession]⟩, hg⟩

theorem push_withLoader (r : LoadRecord) (d : DeferredLoads) (l : Option Loader) :
    ({ d with loader := l } : DeferredLoads).push r = { d.push r with loader := l } := by
  unfold DeferredLoads.push
  generalize recordLimit = limit
  rfl

/-- What a request changes in how modules are loaded changes it alike. -/
theorem Twins.withDeferred (f : DeferredLoads → DeferredLoads)
    (hf : ∀ d l, f { d with loader := l } = { f d with loader := l })
    (h : Twins (FedAlike loader) G v w) :
    Twins (FedAlike loader) G
      ⟨{ v.session with deferred := f v.session.deferred }, v.guest⟩
      ⟨{ w.session with deferred := f w.session.deferred }, w.guest⟩ := by
  obtain ⟨⟨l, hl, hagrees⟩, hw, hg⟩ := twins_fedAlike_iff.mp h
  have hkept : (f v.session.deferred).loader = some l := by
    have hself : f { v.session.deferred with loader := some l } = f v.session.deferred := by
      rw [← hl]
    rw [← hself, hf]
  refine twins_fedAlike_iff.mpr ⟨⟨l, hkept, hagrees⟩, ?_, hg⟩
  show ({ w.session with deferred := f w.session.deferred } : Session) = _
  rw [hw]
  exact congrArg (fun d => ({ v.session with deferred := d } : Session))
    (hf v.session.deferred (some loader))

/-- A machine that does not tell a session from one with a loader that agrees with its own.  Noting
that the loader has answered leaves alike what the module keeps for itself, whether the answer
was bytes or a stream. -/
structure Machine.Unaware (m : Machine γ) (loader : Loader) (G : γ → γ → Prop) : Prop where
  respects : m.Respects (Twins (FedAlike loader) G)
  answered : ∀ (name : String) {a a' : LoaderAnswer}, (a = .refused ↔ a' = .refused) →
    ∀ v w, Twins (FedAlike loader) G v w →
      EndsAlike (Twins (FedAlike loader) G) (m.note (.load name a) v) (m.note (.load name a') w)

/-- What loaders that agree have answered is compiled and kept alike. -/
theorem endsAlike_compileAndKeep {x x' : Except Report Source} {c : Capabilities}
    (hx : x.map Source.contents = x'.map Source.contents)
    (h : Twins (FedAlike loader) G v w) :
    EndsAlike (Twins (FedAlike loader) G) (compileAndKeep name c (x.mapError .fetch) v)
      (compileAndKeep name c (x'.mapError .fetch) w) := by
  cases x with
  | error report =>
    cases x' with
    | error report' =>
      obtain rfl := Except.error.inj hx
      exact .ok _ h
    | ok source' => cases hx
  | ok source =>
    cases x' with
    | error report' => cases hx
    | ok source' =>
      have hcontents : source.contents = source'.contents := Except.ok.inj hx
      have hengine : w.session.engine = v.session.engine := by
        obtain ⟨-, hw, -⟩ := twins_fedAlike_iff.mp h
        rw [hw]
        rfl
      have hcompiled : w.session.engine.compileSource c source'
          = v.session.engine.compileSource c source := by
        rw [hengine, Engine.compileSource_eq, Engine.compileSource_eq, hcontents]
      cases hd : v.session.engine.compileSource c source with
      | error e =>
        show EndsAlike _ (compileAndKeep name c (.ok source) v)
          (compileAndKeep name c (.ok source') w)
        rw [compileAndKeep_of_error hd, compileAndKeep_of_error (hcompiled.trans hd)]
        exact .ok _ h
      | ok module =>
        show EndsAlike _ (compileAndKeep name c (.ok source) v)
          (compileAndKeep name c (.ok source') w)
        rw [compileAndKeep_of_ok hd, compileAndKeep_of_ok (hcompiled.trans hd)]
        exact .ok _ (h.withDeferred (·.keep name module) fun _ _ => rfl)

theorem answerOf_eq_refused_iff {x x' : Except Report Source}
    (hx : x.map Source.contents = x'.map Source.contents) :
    answerOf x = .refused ↔ answerOf x' = .refused := by
  have hok : ∀ source : Source, LoaderAnswer.of source ≠ .refused := fun source => by
    cases source <;> exact nofun
  cases x with
  | error report =>
    cases x' with
    | error report' => rfl
    | ok source' => cases hx
  | ok source =>
    cases x' with
    | error report' => cases hx
    | ok source' => exact iff_of_false (hok source) (hok source')

/-- Both worlds obtain the same module, or fail to in the same way. -/
theorem Machine.Unaware.obtainModule (hm : m.Unaware loader G) (c : Capabilities)
    (h : Twins (FedAlike loader) G v w) :
    EndsAlike (Twins (FedAlike loader) G) (obtainModule m name c v) (obtainModule m name c w) := by
  obtain ⟨⟨l, hl, hagrees⟩, hw, -⟩ := twins_fedAlike_iff.mp h
  have hcached : w.session.deferred.cached? name = v.session.deferred.cached? name := by
    rw [hw]
    rfl
  cases hk : v.session.deferred.cached? name with
  | some module =>
    rw [obtainModule_of_cached hk, obtainModule_of_cached (hcached.trans hk)]
    exact .ok _ h
  | none =>
    have hl' : w.session.deferred.loader = some loader := by
      rw [hw]
      rfl
    have hasked : w.session.deferred.asked = v.session.deferred.asked := by
      rw [hw]
      rfl
    have hx := hagrees v.session.deferred.asked name
    rw [obtainModule_of_not_cached hk, obtainModule_of_not_cached (hcached.trans hk),
      bind_of_eq (askLoader_of_some hl), bind_of_eq (askLoader_of_some hl'), hasked, bind_assoc,
      bind_assoc]
    refine (hm.answered name (answerOf_eq_refused_iff hx) _ _
      (h.withDeferred (·.ask name) fun _ _ => rfl)).bind fun _ v' w' h' => ?_
    rw [pure_bind, pure_bind]
    exact endsAlike_compileAndKeep hx h'

theorem Machine.Unaware.load (hm : m.Unaware loader G) (name : String) :
    Act.Respects (Twins (FedAlike loader) G) (load m name) := by
  have hsession : ∀ {v w : World γ}, Twins (FedAlike loader) G v w →
      w.session = v.session.fedBy loader := fun h => (twins_fedAlike_iff.mp h).2.1
  refine .load (fun h => ?_) (fun {v w} h => ?_)
    (.linkModule (settled_fedAlike loader) hm.respects fun h => ?_)
    fun r _ {v w} h => h.withDeferred (·.push r) (push_withLoader r)
  · rw [hsession h]
    rfl
  · have hcapabilities : w.session.capabilities = v.session.capabilities := by
      rw [hsession h]
      rfl
    rw [hcapabilities]
    exact hm.obtainModule _ h
  · rw [hsession h]
    rfl

end Fed

/-- Code that does not tell a session from one with a loader that agrees with its own. -/
structure Code.Unaware {γ : Type} (c : Code γ) (loader : Loader) (G : γ → γ → Prop) : Prop where
  respects : c.Respects (Twins (FedAlike loader) G)
  answered : ∀ (name : String) {a a' : LoaderAnswer}, (a = .refused ↔ a' = .refused) →
    ∀ v w, Twins (FedAlike loader) G v w →
      EndsAlike (Twins (FedAlike loader) G) (c.note (.load name a) v) (c.note (.load name a') w)

/-- The machine of such code does not tell them apart, by induction on the depth of calls. -/
theorem Code.Unaware.machine {γ : Type} {c : Code γ} {loader : Loader} {G : γ → γ → Prop}
    (hc : c.Unaware loader G) (depth : ℕ) : (c.machine depth).Unaware loader G := by
  have hnote : ∀ depth, (c.machine depth).note = c.note := fun depth => by cases depth <;> rfl
  have hunaware : ∀ depth, (c.machine depth).Respects (Twins (FedAlike loader) G) →
      (c.machine depth).Unaware loader G := fun depth hm =>
    ⟨hm, fun name a a' ha v w h => by rw [hnote]; exact hc.answered name ha v w h⟩
  refine hunaware depth (hc.respects.machine (settled_fedAlike loader) (fun depth hm => ?_) depth)
  exact (hunaware depth hm).load

/-! ### The main theorem -/

/-- A reader delivers some bytes: its reads give them one after the other, with interruptions
between them, up to the end of the data. -/
def Reader.Delivers (r : Reader) (bytes : List UInt8) : Prop :=
  ∃ before rest, r.outcomes = before ++ rest ∧ (∀ o ∈ before, o.goesOn = true) ∧
    before.flatMap ReadOutcome.given = bytes ∧ ∀ o ∈ rest.head?, o = .bytes []

/-- A reader breaks before the end of the data. -/
def Reader.Breaks (r : Reader) (text : String) : Prop :=
  ∃ before rest, r.outcomes = before ++ .failed text :: rest ∧ ∀ o ∈ before, o.goesOn = true

theorem Reader.Delivers.contents_eq {r : Reader} {bytes : List UInt8} (h : r.Delivers bytes) :
    r.contents = .ok bytes := by
  obtain ⟨before, rest, houtcomes, hbefore, rfl, hend⟩ := h
  have hrest : contentsOf rest = .ok [] := by
    cases rest with
    | nil => rfl
    | cons o later =>
      obtain rfl := hend o rfl
      rfl
  rw [contents, houtcomes, contentsOf_append hbefore, hrest]
  exact congrArg Except.ok (List.append_nil _)

theorem Reader.Breaks.contents_eq {r : Reader} {text : String} (h : r.Breaks text) :
    r.contents = .error text := by
  obtain ⟨before, rest, houtcomes, hbefore⟩ := h
  rw [contents, houtcomes, contentsOf_append hbefore]
  rfl

/-- Every reader delivers some bytes or breaks. -/
theorem Reader.delivers_or_breaks (r : Reader) :
    (∃ bytes, r.Delivers bytes) ∨ ∃ text, r.Breaks text := by
  obtain ⟨before, rest, houtcomes, hbefore, hrest⟩ := exists_goesOn r.outcomes
  cases rest with
  | nil => exact .inl ⟨_, before, [], houtcomes, hbefore, rfl, nofun⟩
  | cons o later =>
    obtain rfl | ⟨text, rfl⟩ := hrest o rfl
    · refine .inl ⟨_, before, _, houtcomes, hbefore, rfl, fun o' ho' => ?_⟩
      exact (Option.some.inj ho').symm
    · exact .inr ⟨text, before, later, houtcomes, hbefore⟩

/-- Pieces of some bytes give them one after the other. -/
theorem Reader.piecesWith_gives {size : ℕ} (fuel : ℕ) (bytes : List UInt8)
    (hsize : bytes ≠ [] → 0 < size) (hfuel : bytes.length ≤ fuel) :
    (∀ o ∈ piecesWith size fuel bytes, o.goesOn = true) ∧
      (piecesWith size fuel bytes).flatMap ReadOutcome.given = bytes := by
  induction fuel generalizing bytes with
  | zero =>
    obtain rfl := List.eq_nil_of_length_eq_zero (Nat.le_zero.mp hfuel)
    exact ⟨nofun, rfl⟩
  | succ fuel ih =>
    cases bytes with
    | nil => exact ⟨nofun, rfl⟩
    | cons b rest =>
      have hpos := hsize (List.cons_ne_nil b rest)
      have hleft : ((b :: rest).drop size).length ≤ fuel := by
        rw [List.length_drop]
        omega
      obtain ⟨hgoesOn, hgiven⟩ := ih ((b :: rest).drop size) (fun _ => hpos) hleft
      refine ⟨fun o ho => ?_, ?_⟩
      · obtain rfl | ho := List.mem_cons.mp ho
        · have htake : (b :: rest).take size ≠ [] :=
            List.ne_nil_of_length_pos (by rw [List.length_take, List.length_cons]; omega)
          simpa [ReadOutcome.goesOn] using htake
        · exact hgoesOn o ho
      · show (b :: rest).take size ++ (piecesWith size fuel _).flatMap ReadOutcome.given = _
        rw [hgiven, List.take_append_drop]

/-- A reader made to deliver some bytes does so, if its reads give any and none of them fails. -/
theorem Reader.delivers_delivering {d : Delivery} (hmax : d.maxRead ≠ some 0)
    (hfail : d.failAfter = none) (bytes : List UInt8) : (delivering d bytes).Delivers bytes := by
  have hsize : bytes ≠ [] → 0 < d.maxRead.getD bytes.length := by
    intro hne
    cases hm : d.maxRead with
    | none => exact List.length_pos_iff.mpr hne
    | some n => exact Nat.pos_of_ne_zero fun hn => hmax (hm.trans (congrArg some hn))
  obtain ⟨hgoesOn, hgiven⟩ := piecesWith_gives bytes.length bytes hsize (le_refl _)
  refine ⟨(delivering d bytes).outcomes, [], (List.append_nil _).symm, fun o ho => ?_, ?_, nofun⟩
  all_goals
    simp only [delivering, hmax, hfail, if_false] at *
  · obtain ho | ho := List.mem_append.mp ho
    · rw [List.eq_of_mem_replicate ho]
      rfl
    · exact hgoesOn o ho
  · rw [List.flatMap_append, hgiven, List.flatMap_replicate]
    simp [ReadOutcome.given]

/-- A loader that gives streams where another one gives bytes. -/
def Loader.streaming (l : Loader) (d : Reader.Delivery) : Loader :=
  .strategy fun asked name => (l.load asked name).map fun
    | .bytes data => .stream (.delivering d data)
    | .stream reader => .stream reader

theorem Loader.agrees_streaming (l : Loader) {d : Reader.Delivery} (hmax : d.maxRead ≠ some 0)
    (hfail : d.failAfter = none) : l.Agrees (l.streaming d) := by
  intro asked name
  show _ = ((l.load asked name).map _).map Source.contents
  cases l.load asked name with
  | error report => rfl
  | ok source =>
    cases source with
    | bytes data =>
      exact congrArg Except.ok (Reader.delivers_delivering hmax hfail data).contents_eq.symm
    | stream reader => rfl

/-- The same world but for the loader: the same session with the same records. -/
def SameButLoader {γ : Type} (loader : Loader) (v w : World γ) : Prop :=
  w.session.deferred.records = v.session.deferred.records ∧ w.session = v.session.fedBy loader

theorem Twins.sameButLoader {γ : Type} {loader : Loader} {G : γ → γ → Prop} {v w : World γ}
    (h : Twins (FedAlike loader) G v w) : SameButLoader loader v w := by
  obtain ⟨-, hw, -⟩ := twins_fedAlike_iff.mp h
  exact ⟨by rw [hw]; rfl, hw⟩

/-- Reading a source does not depend on how it is cut.  A reader delivers some bytes, in whatever
pieces and with whatever interruptions, or breaks; whatever the chunk size, also if it is 0,
reading gets those bytes, or that failure.  So compiling from a stream is compiling the bytes that
the reader delivers, and a deferred module is compiled of what its source has to give.  Two
sessions with loaders that refuse alike, and else give the same bytes, buffered or as streams of
any kind, answer all requests of a sequence alike and leave the same records. -/
theorem reading_is_chunk_free :
    (∀ r : Reader, (∃ bytes, r.Delivers bytes) ∨ ∃ text, r.Breaks text) ∧
    (∀ (r : Reader) (bytes : List UInt8), r.Delivers bytes →
      (∀ chunkSize, r.drain chunkSize = .ok bytes) ∧
      (∀ e : Engine, e.compileReader r = e.compileProbed bytes) ∧
      ∀ (e : Engine) (c : Capabilities),
        e.compileSource c (.stream r) = (e.compile bytes c).mapError .compile ∧
        e.compileSource c (.stream r) = e.compileSource c (.bytes bytes)) ∧
    (∀ (r : Reader) (text : String), r.Breaks text →
      (∀ chunkSize, r.drain chunkSize = .error text) ∧
      (∀ e : Engine, e.compileReader r = .error (.source text)) ∧
      ∀ (e : Engine) (c : Capabilities), e.compileSource c (.stream r) = .error (.source text)) ∧
    ∀ {γ : Type} {code : Code γ} {G : γ → γ → Prop} {l l' : Loader}, l.Agrees l' →
      code.Unaware l' G → ∀ (depth : ℕ) {v w : World γ}, v.session.deferred.loader = some l →
      w.session = v.session.fedBy l' → G v.guest w.guest →
      (∀ names : List String, EndsAlike (SameButLoader l')
        (names.mapM (load (code.machine depth)) v) (names.mapM (load (code.machine depth)) w)) ∧
      ∀ requests : List Reference, EndsAlike (SameButLoader l')
        (requests.mapM (loadModule (code.machine depth)) v)
        (requests.mapM (loadModule (code.machine depth)) w) := by
  refine ⟨Reader.delivers_or_breaks, fun r bytes h => ?_, fun r text h => ?_, ?_⟩
  · have hcontents := h.contents_eq
    have hstream : (Source.stream r).contents = .ok bytes := hcontents
    refine ⟨fun n => (r.drain_eq n).trans hcontents, fun e => ?_, fun e c => ⟨?_, ?_⟩⟩
    · rw [e.compileReader_eq, hcontents]
    · rw [e.compileSource_eq, hstream]
    · rw [e.compileSource_eq, e.compileSource_eq, hstream]
      rfl
  · have hcontents := h.contents_eq
    have hstream : (Source.stream r).contents = .error text := hcontents
    refine ⟨fun n => (r.drain_eq n).trans hcontents, fun e => ?_, fun e c => ?_⟩
    · rw [e.compileReader_eq, hcontents]
    · rw [e.compileSource_eq, hstream]
  · intro γ code G l l' hagrees hcode depth v w hl hw hg
    have hm := hcode.machine depth
    have htwins := twins_fedAlike_iff.mpr ⟨⟨l, hl, hagrees⟩, hw, hg⟩
    constructor
    · intro names
      exact (Respects.mapM hm.load names v w htwins).mono Twins.sameButLoader
    · intro requests
      have hload := Respects.loadModule (settled_fedAlike l') hm.respects hm.load
      exact (Respects.mapM hload requests v w htwins).mono Twins.sameButLoader

theorem reloading_unaware (loader : Loader) : reloading.Unaware loader (· = ·) where
  respects := {
    own := fun _ hm _ _ _ => (hm.call _ _).bind fun _ => .pure _
    supplied := fun _ _ _ _ _ => .pure _
    native := fun _ _ => .pure _
    note := fun e v w h => by
      refine .ok _ ⟨h.session, h.setting, ?_⟩
      cases e with
      | native args => exact congrArg (fun g => (g.1 + 1, g.2)) h.guest
      | load name answer => exact congrArg (fun g => (g.1, g.2 + 1)) h.guest }
  answered _ _ _ _ _ _ h :=
    .ok _ ⟨h.session, h.setting, congrArg (fun g => (g.1, g.2 + 1)) h.guest⟩

/-- One byte in each read, each after two interruptions at the beginning. -/
def byteByByte : Reader.Delivery := ⟨2, some 1, none⟩

/-- The modules of `keepingModules`, given as such streams. -/
def streamedModules : Loader :=
  (Loader.static [("empty", Image.header), ("starting", [1])]).streaming byteByByte

/-- Three bytes are read in chunks of any size, and what comes after the end is not; requests come
to the same with a loader that gives streams of single bytes. -/
theorem reading_is_chunk_free_byteByByte :
    (Reader.mk [.bytes [1, 2], .interrupted, .bytes [3], .bytes [], .failed "late"]).drain 0
      = .ok [1, 2, 3] ∧
    (Reader.mk [.bytes [1, 2], .interrupted, .failed "early"]).drain 7 = .error "early" ∧
    EndsAlike (SameButLoader streamedModules)
      (["starting", "starting", "absent"].mapM (load (reloading.machine 4)) keepingModules)
      (["starting", "starting", "absent"].mapM (load (reloading.machine 4))
        ⟨keepingModules.session.fedBy streamedModules, (0, 0)⟩) := by
  obtain ⟨-, hdelivers, hbreaks, hrequests⟩ := reading_is_chunk_free
  have hwhole : (Reader.mk [.bytes [1, 2], .interrupted, .bytes [3], .bytes [],
      .failed "late"]).Delivers [1, 2, 3] :=
    ⟨[.bytes [1, 2], .interrupted, .bytes [3]], [.bytes [], .failed "late"], rfl,
      by decide, rfl, fun o ho => (Option.some.inj ho).symm⟩
  have hbroken : (Reader.mk [.bytes [1, 2], .interrupted, .failed "early"]).Breaks "early" :=
    ⟨[.bytes [1, 2], .interrupted], [], rfl, by decide⟩
  have hagrees := Loader.agrees_streaming
    (.static [("empty", Image.header), ("starting", [1])]) (d := byteByByte) (by decide) rfl
  have hstatic : keepingModules.session.deferred.loader
      = some (.static [("empty", Image.header), ("starting", [1])]) := rfl
  have halike := hrequests hagrees (reloading_unaware streamedModules) 4 hstatic
    (w := ⟨keepingModules.session.fedBy streamedModules, (0, 0)⟩) rfl rfl
  refine ⟨(hdelivers _ _ hwhole).1 0, (hbreaks _ _ hbroken).1 7, ?_⟩
  exact halike.1 _

end ModuleHost
