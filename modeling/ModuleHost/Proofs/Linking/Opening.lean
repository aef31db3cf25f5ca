/-
Opening a module with engines that do and do not know the string builtins.

To open a module is to compile its bytes with what the engine turns out to support and to link it
with nothing supplied.  Its imports stand for the same whichever engine it is, and its start
function calls one of them, none of which runs module code before the module is linked.  So
the one engine opens what the other one opens, and the sessions are the same but for their setting.

* `World.polyfilled` — the same world with an engine that does not know the string builtins;
* `HostCall.run_eq_run_of_unlinked` — host functions run no code before the module is linked;
* `opens_polyfilled_iff` — the one engine opens what the other one opens.
-/
import Mathlib
import ModuleHost.Proofs.Linking.Instances
import ModuleHost.Proofs.Linking.TextImports
import ModuleHost.Proofs.Session.Refusals

namespace ModuleHost

open Act

variable {γ α β : Type}

/-! ### Worlds without native string builtins -/

/-- The same records, of requests without extensions. -/
def DeferredLoads.plain (d : DeferredLoads) : DeferredLoads :=
  { d with records := d.records.map fun r => { r with capabilities := .none } }

/-- The setting of a session whose engine does not know the string builtins, so that they are
bound as host functions. -/
def Setting.polyfilled (x : Setting) : Setting :=
  { x with
    stringBuiltins := false
    capabilities := .none
    binding := .polyfill
    deferred := x.deferred.plain }

def Session.polyfilled (s : Session) : Session := s.under s.setting.polyfilled

def World.polyfilled (w : World γ) : World γ := ⟨w.session.polyfilled, w.guest⟩

theorem Session.engine_polyfilled (s : Session) : s.polyfilled.engine = s.engine.polyfilled := rfl

/-- A new session with the one engine is one with the other, in another setting. -/
theorem Session.new_polyfilled {e : Engine} (hp : e.config.stringPolyfill = true)
    (loader : Option Loader) :
    (Session.new e e.probe loader).polyfilled
      = Session.new e.polyfilled e.polyfilled.probe loader := by
  have hbinding : bindingOf e.polyfilled.probe e.polyfilled.config = .polyfill := by
    rw [Engine.probe_polyfilled]
    exact if_pos hp
  unfold Session.new
  rw [hbinding, Engine.probe_polyfilled]
  rfl

/-! ### Before the module is linked -/

/-- Nothing has been linked in a session that has no table for deferred modules. -/
theorem Session.Reachable.primary_eq_none {s : Session} (hs : s.Reachable)
    (hl : s.deferred.linker = none) : s.primary = none := by
  refine hs.invariant (P := fun s => s.deferred.linker = none → s.primary = none)
    (fun _ _ _ _ => rfl) (fun {a b} hc hp hl => ?_) hl
  cases hc with
  | linked i l => cases hl
  | recorded r _ =>
    rw [DeferredLoads.push] at hl
    exact hp hl
  | _ => exact hp hl

namespace HostCall

variable {m m' : Machine γ} {w : World γ}

theorem requireExport_of_unlinked (hw : w.session.primary = none) (name : String)
    {k k' : Func → Act γ α} : (requireExport name >>= k) w = (requireExport name >>= k') w := by
  have hnone : requireExport name w = .error (.marshal .notLinked) w := by
    have hprimary : primary w = .error (.marshal .notLinked) w := by
      refine (bind_session _ w).trans ?_
      rw [hw]
      rfl
    have hlookup : lookupExport name w = .error (.marshal .notLinked) w := bind_of_error hprimary _
    exact bind_of_error hlookup _
  rw [bind_of_error hnone, bind_of_error hnone]

theorem receiveList_of_unlinked (hw : w.session.primary = none) (list : Int32) :
    receiveList m list w = receiveList m' list w := requireExport_of_unlinked hw _

theorem receiveText_of_unlinked (hw : w.session.primary = none) (s : ModuleText) :
    receiveText m s w = receiveText m' s w := by
  unfold receiveText
  by_cases hlength : s.length = 0
  · simp only [hlength, if_true]
  · simp only [hlength, if_false]
    exact requireExport_of_unlinked hw _

/-- Two ways to go on after something that changes nothing come to the same, if they do from
there. -/
theorem bind_congr_of_checks {x : Act γ α} {k k' : α → Act γ β} (hx : Checks x)
    (hk : ∀ a, k a w = k' a w) : (x >>= k) w = (x >>= k') w := by
  cases hw : x w with
  | error e w₁ => rw [bind_of_error hw, bind_of_error hw]
  | ok a w₁ =>
    obtain rfl := hx.keeps w w₁ a hw
    rw [bind_of_ok hw, bind_of_ok hw]
    exact hk a

theorem param_congr {δ : Type} [Argument δ] {k k' : δ → List Val → Act γ (List Val)}
    {args : List Val}
    (hk : ∀ v rest a, args = v :: rest → Argument.ofVal? v = some a → k a rest w = k' a rest w) :
    param k args w = param k' args w := by
  cases args with
  | nil => rfl
  | cons v rest =>
    simp only [param]
    cases ha : (Argument.ofVal? v : Option δ) with
    | none => rfl
    | some a => exact hk v rest a rfl ha

theorem done_congr {x x' : Act γ α} {k : α → Act γ (List Val)} (hx : x w = x' w)
    (args : List Val) : done (x >>= k) args w = done (x' >>= k) args w := by
  cases args with
  | nil => exact bind_of_eq hx _
  | cons v rest => rfl

theorem stringToModule_null (m : Machine γ) (w : World γ) :
    stringToModule m .null w = .error (.marshal (Value.null.mismatch .string)) w := rfl

theorem callFunction_null (m : Machine γ) (w : World γ) :
    callFunction m .null .null w = .error (.marshal (Value.null.mismatch .function)) w := rfl

/-- The only reference that a start function passes is null. -/
theorem eq_null_of_toVal {args : List StartArg} {vs : List Val} {v : Val} {r : Reference}
    (hargs : args.map StartArg.toVal = vs) (hv : v ∈ vs) (hr : Argument.ofVal? v = some r) :
    r = .null := by
  obtain ⟨arg, -, rfl⟩ := List.mem_map.mp (hargs ▸ hv)
  cases arg with
  | i32 n => cases hr
  | null =>
    cases hr
    rfl

/-- Called by a start function before the module is linked, a host function runs no code: it
fails before it would. -/
theorem run_eq_run_of_unlinked (m m' : Machine γ) (hw : w.session.primary = none) (f : HostFunc)
    (args : List StartArg) :
    run m f (args.map StartArg.toVal) w = run m' f (args.map StartArg.toVal) w := by
  by_cases hf : f.entersModule = false
  · rw [run_eq_run hf m m']
  cases f with
  | stringToModule =>
    refine param_congr fun v rest r hargs hr => ?_
    rw [eq_null_of_toVal hargs (by simp) hr]
    exact done_congr ((stringToModule_null m w).trans (stringToModule_null m' w).symm) rest
  | stringFromModule wide =>
    refine param_congr fun v rest handle _ _ => param_congr fun v' rest' length _ _ => ?_
    refine done_congr (bind_congr_of_checks (Checks.index length) fun n => ?_) rest'
    exact bind_of_eq (receiveText_of_unlinked hw _) _
  | arrayFromModuleList =>
    refine param_congr fun v rest list _ _ => ?_
    exact done_congr (bind_of_eq (receiveList_of_unlinked hw list) _) rest
  | typedArrayFromModuleList =>
    refine param_congr fun v rest tag _ _ => param_congr fun v' rest' list _ _ => ?_
    refine done_congr (bind_congr_of_checks (checks_elementOfTag tag) fun e => ?_) rest'
    exact bind_of_eq (bind_of_eq (receiveList_of_unlinked hw list) _) _
  | callFunction =>
    refine param_congr fun v rest r hargs hr => param_congr fun v' rest' r' hargs' hr' => ?_
    subst hargs'
    rw [eq_null_of_toVal hargs (by simp) hr, eq_null_of_toVal hargs (by simp) hr']
    exact done_congr ((callFunction_null m w).trans (callFunction_null m' w).symm) rest'
  | _ => exact absurd rfl hf

end HostCall

theorem loadModule_null (m : Machine γ) (w : World γ) :
    loadModule m .null w = .error (.marshal (Value.null.mismatch .string)) w := rfl

/-- Whether a function is one that every module of a session can import. -/
def Func.isShared : Func → Bool
  | .host _ | .builtin _ | .loadModule => true
  | _ => false

/-- Everything that a module can import when it is opened is shared. -/
theorem isShared_of_resolveImport {b : TextBinding} {i : Import} {x : Extern}
    (h : (primaryLinker (sharedLinker b [])).resolveImport i = .ok x) :
    ∃ f : Func, x = .func f ∧ f.isShared = true := by
  -- nothing is supplied, so a name stands for a host function or for what is bound later
  have hnone : lastSupplied? [] i.space i.name = none := rfl
  have hwinner := resolve?_primaryLinker b [] i.space i.name
  rw [hnone, Option.or_none] at hwinner
  rw [Linker.resolveImport, hwinner] at h
  cases hf : (laterImport? b i.space i.name).or (hostImport? i.space i.name) with
  | none =>
    rw [hf] at h
    cases h
  | some f =>
    rw [hf] at h
    cases h
    refine ⟨f, rfl, ?_⟩
    rcases Option.or_eq_some_iff.mp hf with hlater | ⟨-, hhost⟩
    · unfold laterImport? textImport? at hlater
      split_ifs at hlater
      · cases hlater
        rfl
      · obtain ⟨b, -, rfl⟩ := Option.map_eq_some_iff.mp hlater
        rfl
    · unfold hostImport? at hhost
      split_ifs at hhost
      obtain ⟨i, -, rfl⟩ := Option.map_eq_some_iff.mp hhost
      rfl

theorem isShared_of_check {b : TextBinding} {s : Session} {imports : List Import} {es : List Extern}
    {f : Func} (h : (primaryLinker (sharedLinker b [])).check s imports = .ok es)
    (hf : .func f ∈ es) : f.isShared = true := by
  obtain ⟨n, hn, hget⟩ := List.mem_iff_getElem.mp hf
  have hresolve := (exists_of_check h).1
  have hi := (List.forall₂_iff_get.mp hresolve).2 n (hresolve.length_eq ▸ hn) hn
  obtain ⟨f', hx, hshared⟩ := isShared_of_resolveImport hi
  cases hget.symm.trans hx
  exact hshared

section Calls

variable {K : Session → Setting → Prop} {G : γ → γ → Prop} {c : Code γ}

/-- What a start function calls before the module is linked ends alike. -/
theorem Code.respects_shared (hK : Settled K) (hunlinked : ∀ s x, K s x → s.primary = none)
    (depth : ℕ) {f : Func} (hf : f.isShared = true) (args : List StartArg) :
    Act.Respects (Twins K G) ((c.machine depth).call f (args.map StartArg.toVal)) := by
  cases depth with
  | zero => exact .throw _
  | succ depth =>
    show Act.Respects _ (c.run (c.machine depth) f _)
    cases f with
    | host i =>
      intro v w h
      have hv := hunlinked _ _ h.setting
      have hw : w.session.primary = none := by rw [h.session]; exact hv
      show EndsAlike _ (HostCall.run _ i _ v) (HostCall.run _ i _ w)
      rw [HostCall.run_eq_run_of_unlinked _ .inert hv, HostCall.run_eq_run_of_unlinked _ .inert hw]
      exact (HostCall.orderly_run i _).respects_of_inert hK v w h
    | builtin b => exact (b.orderly_run _).respects_of_inert hK
    | loadModule =>
      -- the only reference that can be passed is null, and that is no name
      rcases args with _ | ⟨arg, _ | ⟨_, _⟩⟩
      · exact .throw _
      · cases arg with
        | i32 n => exact .throw _
        | null =>
          have hnull : loadModule (c.machine depth) .null = throw _ :=
            funext fun w => loadModule_null _ w
          show Act.Respects _ (loadModule (c.machine depth) .null >>= fun r => pure [.ref r])
          rw [hnull]
          exact (Act.Respects.throw _).bind fun _ => .pure _
      · cases arg with
        | i32 n => exact .throw _
        | null => exact .throw _
    | supplied _ _ | own _ _ _ | const _ | relay _ => cases hf

end Calls

/-! ### Opening -/

/-- An engine opens a module: its bytes compile with what the engine turns out to support, what it
declares of host functions is right, and it links with nothing supplied. -/
structure Engine.Opens (e : Engine) (m : Machine γ) (loader : Option Loader) (g : γ)
    (bytes : List UInt8) (d : Description) (w : World γ) : Prop where
  compiles : e.compile bytes e.probe = .ok d
  declares : checkDeclarations [] d.imports = .ok ⟨⟩
  links : linkPrimary m d [] ⟨.new e e.probe loader, g⟩ = .ok ⟨⟩ w

/-- A setting in which the string builtins are bound as host functions, of a session that has
evolved from a new one and in which nothing has been linked yet. -/
structure Unlinked (e : Engine) (loader : Option Loader) (s : Session) (x : Setting) : Prop where
  evolves : (Session.new e e.probe loader).Evolves s
  linker : s.deferred.linker = none
  setting : x = s.setting.polyfilled

theorem settled_unlinked {e : Engine} {loader : Option Loader} : Settled (Unlinked e loader) := by
  rintro s s' x hev hsetting ⟨hs, hl, rfl⟩
  have hdeferred : s'.deferred = s.deferred := congrArg Setting.deferred hsetting
  exact ⟨hs.trans hev, by rw [hdeferred, hl], by rw [hsetting]⟩

theorem Unlinked.primary {e : Engine} {loader : Option Loader} {s : Session} {x : Setting}
    (h : Unlinked e loader s x) : s.primary = none :=
  Session.Reachable.primary_eq_none ⟨_, _, _, h.evolves⟩ h.linker

/-- Wherever they are bound, the string builtins are bound to the same. -/
theorem sharedLinker_of_ne_absent {b : TextBinding} (hb : b ≠ .absent)
    (supplied : List Supplied) :
    sharedLinker b supplied = (Linker.empty.addHost.addSupplied supplied).addBuiltins := by
  cases b with
  | native => simp only [sharedLinker]
  | polyfill => simp only [sharedLinker]
  | absent => exact absurd rfl hb

section Opens

variable {e : Engine} {c : Code γ} {loader : Option Loader} {g : γ} {bytes : List UInt8}
  {d : Description} {w w' : World γ}

theorem bindingOf_ne_absent (hp : e.config.stringPolyfill = true) (c : Capabilities) :
    bindingOf c e.config ≠ .absent := by
  unfold bindingOf
  split_ifs <;> nofun

theorem eq_polyfilled_of_twins {v w : World γ} {K : Session → Setting → Prop}
    (hK : ∀ s x, K s x → x = s.setting.polyfilled) (h : Twins K (· = ·) v w) :
    w = v.polyfilled := by
  obtain ⟨hsession, hsetting, hguest⟩ := h
  have hw : w.session = v.session.polyfilled := by
    rw [hsession, hK _ _ hsetting]
    rfl
  rw [World.polyfilled, ← hw, hguest]

/-- Link the module of a session, all modules of which can import the same. -/
def linkShared (m : Machine γ) (shared : Linker) (d : Description) : Act γ Unit := do
  let i ← makeInstance m (primaryLinker shared) d
  modifySession fun s =>
    { s with
      primary := some i
      memory := i.memory? "memory"
      deferred := { s.deferred with linker := some (deferredLinker shared i) } }

theorem linkPrimary_eq (m : Machine γ) (d : Description) (supplied : List Supplied)
    (w : World γ) :
    linkPrimary m d supplied w = linkShared m (sharedLinker w.session.binding supplied) d w := rfl

/-- Linking the module of a session ends alike, in sessions that have evolved from new ones. -/
theorem endsAlike_linkPrimary (hp : e.config.stringPolyfill = true) (c : Code γ) (depth : ℕ)
    (loader : Option Loader) (g : γ) (d : Description) :
    EndsAlike (fun v w => (Session.new e e.probe loader).Evolves v.session ∧ w = v.polyfilled)
      (linkPrimary (c.machine depth) d [] ⟨.new e e.probe loader, g⟩)
      (linkPrimary (c.machine depth) d []
        ⟨.new e.polyfilled e.polyfilled.probe loader, g⟩) := by
  set s := Session.new e e.probe loader
  have hshared : sharedLinker s.polyfilled.binding [] = sharedLinker s.binding [] := by
    have hs : s.binding ≠ .absent := bindingOf_ne_absent hp _
    have hs' : s.polyfilled.binding ≠ .absent := fun h : TextBinding.polyfill = .absent => nomatch h
    rw [sharedLinker_of_ne_absent hs, sharedLinker_of_ne_absent hs']
  have htwins : Twins (Unlinked e loader) (· = ·) (⟨s, g⟩ : World γ) ⟨s.polyfilled, g⟩ :=
    ⟨rfl, ⟨.refl, rfl, rfl⟩, rfl⟩
  rw [← Session.new_polyfilled hp, linkPrimary_eq, linkPrimary_eq, hshared]
  have hmake : EndsAlike (fun v w => s.Evolves v.session ∧ w = v.polyfilled)
      (makeInstance (c.machine depth) (primaryLinker (sharedLinker s.binding [])) d ⟨s, g⟩)
      (makeInstance (c.machine depth) (primaryLinker (sharedLinker s.binding [])) d
        ⟨s.polyfilled, g⟩) := by
    refine (EndsAlike.makeInstance settled_unlinked.linkingSteps htwins ?_
      fun es f args hes hcall => ?_).mono
        fun h => ⟨h.setting.evolves, eq_polyfilled_of_twins (fun s x h => h.setting) h⟩
    · exact Linker.check_congr rfl rfl _ _
    · obtain ⟨hf, args, rfl⟩ := mem_of_startCall? hcall
      exact Code.respects_shared settled_unlinked (fun s x h => h.primary) depth
        (isShared_of_check hes hf) args
  refine hmake.bind fun i v w ⟨hv, hw⟩ => ?_
  subst hw
  exact .ok _ ⟨hv.tail (.linked i _), rfl⟩

theorem exists_check_of_linkPrimary {m : Machine γ} {supplied : List Supplied}
    (h : linkPrimary m d supplied w = .ok ⟨⟩ w') :
    ∃ es own,
      (primaryLinker (sharedLinker w.session.binding supplied)).check w.session d.imports
        = .ok es ∧
      w'.session.primary = some ((⟨es, own⟩ : Parts).toInstance d.exports) ∧
      ∃ i, w'.session.deferred.linker
        = some (deferredLinker (sharedLinker w.session.binding supplied) i) := by
  rw [linkPrimary_eq] at h
  obtain ⟨i, w₁, hi, h⟩ := exists_of_bind_ok h
  cases h
  cases hc : (primaryLinker (sharedLinker w.session.binding supplied)).check w.session d.imports
    with
  | error cause =>
    rw [makeInstance_of_check_error hc] at hi
    cases hi
  | ok es =>
    rw [makeInstance_of_check_ok hc] at hi
    obtain ⟨own, rfl⟩ := exists_parts_of_instantiate hi
    exact ⟨es, own, rfl, rfl, _, rfl⟩

/-- A session in which a module has been opened has evolved from a new one. -/
theorem Engine.Opens.evolves (hbinds : e.config.stringPolyfill = true) {depth : ℕ}
    (h : e.Opens (c.machine depth) loader g bytes d w) :
    (Session.new e e.probe loader).Evolves w.session := by
  have halike := endsAlike_linkPrimary hbinds c depth loader g d
  rw [h.links] at halike
  generalize linkPrimary (c.machine depth) d []
    ⟨.new e.polyfilled e.polyfilled.probe loader, g⟩ = r at halike
  cases halike with
  | ok _ related => exact related.1

/-- Without the string builtins an engine opens what it opens with them: with the same outcome of
the start function, leaving the same world but for its setting. -/
theorem opens_polyfilled_iff (hmatches : e.MatchesFunctions)
    (hknows : e.config.stringBuiltins = true) (hbinds : e.config.stringPolyfill = true)
    (depth : ℕ) :
    e.polyfilled.Opens (c.machine depth) loader g bytes d w' ↔
      ∃ w, e.Opens (c.machine depth) loader g bytes d w ∧ w' = w.polyfilled := by
  have halike := endsAlike_linkPrimary hbinds c depth loader g d
  constructor
  · rintro ⟨hcompiles, hdeclares, hlinks⟩
    rw [hlinks] at halike
    generalize hnative : linkPrimary (c.machine depth) d [] ⟨.new e e.probe loader, g⟩ = r
      at halike
    cases halike with
    | @ok _ w _ related =>
      obtain ⟨es, _, hes, -⟩ := exists_check_of_linkPrimary hlinks
      have hbound : (primaryLinker (sharedLinker
          (bindingOf e.polyfilled.probe e.polyfilled.config) [])).BindsText :=
        Linker.bindsText_primaryLinker (bindingOf_ne_absent hbinds _)
      -- what has been linked passes the check that the other engine makes when it compiles
      have hcompiles' : e.compile bytes e.probe = .ok d := by
        rw [Engine.compile_probe_eq hknows, hcompiles]
        exact e.checkBuiltins_of_ok (checkBuiltins_of_check hmatches hbound hes)
      exact ⟨w, ⟨hcompiles', hdeclares, hnative⟩, related.2⟩
  · rintro ⟨w, ⟨hcompiles, hdeclares, hlinks⟩, rfl⟩
    rw [hlinks] at halike
    generalize hpoly : linkPrimary (c.machine depth) d []
      ⟨.new e.polyfilled e.polyfilled.probe loader, g⟩ = r at halike
    cases halike with
    | ok _ related =>
      obtain ⟨-, rfl⟩ := related
      rw [Engine.compile_probe_eq hknows] at hcompiles
      obtain ⟨d', hd', hchecked⟩ := exists_of_bind_eq_ok hcompiles
      rw [Engine.eq_of_checkBuiltins hchecked] at hdeclares hpoly ⊢
      exact ⟨hd', hdeclares, hpoly⟩

end Opens

end ModuleHost
