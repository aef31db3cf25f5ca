/-
What the imports of a session's module stand for.

The table of a session is made in layers, each defined over the one before: the functions of
the host, what the embedder supplies, the string builtins if they are bound, the loading
import.  The newest definition of a name wins, so what is supplied replaces a function of the
host, but nothing that is bound after it.

* `Linker.resolve?_foldl_define` — what a layer does to a look-up;
* `resolve?_primaryLinker` — the winner for every name;
* `exists_parts_of_linkPrimary` — an instance is made of what its imports stand for;
* `supplied_wins_unless_bound_later` — the main theorem.
-/
import Mathlib
import ModuleHost.Proofs.Session.Evolving

namespace ModuleHost

open Act

/-! ### Layers -/

namespace Linker

variable {α : Type} {l : Linker} {space name s n : String} {e : Extern}

theorem resolve?_define :
    (l.define space name e).resolve? s n
      = if space = s ∧ name = n then some e else l.resolve? s n := by
  unfold resolve? define
  rw [List.lookup_cons]
  by_cases h : space = s ∧ name = n
  · obtain ⟨rfl, rfl⟩ := h
    simp
  · have hne : (s, n) ≠ (space, name) := by
      rintro ⟨⟩
      exact h ⟨rfl, rfl⟩
    simp [h, beq_false_of_ne hne]

/-- A layer of definitions: the last one under a name wins, and without one the layers below
decide. -/
theorem resolve?_foldl_define (space name : α → String) (entity : α → Extern) (as : List α) :
    (as.foldl (fun l a => l.define (space a) (name a) (entity a)) l).resolve? s n
      = ((as.filter fun a => space a = s ∧ name a = n).getLast?.map entity).or
          (l.resolve? s n) := by
  induction as using List.reverseRecOn with
  | nil => rfl
  | append_singleton as a ih =>
    rw [List.foldl_append, List.foldl_cons, List.foldl_nil, resolve?_define, ih,
      List.filter_append, List.filter_singleton]
    by_cases h : space a = s ∧ name a = n
    · simp [h]
    · simp [h]

end Linker

/-! ### The table of a session -/

/-- The last function that is supplied under a name. -/
def lastSupplied? (supplied : List Supplied) (space name : String) : Option Func :=
  ((supplied.filter fun s => s.space = space ∧ s.name = name).getLast?).map (·.func)

def hostImport? (space name : String) : Option Func :=
  if space = HostFunc.space then (HostFunc.ofName? name).map .host else none

def textImport? (space name : String) : Option Func :=
  if space = TextBuiltin.space then (TextBuiltin.ofName? name).map .builtin else none

/-- What is bound after everything that is supplied: the loading import, and the string
builtins unless they are absent. -/
def laterImport? (b : TextBinding) (space name : String) : Option Func :=
  if space = deferredSpace ∧ name = loadModuleName then some .loadModule
  else if b = .absent then none
  else textImport? space name

def builtIn? (b : TextBinding) (space name : String) : Option Func :=
  (laterImport? b space name).or (hostImport? space name)

section Table

variable {l : Linker} {s n : String}

/-- Where names are not repeated, the last entry of a name is the first. -/
theorem getLast?_filter_of_nodup {α : Type} {name : α → String} {as : List α}
    (h : (as.map name).Nodup) (n : String) :
    (as.filter fun a => name a = n).getLast? = as.find? fun a => name a = n := by
  induction as with
  | nil => rfl
  | cons a rest ih =>
    rw [List.map_cons, List.nodup_cons] at h
    by_cases ha : name a = n
    · have hrest : rest.filter (fun a => name a = n) = [] := by
        refine List.filter_eq_nil_iff.mpr fun b hb hbn => h.1 ?_
        rw [ha, ← of_decide_eq_true hbn]
        exact List.mem_map_of_mem hb
      simp [ha, hrest]
    · simp [ha, ih h.2]

theorem resolve?_addHost :
    l.addHost.resolve? s n = ((hostImport? s n).map .func).or (l.resolve? s n) := by
  have hnames : (HostFunc.all.map HostFunc.name).Nodup := by decide +kernel
  refine (Linker.resolve?_foldl_define (fun _ => HostFunc.space) HostFunc.name
    (fun i => .func (.host i)) HostFunc.all).trans ?_
  by_cases hs : HostFunc.space = s
  · simp [hostImport?, hs, HostFunc.ofName?, getLast?_filter_of_nodup hnames, Function.comp_def]
  · simp [hostImport?, hs, Ne.symm hs]

theorem resolve?_addSupplied (supplied : List Supplied) :
    (l.addSupplied supplied).resolve? s n
      = ((lastSupplied? supplied s n).map .func).or (l.resolve? s n) := by
  refine (Linker.resolve?_foldl_define Supplied.space Supplied.name
    (fun s => .func s.func) supplied).trans ?_
  simp [lastSupplied?, Function.comp_def]

theorem resolve?_addBuiltins :
    l.addBuiltins.resolve? s n = ((textImport? s n).map .func).or (l.resolve? s n) := by
  have hnames : (TextBuiltin.all.map TextBuiltin.name).Nodup := by decide +kernel
  refine (Linker.resolve?_foldl_define (fun _ => TextBuiltin.space) TextBuiltin.name
    (fun b => .func (.builtin b)) TextBuiltin.all).trans ?_
  by_cases hs : TextBuiltin.space = s
  · simp [textImport?, hs, TextBuiltin.ofName?, getLast?_filter_of_nodup hnames,
      Function.comp_def]
  · simp [textImport?, hs, Ne.symm hs]

/-- The winner for every name: what is bound later, else what was supplied last, else the host
table. -/
theorem resolve?_primaryLinker (b : TextBinding) (supplied : List Supplied) (s n : String) :
    (primaryLinker (sharedLinker b supplied)).resolve? s n
      = (((laterImport? b s n).or (lastSupplied? supplied s n)).or (hostImport? s n)).map .func := by
  have hempty : Linker.empty.resolve? s n = none := rfl
  rw [primaryLinker, Linker.resolve?_define]
  by_cases hload : deferredSpace = s ∧ loadModuleName = n
  · obtain ⟨rfl, rfl⟩ := hload
    simp [laterImport?]
  · have hload' : ¬ (s = deferredSpace ∧ n = loadModuleName) := fun h => hload ⟨h.1.symm, h.2.symm⟩
    rw [if_neg hload]
    cases b <;>
      simp [sharedLinker, laterImport?, hload', resolve?_addBuiltins, resolve?_addSupplied,
        resolve?_addHost, hempty, Option.map_or, Option.or_assoc]

end Table

/-! ### Linking -/

variable {γ : Type} {m : Machine γ} {w w' : World γ}

theorem exists_of_accept_eq_ok {α : Type} {x : Except Report α} {a : α}
    (h : (accept x : Act γ α) w = .ok a w') : x = .ok a := by
  cases x with
  | error r => exact absurd h (by simp [accept, throw, throwThe, MonadExceptOf.throw, EStateM.throw])
  | ok b =>
    cases h
    rfl

theorem forall₂_of_resolveAll {l : Linker} {imports : List Import} {es : List Extern}
    (h : l.resolveAll imports = .ok es) :
    List.Forall₂ (fun i e => l.resolveImport i = .ok e) imports es := by
  induction imports generalizing es with
  | nil =>
    cases h
    exact .nil
  | cons i rest ih =>
    rw [Linker.resolveAll, List.mapM_cons] at h
    obtain ⟨e, he, h⟩ := exists_of_bind_eq_ok h
    obtain ⟨es, hes, h⟩ := exists_of_bind_eq_ok h
    cases h
    exact .cons he (ih hes)

/-- An instance is made of what its imports stand for. -/
theorem exists_parts_of_instantiate {d : Description} {es : List Extern} {i : Instance}
    (h : instantiate m d es w = .ok i w') :
    ∃ own, i = (⟨es, own⟩ : Parts).toInstance d.exports := by
  obtain ⟨s, w₁, -, h⟩ := exists_of_bind_ok h
  obtain ⟨own, w₂, -, h⟩ := exists_of_bind_ok h
  obtain ⟨⟨⟩, w₃, -, h⟩ := exists_of_bind_ok h
  cases h
  exact ⟨own, rfl⟩

/-- An instance is made of what the imports of its module stand for. -/
theorem exists_parts_of_makeInstance {l : Linker} {d : Description} {i : Instance}
    (h : makeInstance m l d w = .ok i w') :
    ∃ p : Parts, List.Forall₂ (fun i e => l.resolveImport i = .ok e) d.imports p.imports ∧
      i = p.toInstance d.exports := by
  obtain ⟨imports, w₁, himports, h⟩ := exists_of_bind_ok h
  obtain ⟨s, w₂, -, h⟩ := exists_of_bind_ok h
  obtain ⟨⟨⟩, w₃, -, h⟩ := exists_of_bind_ok h
  obtain ⟨own, rfl⟩ := exists_parts_of_instantiate h
  exact ⟨⟨imports, own⟩, forall₂_of_resolveAll (exists_of_accept_eq_ok himports), rfl⟩

theorem exists_parts_of_linkPrimary {d : Description} {supplied : List Supplied}
    (h : linkPrimary m d supplied w = .ok ⟨⟩ w') :
    ∃ p : Parts, List.Forall₂ (fun i e =>
        (primaryLinker (sharedLinker w.session.binding supplied)).resolveImport i = .ok e)
          d.imports p.imports ∧
      w'.session.primary = some (p.toInstance d.exports) := by
  obtain ⟨s, w₁, hs, h⟩ := exists_of_bind_ok h
  cases hs
  obtain ⟨i, w₂, hi, h⟩ := exists_of_bind_ok h
  obtain ⟨p, hp, rfl⟩ := exists_parts_of_makeInstance hi
  cases h
  exact ⟨p, hp, rfl⟩

/-- An import whose name is supplied stands for the function that was supplied last under it,
exactly as long as the session binds nothing to the name later; the loading import and the
string builtins that are bound win over it.  An import whose name is not supplied stands for the
built-in function.  The instance of a session is made of what its imports stand for. -/
theorem supplied_wins_unless_bound_later (e : Engine) (c : Capabilities) (loader : Option Loader)
    (g : γ) (m : Machine γ) (supplied : List Supplied) (d : Description) :
    let b := bindingOf c e.config
    let l := primaryLinker (sharedLinker b supplied)
    (∀ i : Import,
      (∀ f, lastSupplied? supplied i.space i.name = some f →
        (laterImport? b i.space i.name = none → l.resolveImport i = .ok (.func f)) ∧
        ∀ f', laterImport? b i.space i.name = some f' → l.resolveImport i = .ok (.func f')) ∧
      (lastSupplied? supplied i.space i.name = none →
        (∀ f, builtIn? b i.space i.name = some f → l.resolveImport i = .ok (.func f)) ∧
        (builtIn? b i.space i.name = none → l.resolveImport i = .error (undefinedImport i)))) ∧
    ∀ w', linkPrimary m d supplied ⟨.new e c loader, g⟩ = .ok ⟨⟩ w' →
      ∃ p : Parts, List.Forall₂ (fun i e => l.resolveImport i = .ok e) d.imports p.imports ∧
        w'.session.primary = some (p.toInstance d.exports) := by
  intro b l
  refine ⟨fun i => ?_, fun w' h => exists_parts_of_linkPrimary h⟩
  have hwinner := resolve?_primaryLinker b supplied i.space i.name
  constructor
  · intro f hf
    constructor
    · intro hlater
      rw [hf, hlater] at hwinner
      simp [l, Linker.resolveImport, hwinner]
    · intro f' hlater
      rw [hlater] at hwinner
      simp [l, Linker.resolveImport, hwinner]
  · intro hnone
    rw [hnone, Option.or_none, ← builtIn?] at hwinner
    constructor
    · intro f hf
      simp [l, Linker.resolveImport, hwinner, hf]
    · intro hf
      simp [l, Linker.resolveImport, hwinner, hf]

/-- Functions that are supplied under names that are taken, one of them twice. -/
def overrides : List Supplied :=
  [⟨HostFunc.space, "print", .supplied "first" ⟨[.externref], []⟩⟩,
    ⟨TextBuiltin.space, "length", .supplied "length" ⟨[.externref], [.i32]⟩⟩,
    ⟨deferredSpace, loadModuleName, .supplied "load" ⟨[.externref], [.externref]⟩⟩,
    ⟨HostFunc.space, "print", .supplied "second" ⟨[.externref], []⟩⟩]

/-- A module that imports those names and one more, and exports them again. -/
def overridden : Description :=
  { Description.empty with
    imports :=
      [⟨HostFunc.space, "print", .func ⟨[.externref], []⟩⟩,
        ⟨TextBuiltin.space, "length", .func ⟨[.externref], [.i32]⟩⟩,
        ⟨deferredSpace, loadModuleName, .func ⟨[.externref], [.externref]⟩⟩,
        ⟨HostFunc.space, "type_tag", .func ⟨[.externref], [.i32]⟩⟩]
    exports :=
      [⟨"print", .again 0⟩, ⟨"length", .again 1⟩, ⟨"load", .again 2⟩, ⟨"type_tag", .again 3⟩] }

def idleMachine : Machine Unit :=
  ⟨fun _ _ => return [], fun _ _ => return .undefined, fun _ => return ()⟩

/-- A new session of an engine that knows the string builtins. -/
def freshWorld : World Unit := ⟨.new (.standard .default ⟨[]⟩ true) ⟨true⟩ none, ()⟩

def overriddenWorld : World Unit := final (linkPrimary idleMachine overridden overrides) freshWorld

theorem linkPrimary_overridden :
    linkPrimary idleMachine overridden overrides freshWorld = .ok ⟨⟩ overriddenWorld := rfl

/-- The function supplied last replaces the one of the host table, but neither the string builtin
nor the loading import is replaced; the instance is made of these. -/
theorem supplied_wins_unless_bound_later_overridden :
    let l := primaryLinker (sharedLinker (bindingOf ⟨true⟩ .default) overrides)
    (∀ t, l.resolveImport ⟨HostFunc.space, "print", t⟩
      = .ok (.func (.supplied "second" ⟨[.externref], []⟩))) ∧
    (∀ t, l.resolveImport ⟨TextBuiltin.space, "length", t⟩ = .ok (.func (.builtin .length))) ∧
    (∀ t, l.resolveImport ⟨deferredSpace, loadModuleName, t⟩ = .ok (.func .loadModule)) ∧
    (∀ t, l.resolveImport ⟨HostFunc.space, "type_tag", t⟩ = .ok (.func (.host .typeTag))) ∧
    linkPrimary idleMachine overridden overrides freshWorld = .ok ⟨⟩ overriddenWorld ∧
    ∃ p : Parts,
      List.Forall₂ (fun i e => l.resolveImport i = .ok e) overridden.imports p.imports ∧
      overriddenWorld.session.primary = some (p.toInstance overridden.exports) := by
  obtain ⟨hnames, hlinked⟩ :=
    supplied_wins_unless_bound_later (.standard .default ⟨[]⟩ true) ⟨true⟩ none () idleMachine
      overrides overridden
  have hprint : lastSupplied? overrides HostFunc.space "print"
      = some (.supplied "second" ⟨[.externref], []⟩) := by decide +kernel
  have hlength : lastSupplied? overrides TextBuiltin.space "length"
      = some (.supplied "length" ⟨[.externref], [.i32]⟩) := by decide +kernel
  have hload : lastSupplied? overrides deferredSpace loadModuleName
      = some (.supplied "load" ⟨[.externref], [.externref]⟩) := by decide +kernel
  have htag : lastSupplied? overrides HostFunc.space "type_tag" = none := by decide +kernel
  exact ⟨fun t => ((hnames ⟨_, _, t⟩).1 _ hprint).1 rfl,
    fun t => ((hnames ⟨_, _, t⟩).1 _ hlength).2 _ rfl,
    fun t => ((hnames ⟨_, _, t⟩).1 _ hload).2 _ rfl,
    fun t => ((hnames ⟨_, _, t⟩).2 htag).1 _ rfl,
    linkPrimary_overridden, hlinked _ linkPrimary_overridden⟩

/-- A string builtin and the loading import win over a function supplied under their name. -/
theorem supplied_loses_when_bound_later :
    ¬ ∀ (e : Engine) (c : Capabilities) (supplied : List Supplied) (i : Import) (f : Func),
      lastSupplied? supplied i.space i.name = some f →
      (primaryLinker (sharedLinker (bindingOf c e.config) supplied)).resolveImport i
        = .ok (.func f) := by
  intro h
  have hlength := h (.standard .default ⟨[]⟩ true) ⟨true⟩ overrides
    ⟨TextBuiltin.space, "length", .func ⟨[.externref], [.i32]⟩⟩ _ rfl
  exact absurd hlength (by decide +kernel)

end ModuleHost
