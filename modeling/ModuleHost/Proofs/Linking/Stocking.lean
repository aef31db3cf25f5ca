/-
Putting the parts of an instance in place.

Once its imports are known to be functions, an instance gets a memory, a table and globals of its
own, and its segments are copied into them.  That can be done exactly if the memory is not larger
than the engine admits and the segments lie within the table and the memory.

* `Description.Fits` — the condition;
* `Engine.Conforms` — an engine that compares functions by their types and makes what fits;
* `Store.makeOwn_of_le`, `Store.fillSlots_cases`, `Store.fillMemories_cases` — one lemma for each
  step of the standard engine;
* `Store.stock_cases`, `Engine.standard_conforms` — the steps put together.
-/
import Mathlib
import ModuleHost.Proofs.Linking.TextImports

namespace ModuleHost

variable {s s' : Store} {d : Description} {es : List Extern} {p : Parts} {limit : ℕ}

/-- The memory of a module is not too large, and its segments lie within its table and memory. -/
structure Description.Fits (d : Description) (pages : ℕ) : Prop where
  memory : ∀ l, d.memory = some l → l.minimum ≤ pages
  elem : ∀ e, d.elem = some e → ∃ slots, d.table = some slots ∧ e.slot < slots.length
  data : ∀ s, d.data = some s →
    ∃ l, d.memory = some l ∧ s.address + s.bytes.length ≤ l.minimum * pageSize

/-- An engine that compares functions by their types and, as long as there is room for one more
instance, makes what is an instance's own exactly if that fits.  What it does with imports other
than functions is left open. -/
structure Engine.Conforms (e : Engine) : Prop where
  functions : e.MatchesFunctions
  stock : ∀ (d : Description) (es : List Extern) (s : Store), (∀ x ∈ es, ∃ f, x = .func f) →
    s.instances < instanceLimit →
      ((∃ own s', e.stock d es s = .ok own s') ↔ d.Fits e.config.maxMemoryPages)

theorem Parts.firstMemory?_of_functions (h : ∀ x ∈ p.imports, ∃ f, x = .func f) :
    p.firstMemory? = p.own.memory := by
  rw [firstMemory?, List.findSome?_eq_none_iff.mpr, Option.none_or]
  intro x hx
  obtain ⟨f, rfl⟩ := h x hx
  rfl

theorem Parts.firstTable?_of_functions (h : ∀ x ∈ p.imports, ∃ f, x = .func f) :
    p.firstTable? = p.own.table := by
  rw [firstTable?, List.findSome?_eq_none_iff.mpr, Option.none_or]
  intro x hx
  obtain ⟨f, rfl⟩ := h x hx
  rfl

namespace Store

/-- The memory and the table that the segments of a module go into are its own. -/
structure Placed (d : Description) (p : Parts) (s : Store) : Prop where
  memory : p.firstMemory?.map (fun id => ((s.memories[id]?).getD default).size)
    = d.memory.map (·.minimum * pageSize)
  table : p.firstTable?.map (fun id => ((s.tables[id]?).getD []).length)
    = d.table.map List.length

/-! ### What is the module's own -/

theorem countInstance_of_lt (hroom : s.instances < instanceLimit) :
    countInstance s = .ok (s.instances + 1) { s with instances := s.instances + 1 } := by
  have hle : ¬ instanceLimit < s.instances + 1 := by omega
  show (if instanceLimit < s.instances + 1 then _ else _ : StoreAct ℕ) s = _
  rw [if_neg hle]
  rfl

theorem makeMemory_of_lt {l : Limits} (hlarge : limit < l.minimum) :
    makeMemory limit l s
      = .error (.of s!"memory minimum size of {l.minimum} pages exceeds memory limits") s := by
  show (if limit < l.minimum then _ else _ : StoreAct ℕ) s = _
  rw [if_pos hlarge]
  rfl

/-- A memory that is made has the least size that is declared. -/
theorem makeMemory_of_le {l : Limits} (hfits : l.minimum ≤ limit) :
    ∃ id s', makeMemory limit l s = .ok id s' ∧
      ((s'.memories[id]?).getD default).size = l.minimum * pageSize := by
  refine ⟨s.memories.length,
    { s with memories := s.memories ++ [Memory.zeroed l.minimum l.maximum] }, ?_, ?_⟩
  · show (if limit < l.minimum then _ else _ : StoreAct ℕ) s = _
    rw [if_neg (not_lt.mpr hfits)]
    rfl
  · simp [Memory.size, Memory.zeroed, ByteStore.zeros]

/-- A table that is made has the slots that are declared. -/
theorem makeTable_spec (number : ℕ) (slots : List SlotDecl) (s : Store) :
    ∃ id s', makeTable number slots s = .ok id s' ∧
      ((s'.tables[id]?).getD []).length = slots.length ∧ s'.memories = s.memories := by
  refine ⟨_, _, rfl, ?_, rfl⟩
  simp

theorem optionMapM_some_of_ok {α β : Type} {f : α → StoreAct β} {a : α} {b : β}
    (h : f a s = .ok b s') : (some a).mapM f s = .ok (some b) s' := bind_of_ok h _

theorem makeOwn_of_le (hroom : s.instances < instanceLimit) (hfuncs : ∀ x ∈ es, ∃ f, x = .func f)
    (hfits : ∀ l, d.memory = some l → l.minimum ≤ limit) :
    ∃ own s', makeOwn limit d s = .ok own s' ∧ Placed d ⟨es, own⟩ s' := by
  obtain ⟨memory, s₂, hmemory, hsize⟩ : ∃ memory s₂,
      d.memory.mapM (makeMemory limit) { s with instances := s.instances + 1 } = .ok memory s₂ ∧
      memory.map (fun id => ((s₂.memories[id]?).getD default).size)
        = d.memory.map (·.minimum * pageSize) := by
    cases hm : d.memory with
    | none => exact ⟨none, _, rfl, rfl⟩
    | some l =>
      obtain ⟨id, s₂, hmake, hsize⟩ := makeMemory_of_le (hfits l hm)
      exact ⟨some id, s₂, optionMapM_some_of_ok hmake, congrArg some hsize⟩
  obtain ⟨table, s₃, htable, hlength, hsame⟩ : ∃ table s₃,
      d.table.mapM (makeTable (s.instances + 1)) s₂ = .ok table s₃ ∧
      table.map (fun id => ((s₃.tables[id]?).getD []).length) = d.table.map List.length ∧
      s₃.memories = s₂.memories := by
    cases ht : d.table with
    | none => exact ⟨none, s₂, rfl, rfl, rfl⟩
    | some slots =>
      obtain ⟨id, s₃, hmake, hlength, hsame⟩ := makeTable_spec (s.instances + 1) slots s₂
      exact ⟨some id, s₃, optionMapM_some_of_ok hmake, congrArg some hlength, hsame⟩
  refine ⟨⟨s.instances + 1, memory, table,
      (List.range d.globals.length).map (s₃.cells.length + ·)⟩,
    { s₃ with cells := s₃.cells ++ d.globals.map GlobalDecl.toCell }, ?_, ?_, ?_⟩
  · rw [makeOwn, bind_of_ok (countInstance_of_lt hroom), bind_of_ok hmemory, bind_of_ok htable]
    rfl
  · -- making the table and the globals leaves the memories alone
    rw [Parts.firstMemory?_of_functions hfuncs, hsame]
    exact hsize
  · rw [Parts.firstTable?_of_functions hfuncs]
    exact hlength

theorem makeOwn_of_lt (hroom : s.instances < instanceLimit) {l : Limits}
    (hl : d.memory = some l) (hlarge : limit < l.minimum) :
    ∃ cause s', makeOwn limit d s = .error cause s' := by
  refine ⟨.of s!"memory minimum size of {l.minimum} pages exceeds memory limits",
    { s with instances := s.instances + 1 }, ?_⟩
  rw [makeOwn, bind_of_ok (countInstance_of_lt hroom), hl]
  exact bind_of_error (bind_of_error (makeMemory_of_lt hlarge) _) _

/-! ### Segments -/

theorem fillSlot_eq {id : ℕ} (hid : p.firstTable? = some id) (e : ElemDecl) :
    fillSlot p e s
      = if ((s.tables[id]?).getD []).length ≤ e.slot then
          .error (.of Trap.tableOutOfBounds.message) s
        else .ok ⟨⟩ { s with
          tables := s.tables.set id
            (((s.tables[id]?).getD []).set e.slot (some (.const e.const))) } := by
  simp only [fillSlot, hid]
  show (if ((s.tables[id]?).getD []).length ≤ e.slot then _ else _ : StoreAct PUnit) s = _
  split
  · rfl
  · rfl

/-- An element segment goes into the table, or it reaches beyond. -/
theorem fillSlots_cases (hp : Placed d p s) :
    ((∀ e, d.elem = some e → ∃ slots, d.table = some slots ∧ e.slot < slots.length) ∧
      ∃ s', d.elem.forM (fillSlot p) s = .ok ⟨⟩ s' ∧ s'.memories = s.memories) ∨
    (¬ ∀ e, d.elem = some e → ∃ slots, d.table = some slots ∧ e.slot < slots.length) ∧
      ∃ cause, d.elem.forM (fillSlot p) s = .error cause s := by
  cases he : d.elem with
  | none => exact .inl ⟨fun e h => (nomatch h), s, rfl, rfl⟩
  | some e =>
    have htable := hp.table
    cases hid : p.firstTable? with
    | none =>
      rw [hid, Option.map_none, eq_comm, Option.map_eq_none_iff] at htable
      refine .inr ⟨fun h => ?_, .of Trap.tableOutOfBounds.message, ?_⟩
      · obtain ⟨slots, hslots, -⟩ := h e rfl
        cases htable.symm.trans hslots
      · show fillSlot p e s = _
        simp only [fillSlot, hid]
        rfl
    | some id =>
      rw [hid, Option.map_some, eq_comm, Option.map_eq_some_iff] at htable
      obtain ⟨slots, hslots, hlength⟩ := htable
      have hslot : (some e).forM (fillSlot p) s = _ := fillSlot_eq hid e
      rw [hslot, ← hlength]
      by_cases hle : slots.length ≤ e.slot
      · refine .inr ⟨fun h => ?_, _, if_pos hle⟩
        obtain ⟨slots', hslots', hlt⟩ := h e rfl
        cases hslots.symm.trans hslots'
        omega
      · refine .inl ⟨fun e' he' => ?_, _, if_neg hle, rfl⟩
        cases he'
        exact ⟨slots, hslots, not_le.mp hle⟩

theorem fillMemory_of_write_eq_ok {id : ℕ} {data : DataDecl} {memory : Memory}
    (hid : p.firstMemory? = some id)
    (h : ((s.memories[id]?).getD default).write data.address data.bytes = .ok memory) :
    fillMemory p data s = .ok ⟨⟩ { s with memories := s.memories.set id memory } := by
  simp only [fillMemory, hid]
  refine (bind_of_ok (rfl : (get : StoreAct Store) s = .ok s s) _).trans ?_
  simp only [h]
  rfl

theorem fillMemory_of_write_eq_error {id : ℕ} {data : DataDecl} {e : ConversionError}
    (hid : p.firstMemory? = some id)
    (h : ((s.memories[id]?).getD default).write data.address data.bytes = .error e) :
    fillMemory p data s = .error (.of Trap.memoryOutOfBounds.message) s := by
  simp only [fillMemory, hid]
  refine (bind_of_ok (rfl : (get : StoreAct Store) s = .ok s s) _).trans ?_
  simp only [h]
  rfl

/-- A data segment goes into the memory, or it reaches beyond. -/
theorem fillMemories_cases
    (hp : p.firstMemory?.map (fun id => ((s.memories[id]?).getD default).size)
      = d.memory.map (·.minimum * pageSize)) :
    ((∀ data, d.data = some data →
        ∃ l, d.memory = some l ∧ data.address + data.bytes.length ≤ l.minimum * pageSize) ∧
      ∃ s', d.data.forM (fillMemory p) s = .ok ⟨⟩ s') ∨
    (¬ ∀ data, d.data = some data →
        ∃ l, d.memory = some l ∧ data.address + data.bytes.length ≤ l.minimum * pageSize) ∧
      ∃ cause, d.data.forM (fillMemory p) s = .error cause s := by
  cases hs : d.data with
  | none => exact .inl ⟨fun data h => (nomatch h), s, rfl⟩
  | some data =>
    cases hid : p.firstMemory? with
    | none =>
      rw [hid, Option.map_none, eq_comm, Option.map_eq_none_iff] at hp
      refine .inr ⟨fun h => ?_, .of Trap.memoryOutOfBounds.message, ?_⟩
      · obtain ⟨l, hl, -⟩ := h data rfl
        cases hp.symm.trans hl
      · show fillMemory p data s = _
        simp only [fillMemory, hid]
        rfl
    | some id =>
      rw [hid, Option.map_some, eq_comm, Option.map_eq_some_iff] at hp
      obtain ⟨l, hl, hsize⟩ := hp
      by_cases hle : data.address + data.bytes.length ≤ l.minimum * pageSize
      · obtain ⟨memory, hwrite⟩ : ∃ memory,
            ((s.memories[id]?).getD default).write data.address data.bytes = .ok memory := by
          rw [Memory.write, requireRange, if_pos (hsize ▸ hle)]
          exact ⟨_, rfl⟩
        refine .inl ⟨fun data' hdata' => ?_, _, fillMemory_of_write_eq_ok hid hwrite⟩
        cases hdata'
        exact ⟨l, hl, hle⟩
      · obtain ⟨e, hwrite⟩ : ∃ e,
            ((s.memories[id]?).getD default).write data.address data.bytes = .error e := by
          rw [Memory.write, requireRange, if_neg (hsize ▸ hle)]
          exact ⟨_, rfl⟩
        refine .inr ⟨fun h => ?_, _, fillMemory_of_write_eq_error hid hwrite⟩
        obtain ⟨l', hl', hle'⟩ := h data rfl
        cases hl.symm.trans hl'
        exact hle hle'

/-! ### The steps put together -/

/-- What is an instance's own can be put in place exactly if it fits. -/
theorem stock_cases (limit : ℕ) (d : Description) (hroom : s.instances < instanceLimit)
    (hfuncs : ∀ x ∈ es, ∃ f, x = .func f) :
    (d.Fits limit ∧ ∃ own s', stock limit d es s = .ok own s') ∨
      ¬ d.Fits limit ∧ ∃ cause s', stock limit d es s = .error cause s' := by
  by_cases hmemory : ∀ l, d.memory = some l → l.minimum ≤ limit
  · obtain ⟨own, s₁, hown, hp⟩ := makeOwn_of_le hroom hfuncs hmemory
    rw [stock, bind_of_ok hown]
    obtain ⟨helem, s₂, hfill, hsame⟩ | ⟨helem, cause, hfill⟩ := fillSlots_cases hp
    · rw [bind_of_ok hfill]
      obtain ⟨hdata, s₃, hfill⟩ | ⟨hdata, cause, hfill⟩ :=
        fillMemories_cases (s := s₂) (p := ⟨es, own⟩) (d := d) (by rw [hsame]; exact hp.memory)
      · exact .inl ⟨⟨hmemory, helem, hdata⟩, own, s₃, bind_of_ok hfill _⟩
      · exact .inr ⟨fun h => hdata h.data, cause, s₂, bind_of_error hfill _⟩
    · exact .inr ⟨fun h => helem h.elem, cause, s₁, bind_of_error hfill _⟩
  · obtain ⟨l, hl, hlarge⟩ : ∃ l, d.memory = some l ∧ limit < l.minimum := by simpa using hmemory
    obtain ⟨cause, s₁, hown⟩ := makeOwn_of_lt hroom hl hlarge
    exact .inr ⟨fun h => absurd (h.memory l hl) (not_le.mpr hlarge), cause, s₁,
      bind_of_error hown _⟩

end Store

theorem Engine.standard_conforms (config : Config) (catalog : Catalog) (littleEndian : Bool) :
    (standard config catalog littleEndian).Conforms where
  functions := standard_matchesFunctions config catalog littleEndian
  stock d es s hfuncs hroom := by
    show (∃ own s', Store.stock config.maxMemoryPages d es s = _) ↔ d.Fits config.maxMemoryPages
    obtain ⟨hfits, hstock⟩ | ⟨hfits, cause, s', hstock⟩ :=
      Store.stock_cases config.maxMemoryPages d hroom hfuncs
    · exact iff_of_true hstock hfits
    · refine iff_of_false ?_ hfits
      rintro ⟨own, s'', h⟩
      cases hstock.symm.trans h

end ModuleHost
