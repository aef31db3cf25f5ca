/-
Strings survive the way into a module and back.

A string is copied into the module through its string exports: through an export for its exact
length if there is one, or else by allocating it and writing unit by unit, in bytes if all units
fit.  `TextStore` says what the exports have to do.  Copying in leaves the string in the store,
and what is in the store comes back, however it got there.

* `TextWidth.of_eq_oneByte_iff` — a string is narrow exactly if all its units are;
* `readChunks_eq_readUnits` — reading in chunks is reading all units in order, in any module;
* `TextStore.exists_sendText` and `.exists_receiveText` — the two halves of the way;
* `text_round_trips` — the whole way.

Design notes: the two halves meet at `TextStore.Keeps`.  A store may lose its older strings when
it allocates a new one, nothing here depends on them.
-/
import Mathlib
import ModuleHost.Session.Machine
import ModuleHost.Proofs.Session.Evolving

namespace ModuleHost

open Act

variable {γ : Type} {m : Machine γ}

/-! ### The width -/

theorem or_lt_256_iff (a b : UInt16) : a ||| b < 256 ↔ a < 256 ∧ b < 256 := by
  rw [UInt16.lt_iff_toNat_lt, UInt16.lt_iff_toNat_lt, UInt16.lt_iff_toNat_lt, UInt16.toNat_or]
  constructor
  · intro h
    exact ⟨lt_of_le_of_lt Nat.left_le_or h, lt_of_le_of_lt Nat.right_le_or h⟩
  · rintro ⟨ha, hb⟩
    exact Nat.or_lt_two_pow (n := 8) ha hb

theorem foldl_or_lt_256_iff (units : List UInt16) (a : UInt16) :
    units.foldl (· ||| ·) a < 256 ↔ a < 256 ∧ ∀ u ∈ units, u < 256 := by
  induction units generalizing a with
  | nil => simp
  | cons u rest ih => rw [List.foldl_cons, ih, or_lt_256_iff, List.forall_mem_cons, and_assoc]

/-- A string is narrow exactly if all its units are. -/
theorem TextWidth.of_eq_oneByte_iff (units : List UInt16) :
    TextWidth.of units = .oneByte ↔ ∀ u ∈ units, u < 256 := by
  have hfold := foldl_or_lt_256_iff units 0
  unfold TextWidth.of
  split
  · rename_i h
    exact ⟨fun _ => (hfold.mp h).2, fun _ => rfl⟩
  · rename_i h
    exact ⟨nofun, fun hu => absurd (hfold.mpr ⟨by decide, hu⟩) h⟩

/-! ### Chunks -/

/-- Reading some units and then the rest is reading them all. -/
theorem readUnits_add (read : Func) (name : String) (handle : Int32) (k : ℕ) :
    ∀ i n, readUnits m read name handle i (k + n) = (do
      let first ← readUnits m read name handle i k
      let rest ← readUnits m read name handle (i + k) n
      return first ++ rest) := by
  induction k with
  | zero =>
    intro i n
    rw [Nat.zero_add, readUnits, pure_bind, Nat.add_zero]
    exact (bind_pure _).symm
  | succ k ih =>
    intro i n
    rw [Nat.add_right_comm, readUnits, readUnits, bind_assoc]
    refine bind_congr fun position => ?_
    rw [bind_assoc]
    refine bind_congr fun u => ?_
    rw [ih, bind_assoc, bind_assoc]
    refine bind_congr fun first => ?_
    rw [pure_bind, bind_assoc, Nat.add_right_comm, Nat.add_assoc]
    refine bind_congr fun rest => ?_
    rw [pure_bind, List.cons_append]

/-- Reading in chunks is reading all units in order. -/
theorem readChunks_eq_readUnits (read : Func) (name : String) (handle : Int32) {fuel n : ℕ}
    (hn : n ≤ fuel) (i : ℕ) :
    readChunks m read name handle fuel i n = readUnits m read name handle i n := by
  induction fuel generalizing i n with
  | zero =>
    rw [Nat.le_zero.mp hn]
    rfl
  | succ fuel ih =>
    rw [readChunks]
    by_cases h0 : n = 0
    · rw [h0]
      rfl
    · rw [if_neg h0]
      by_cases hlong : textChunk ≤ n
      · obtain ⟨rest, rfl⟩ := Nat.exists_eq_add_of_le hlong
        have hrest : rest ≤ fuel := by
          have : 0 < textChunk := by decide
          omega
        rw [readUnits_add, Nat.min_eq_right hlong, Nat.add_sub_cancel_left]
        refine bind_congr fun first => ?_
        rw [ih hrest]
      · have hshort : n ≤ textChunk := Nat.le_of_not_le hlong
        rw [Nat.min_eq_left hshort, Nat.sub_eq_zero_of_le hshort, ih (Nat.zero_le _)]
        simp only [readUnits, pure_bind, List.append_nil, bind_pure]

/-! ### Calls with words -/

theorem forM_crossArg_words (words : List Int32) (w : World γ) :
    (words.map Val.i32).forM crossArg w = .ok ⟨⟩ w := by
  induction words with
  | nil => rfl
  | cons n rest ih => exact (bind_of_ok (rfl : crossArg (.i32 n) w = .ok ⟨⟩ w) _).trans ih

theorem firstMismatch?_words (words : List Int32) :
    firstMismatch? (words.map Val.i32) (List.replicate words.length .i32) = none := by
  rw [firstMismatch?, List.find?_eq_none]
  rintro ⟨found, expected⟩ hmem
  obtain ⟨hfound, hexpected⟩ := List.of_mem_zip hmem
  rw [List.eq_of_mem_replicate hexpected]
  rw [List.map_map] at hfound
  obtain ⟨n, -, rfl⟩ := List.mem_map.mp hfound
  show ¬decide (ValType.i32 ≠ ValType.i32) = true
  decide

/-- A function of words is called with words as they are. -/
theorem callFunc_words {f : Func} (words : List Int32) {results : List ValType} (w : World γ)
    (hf : f.type = ⟨List.replicate words.length .i32, results⟩) :
    callFunc m f (words.map .i32) results.length w = m.call f (words.map .i32) w := by
  have hcheck : checkCall f.type (words.map .i32) results.length w = .ok ⟨⟩ w := by
    unfold checkCall
    rw [hf, firstMismatch?_words]
    simp
    rfl
  exact (bind_of_ok hcheck _).trans (bind_of_ok (forM_crossArg_words words w) _)

/-- A call for one integer returns the one that the function returns. -/
theorem callForInt_words {f : Func} (words : List Int32) {w w' : World γ} {n : Int32}
    (hf : f.type = ⟨List.replicate words.length .i32, [.i32]⟩)
    (hcall : m.call f (words.map .i32) w = .ok [.i32 n] w') (name : String) :
    callForInt m f name (words.map .i32) w = .ok n w' :=
  bind_of_ok ((callFunc_words words w hf).trans hcall) _

theorem count_of_lt {n : ℕ} (hn : n < 2 ^ 31) (w : World γ) :
    count n w = .ok (Int32.ofNat n) w := by
  unfold count
  rw [if_pos (show n < Nat.pow 2 31 from hn)]
  rfl

/-! ### The two ways in -/

/-- A string that may have an export for its exact length. -/
def Text.IsFast (s : Text) : Prop :=
  TextWidth.of s.units = .oneByte ∧ 1 ≤ s.length ∧ s.length ≤ longestFastText

instance (s : Text) : Decidable s.IsFast := inferInstanceAs (Decidable (_ ∧ _))

/-- Copy a text through the export for its exact length. -/
def sendAtOnce (m : Machine γ) (s : Text) (f : Func) : Act γ ModuleText := do
  let handle ← callForInt m f s!"$stringAllocate1_{s.length}" (s.units.map unitVal)
  return ⟨handle, s.length, .of s.units⟩

/-- Copy a text by allocating it and writing each unit. -/
def sendByUnits (m : Machine γ) (s : Text) : Act γ ModuleText := do
  let name := "$stringAllocate" ++ (TextWidth.of s.units).digit
  let allocate ← requireExport name
  let write ← requireExport ("$stringWrite" ++ (TextWidth.of s.units).digit)
  let handle ← callForInt m allocate name [.i32 (← count s.length)]
  writeUnits m write handle 0 s.units
  return ⟨handle, s.length, .of s.units⟩

theorem sendText_eq (s : Text) :
    sendText m s = if s.IsFast then (do
      match ← lookupExport s!"$stringAllocate1_{s.length}" with
      | some f => sendAtOnce m s f
      | none => sendByUnits m s)
    else sendByUnits m s := rfl

/-! ### Stores of strings -/

/-- The units of a width. -/
def TextWidth.Holds (width : TextWidth) (u : UInt16) : Prop := width = .oneByte → u < 256

/-- A unit as a word. -/
def unitWord (u : UInt16) : Int32 := Int32.ofNat u.toNat

/-- The unit of a word. -/
def wordUnit (n : Int32) : UInt16 := UInt16.ofNat n.toUInt32.toNat

theorem wordUnit_unitWord (u : UInt16) : wordUnit (unitWord u) = u := by
  have hu : u.toNat < UInt32.size := lt_trans u.toNat_lt (by decide)
  rw [wordUnit, show (unitWord u).toUInt32 = UInt32.ofNat u.toNat from rfl,
    UInt32.toNat_ofNat_of_lt' hu, UInt16.ofNat_toNat]

/-- String exports of a module that implement a store of strings. -/
structure TextStore (m : Machine γ) where
  /-- The primary instance. -/
  exports : Instance
  allocate : TextWidth → Func
  write : TextWidth → Func
  read : TextWidth → Func
  /-- The worlds in which the module works. -/
  Valid : World γ → Prop
  /-- A handle is that of a string of this width and length. -/
  Has : World γ → TextWidth → Int32 → ℕ → Prop
  /-- The unit that was last stored at an index of a handle. -/
  stored : World γ → TextWidth → Int32 → ℕ → Option UInt16
  linked : ∀ {w}, Valid w → w.session.primary = some exports
  allocate_exported : ∀ width,
    exports.func? ("$stringAllocate" ++ width.digit) = some (allocate width)
  write_exported : ∀ width, exports.func? ("$stringWrite" ++ width.digit) = some (write width)
  read_exported : ∀ width, exports.func? ("$stringRead" ++ width.digit) = some (read width)
  allocate_type : ∀ width, (allocate width).type = ⟨[.i32], [.i32]⟩
  write_type : ∀ width, (write width).type = ⟨[.i32, .i32, .i32], []⟩
  read_type : ∀ width, (read width).type = ⟨[.i32, .i32], [.i32]⟩
  /-- Allocating returns a handle. -/
  allocates : ∀ {w} width {n}, Valid w → n < 2 ^ 31 → ∃ h w',
    m.call (allocate width) [.i32 (Int32.ofNat n)] w = .ok [.i32 h] w' ∧ Valid w' ∧
      Has w' width h n
  /-- Writing stores a unit. -/
  writes : ∀ {w width h n i u}, Valid w → Has w width h n → n < 2 ^ 31 → i < n → width.Holds u →
    ∃ w', m.call (write width) [.i32 h, .i32 (Int32.ofNat i), .i32 (unitWord u)] w = .ok [] w' ∧
      Valid w' ∧ Has w' width h n ∧
      stored w' width h = Function.update (stored w width h) i (some u)
  /-- Reading returns the unit that was last stored. -/
  reads : ∀ {w width h n i u}, Valid w → Has w width h n → n < 2 ^ 31 → i < n →
    stored w width h i = some u →
    ∃ w', m.call (read width) [.i32 h, .i32 (Int32.ofNat i)] w = .ok [.i32 (unitWord u)] w' ∧
      Valid w' ∧ Has w' width h n ∧ stored w' width h = stored w width h
  /-- The export for an exact length, if there is one, returns a handle of its units. -/
  fast : ∀ {w f} {units : List UInt16}, Valid w → 1 ≤ units.length →
    units.length ≤ longestFastText → (∀ u ∈ units, u < 256) →
    exports.func? s!"$stringAllocate1_{units.length}" = some f →
    f.type = ⟨List.replicate units.length .i32, [.i32]⟩ ∧
      ∃ h w', m.call f ((units.map unitWord).map .i32) w = .ok [.i32 h] w' ∧ Valid w' ∧
        Has w' .oneByte h units.length ∧ ∀ i < units.length, stored w' .oneByte h i = units[i]?

namespace TextStore

variable (S : TextStore m) {w : World γ}

/-- The module keeps these units under a handle. -/
structure Keeps (w : World γ) (width : TextWidth) (h : Int32) (units : List UInt16) : Prop where
  valid : S.Valid w
  has : S.Has w width h units.length
  stored : ∀ i < units.length, S.stored w width h i = units[i]?

theorem lookupExport_eq (hw : S.Valid w) (name : String) :
    lookupExport name w = .ok (S.exports.func? name) w := by
  have hprimary : (primary : Act γ Instance) w = .ok S.exports w := by
    refine (bind_session _ w).trans ?_
    rw [S.linked hw]
    rfl
  exact bind_of_ok hprimary _

theorem requireExport_eq (hw : S.Valid w) {name : String} {f : Func}
    (hf : S.exports.func? name = some f) : requireExport name w = .ok f w := by
  refine (bind_of_ok (S.lookupExport_eq hw name) _).trans ?_
  rw [hf]
  rfl

/-! ### The way in -/

/-- Writing the units of a string from an index on stores them there, and nowhere else. -/
theorem exists_writeUnits {width : TextWidth} {h : Int32} {n : ℕ} (hn : n < 2 ^ 31)
    (units : List UInt16) (hunits : ∀ u ∈ units, width.Holds u) :
    ∀ {w : World γ} {i : ℕ}, S.Valid w → S.Has w width h n → i + units.length ≤ n →
    ∃ w', writeUnits m (S.write width) h i units w = .ok ⟨⟩ w' ∧ S.Valid w' ∧ S.Has w' width h n ∧
      (∀ j < i, S.stored w' width h j = S.stored w width h j) ∧
      ∀ j < units.length, S.stored w' width h (i + j) = units[j]? := by
  induction units with
  | nil => exact fun {w i} hw hh _ => ⟨w, rfl, hw, hh, fun _ _ => rfl, nofun⟩
  | cons u rest ih =>
    intro w i hw hh hle
    rw [List.length_cons] at hle
    obtain ⟨hu, hrest⟩ := List.forall_mem_cons.mp hunits
    obtain ⟨w₁, hcall, hw₁, hh₁, hstored⟩ := S.writes hw hh hn (by omega : i < n) hu
    obtain ⟨w', hothers, hw', hh', hbefore, hafter⟩ :=
      ih hrest hw₁ hh₁ (by omega : i + 1 + rest.length ≤ n)
    refine ⟨w', ?_, hw', hh', fun j hj => ?_, fun j hj => ?_⟩
    · refine (bind_of_ok (count_of_lt (by omega) w) _).trans ?_
      have hwrite := callFunc_words (m := m) [h, Int32.ofNat i, unitWord u] w
        (S.write_type width)
      exact (bind_of_ok (hwrite.trans hcall) _).trans hothers
    · rw [hbefore j (by omega), hstored, Function.update_of_ne (by omega)]
    · cases j with
      | zero =>
        rw [Nat.add_zero, hbefore i (by omega), hstored, Function.update_self]
        rfl
      | succ j =>
        have hj' := hafter j (by rw [List.length_cons] at hj; omega)
        rwa [Nat.add_right_comm] at hj'

/-- Copying through the exports that allocate and write. -/
theorem exists_sendByUnits (hw : S.Valid w) (s : Text) (hs : s.length < 2 ^ 31) :
    ∃ h w', sendByUnits m s w = .ok ⟨h, s.length, .of s.units⟩ w' ∧
      S.Keeps w' (.of s.units) h s.units := by
  have hwidth : ∀ u ∈ s.units, (TextWidth.of s.units).Holds u := fun u hu hnarrow =>
    (TextWidth.of_eq_oneByte_iff s.units).mp hnarrow u hu
  obtain ⟨h, w₁, hcall, hw₁, hh₁⟩ := S.allocates (.of s.units) hw hs
  obtain ⟨w₂, hwrite, hw₂, hh₂, -, hstored⟩ := S.exists_writeUnits hs s.units hwidth hw₁ hh₁
    (i := 0) (by rw [Nat.zero_add]; exact le_refl _)
  refine ⟨h, w₂, ?_, hw₂, hh₂, fun i hi => ?_⟩
  · refine (bind_of_ok (S.requireExport_eq hw (S.allocate_exported _)) _).trans ?_
    refine (bind_of_ok (S.requireExport_eq hw (S.write_exported _)) _).trans ?_
    refine (bind_of_ok (count_of_lt hs w) _).trans ?_
    have hallocate := callForInt_words [Int32.ofNat s.length] (S.allocate_type _) hcall
    exact (bind_of_ok (hallocate _) _).trans (bind_of_ok hwrite _)
  · rw [← hstored i hi, Nat.zero_add]

/-- Copying through the export for the exact length. -/
theorem exists_sendAtOnce (hw : S.Valid w) {s : Text} {f : Func} (hs : s.IsFast)
    (hf : S.exports.func? s!"$stringAllocate1_{s.length}" = some f) :
    ∃ h w', sendAtOnce m s f w = .ok ⟨h, s.length, .of s.units⟩ w' ∧
      S.Keeps w' (.of s.units) h s.units := by
  have hnarrow := (TextWidth.of_eq_oneByte_iff s.units).mp hs.1
  obtain ⟨htype, h, w', hcall, hw', hh', hstored⟩ := S.fast hw hs.2.1 hs.2.2 hnarrow hf
  have hcalled := callForInt_words (s.units.map unitWord)
    (by rw [List.length_map]; exact htype) hcall
  rw [List.map_map] at hcalled
  refine ⟨h, w', bind_of_ok (hcalled _) _, hw', ?_, ?_⟩
  · rw [hs.1]
    exact hh'
  · rw [hs.1]
    exact hstored

/-- A string is copied into the module, through whatever exports there are. -/
theorem exists_sendText (hw : S.Valid w) (s : Text) (hs : s.length < 2 ^ 31) :
    ∃ h w', sendText m s w = .ok ⟨h, s.length, .of s.units⟩ w' ∧
      S.Keeps w' (.of s.units) h s.units := by
  rw [sendText_eq]
  by_cases hfast : s.IsFast
  · rw [if_pos hfast, bind_of_ok (S.lookupExport_eq hw _)]
    cases hf : S.exports.func? s!"$stringAllocate1_{s.length}" with
    | none => exact S.exists_sendByUnits hw s hs
    | some f => exact S.exists_sendAtOnce hw hfast hf
  · rw [if_neg hfast]
    exact S.exists_sendByUnits hw s hs

/-! ### The way back -/

theorem exists_readUnits {width : TextWidth} {h : Int32} {n : ℕ} (hn : n < 2 ^ 31) (name : String)
    (units : List UInt16) : ∀ {w : World γ} {i : ℕ}, S.Valid w → S.Has w width h n →
    i + units.length ≤ n → (∀ j < units.length, S.stored w width h (i + j) = units[j]?) →
    ∃ w', readUnits m (S.read width) name h i units.length w = .ok units w' := by
  induction units with
  | nil => exact fun {w i} _ _ _ _ => ⟨w, rfl⟩
  | cons u rest ih =>
    intro w i hw hh hle hstored
    rw [List.length_cons] at hle hstored
    obtain ⟨w₁, hcall, hw₁, hh₁, hsame⟩ := S.reads hw hh hn (by omega : i < n)
      (hstored 0 (Nat.succ_pos _))
    obtain ⟨w', hothers⟩ := ih hw₁ hh₁ (by omega : i + 1 + rest.length ≤ n) fun j hj => by
      rw [hsame, Nat.add_assoc, Nat.add_comm 1 j, hstored (j + 1) (by omega),
        List.getElem?_cons_succ]
    refine ⟨w', (bind_of_ok (count_of_lt (by omega) w) _).trans ?_⟩
    have hread := callForInt_words [h, Int32.ofNat i] (S.read_type width) hcall
    refine (bind_of_ok (hread name) _).trans ((bind_of_ok hothers _).trans ?_)
    exact congrArg (EStateM.Result.ok · w') (congrArg (· :: rest) (wordUnit_unitWord u))

/-- What the module keeps comes back. -/
theorem exists_receiveText {width : TextWidth} {h : Int32} {s : Text} (hs : s.length < 2 ^ 31)
    (hkeeps : S.Keeps w width h s.units) :
    ∃ w', receiveText m ⟨h, s.length, width⟩ w = .ok s w' := by
  unfold receiveText
  by_cases h0 : s.length = 0
  · have hempty : s = .empty := by
      rw [Text.empty, ← List.eq_nil_of_length_eq_zero h0]
    rw [if_pos h0, hempty]
    exact ⟨w, rfl⟩
  · rw [if_neg h0]
    obtain ⟨w', hread⟩ := S.exists_readUnits hs ("$stringRead" ++ width.digit) s.units hkeeps.valid
      hkeeps.has (i := 0) (by rw [Nat.zero_add]; exact le_refl _)
      fun j hj => by rw [Nat.zero_add, hkeeps.stored j hj]
    refine ⟨w', (bind_of_ok (S.requireExport_eq hkeeps.valid (S.read_exported width)) _).trans ?_⟩
    rw [readChunks_eq_readUnits _ _ _ (le_refl _)]
    exact bind_of_ok hread _

end TextStore

/-! ### The whole way -/

/-- Whichever exports for exact lengths a store of strings has, a string that is copied into it has
its length and the narrowest width, is kept unit by unit, and comes back as it was.  Both ways
into the module leave the same units there, and reading in chunks is reading in order. -/
theorem text_round_trips (S : TextStore m) {w : World γ} (hw : S.Valid w) (s : Text)
    (hs : s.length < 2 ^ 31) :
    (∃ t w', sendText m s w = .ok t w' ∧ t.length = s.length ∧
      (t.width = .oneByte ↔ ∀ u ∈ s.units, u < 256) ∧ S.Keeps w' t.width t.handle s.units ∧
      ∃ w'', receiveText m t w' = .ok s w'') ∧
    (∃ h w', sendByUnits m s w = .ok ⟨h, s.length, .of s.units⟩ w' ∧
      S.Keeps w' (.of s.units) h s.units) ∧
    (∀ f, s.IsFast → S.exports.func? s!"$stringAllocate1_{s.length}" = some f →
      ∃ h w', sendAtOnce m s f w = .ok ⟨h, s.length, .of s.units⟩ w' ∧
        S.Keeps w' (.of s.units) h s.units) ∧
    ∀ read name handle i n,
      readChunks m read name handle n i n = readUnits m read name handle i n := by
  refine ⟨?_, S.exists_sendByUnits hw s hs, fun f hfast hf => S.exists_sendAtOnce hw hfast hf,
    fun read name handle i n => readChunks_eq_readUnits read name handle (le_refl n) i⟩
  obtain ⟨h, w', hsend, hkeeps⟩ := S.exists_sendText hw s hs
  exact ⟨_, w', hsend, rfl, TextWidth.of_eq_oneByte_iff s.units, hkeeps,
    S.exists_receiveText hs hkeeps⟩

/-- What a module keeps of strings: their units, and the next handle. -/
structure TextCells where
  next : Int32
  units : Int32 → ℕ → Option UInt16

/-- Keep a new string. -/
def keepText (units : ℕ → Option UInt16) : Act TextCells (List Val) := fun w =>
  .ok [.i32 w.guest.next]
    ⟨w.session, w.guest.next + 1, Function.update w.guest.units w.guest.next units⟩

/-- Store a unit. -/
def storeUnit (h i u : Int32) : Act TextCells (List Val) := fun w =>
  .ok [] ⟨w.session, w.guest.next, Function.update w.guest.units h
    (Function.update (w.guest.units h) i.toUInt32.toNat (some (wordUnit u)))⟩

/-- A stored unit. -/
def loadUnit (h i : Int32) : Act TextCells (List Val) := fun w =>
  match w.guest.units h i.toUInt32.toNat with
  | some u => .ok [.i32 (unitWord u)] w
  | none => .error (.trap .unreachable) w

/-- A module that keeps strings, with an export for those of two units. -/
def storing : Code TextCells where
  own _ _ place args :=
    match place, args with
    | .named "$stringAllocate1", [.i32 _] | .named "$stringAllocate2", [.i32 _] =>
      keepText fun _ => none
    | .named "$stringAllocate1_2", [.i32 a, .i32 b] =>
      keepText fun i => [wordUnit a, wordUnit b][i]?
    | .named "$stringWrite1", [.i32 h, .i32 i, .i32 u]
    | .named "$stringWrite2", [.i32 h, .i32 i, .i32 u] => storeUnit h i u
    | .named "$stringRead1", [.i32 h, .i32 i] | .named "$stringRead2", [.i32 h, .i32 i] =>
      loadUnit h i
    | _, _ => throw (.trap .unreachable)
  supplied _ _ _ _ := return []
  native _ _ := return .undefined
  note _ := return ()

/-- A function of words of that module. -/
def storingFunc (name : String) (params : ℕ) (results : List ValType) : Func :=
  .own 1 (.named name) ⟨List.replicate params .i32, results⟩

def storingExports : Instance :=
  ⟨[("$stringAllocate1", .func (storingFunc "$stringAllocate1" 1 [.i32])),
    ("$stringAllocate2", .func (storingFunc "$stringAllocate2" 1 [.i32])),
    ("$stringAllocate1_2", .func (storingFunc "$stringAllocate1_2" 2 [.i32])),
    ("$stringWrite1", .func (storingFunc "$stringWrite1" 3 [])),
    ("$stringWrite2", .func (storingFunc "$stringWrite2" 3 [])),
    ("$stringRead1", .func (storingFunc "$stringRead1" 2 [.i32])),
    ("$stringRead2", .func (storingFunc "$stringRead2" 2 [.i32]))]⟩

theorem storingExports_fast : ∀ n < longestFastText + 1, n ≠ 2 →
    storingExports.func? s!"$stringAllocate1_{n}" = none := by decide

theorem toNat_index {i n : ℕ} (hn : n < 2 ^ 31) (hi : i < n) :
    (Int32.ofNat i).toUInt32.toNat = i := by
  rw [show (Int32.ofNat i).toUInt32 = UInt32.ofNat i from rfl]
  exact UInt32.toNat_ofNat_of_lt' (by rw [UInt32.size]; omega)

/-- The store of that module. -/
def storingStore : TextStore (storing.machine 1) where
  exports := storingExports
  allocate width := storingFunc ("$stringAllocate" ++ width.digit) 1 [.i32]
  write width := storingFunc ("$stringWrite" ++ width.digit) 3 []
  read width := storingFunc ("$stringRead" ++ width.digit) 2 [.i32]
  Valid w := w.session.primary = some storingExports
  Has _ _ _ _ := True
  stored w _ h := w.guest.units h
  linked hw := hw
  allocate_exported width := by cases width <;> decide
  write_exported width := by cases width <;> decide
  read_exported width := by cases width <;> decide
  allocate_type _ := rfl
  write_type _ := rfl
  read_type _ := rfl
  allocates {w} width {n} hw _ := by
    refine ⟨w.guest.next, ⟨w.session, w.guest.next + 1,
      Function.update w.guest.units w.guest.next fun _ => none⟩, ?_, hw, trivial⟩
    cases width <;> rfl
  writes {w width h n i u} hw _ hn hi _ := by
    refine ⟨⟨w.session, w.guest.next, Function.update w.guest.units h
      (Function.update (w.guest.units h) i (some u))⟩, ?_, hw, trivial, Function.update_self ..⟩
    have hstore : storeUnit h (Int32.ofNat i) (unitWord u) w = .ok [] _ := rfl
    rw [toNat_index hn hi, wordUnit_unitWord] at hstore
    cases width <;> exact hstore
  reads {w width h n i u} hw _ hn hi hu := by
    refine ⟨w, ?_, hw, trivial, rfl⟩
    have hload : loadUnit h (Int32.ofNat i) w = .ok [.i32 (unitWord u)] w := by
      rw [loadUnit, toNat_index hn hi, hu]
    cases width <;> exact hload
  fast {w f units} hw h1 h10 _ hf := by
    have htwo : units.length = 2 := by
      by_contra hne
      rw [storingExports_fast _ (Nat.lt_succ_of_le h10) hne] at hf
      cases hf
    obtain ⟨a, b, rfl⟩ := List.length_eq_two.mp htwo
    have hpair : storingExports.func? s!"$stringAllocate1_{2}"
        = some (storingFunc "$stringAllocate1_2" 2 [.i32]) := by decide
    obtain rfl := Option.some.inj (hpair.symm.trans hf)
    refine ⟨rfl, w.guest.next, ⟨w.session, w.guest.next + 1,
      Function.update w.guest.units w.guest.next fun i => [a, b][i]?⟩, ?_, hw, trivial, ?_⟩
    · show keepText (fun i => [wordUnit (unitWord a), wordUnit (unitWord b)][i]?) w = _
      rw [wordUnit_unitWord, wordUnit_unitWord]
      rfl
    · intro i _
      exact congrFun (Function.update_self ..) i

/-- A session of that module. -/
def storingNothing : World TextCells :=
  ⟨{ Session.new (.standard .default ⟨[]⟩ true) .none none with primary := some storingExports },
    ⟨0, fun _ _ => none⟩⟩

/-- A string with an unpaired surrogate. -/
def unpaired : Text := ⟨[0x61, 0xd800]⟩

theorem text_round_trips_unpaired :
    (storingStore.Valid storingNothing ∧ unpaired.length < 2 ^ 31) ∧
    ∃ t w', sendText (storing.machine 1) unpaired storingNothing = .ok t w' ∧
      t.length = unpaired.length ∧ (t.width = .oneByte ↔ ∀ u ∈ unpaired.units, u < 256) ∧
      storingStore.Keeps w' t.width t.handle unpaired.units ∧
      ∃ w'', receiveText (storing.machine 1) t w' = .ok unpaired w'' := by
  have hlength : unpaired.length < 2 ^ 31 := by decide
  exact ⟨⟨rfl, hlength⟩,
    (text_round_trips storingStore (w := storingNothing) rfl unpaired hlength).1⟩

end ModuleHost
