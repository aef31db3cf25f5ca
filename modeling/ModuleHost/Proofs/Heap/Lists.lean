/-
Lists of numbers that a module keeps.

A list is read through two exports, one for its length and one for its items.  `NumberLists` says
what they have to do for a handle to be that of a list of these numbers; what else the module does
meanwhile is left open.

* `NumberLists.exists_receiveNumbers` — such a list is read as its numbers;
* `NumberLists.exists_typedArrayFromModuleList` — a typed array of such a list.
-/
import Mathlib
import ModuleHost.Proofs.Text.RoundTrip

namespace ModuleHost

open Act

variable {γ : Type} {m : Machine γ}

/-- List exports of a module that keeps lists of numbers. -/
structure NumberLists (m : Machine γ) where
  /-- The primary instance. -/
  exports : Instance
  length : Func
  read : Func
  /-- The worlds in which the module works. -/
  Valid : World γ → Prop
  /-- A handle is that of a list of these numbers. -/
  Has : World γ → Int32 → List Double → Prop
  linked : ∀ {w}, Valid w → w.session.primary = some exports
  length_exported : exports.func? "$listLength" = some length
  read_exported : exports.func? "$listRead" = some read
  length_type : length.type = ⟨[.i32], [.i32]⟩
  read_type : read.type = ⟨[.i32, .i32], [.externref]⟩
  /-- The length is that of the list. -/
  counts : ∀ {w list numbers}, Valid w → Has w list numbers → numbers.length < 2 ^ 31 →
    ∃ w', m.call length [.i32 list] w = .ok [.i32 (Int32.ofNat numbers.length)] w' ∧ Valid w' ∧
      Has w' list numbers
  /-- An item is the number at its index. -/
  reads : ∀ {w list numbers i x}, Valid w → Has w list numbers → numbers.length < 2 ^ 31 →
    numbers[i]? = some x →
    ∃ w', m.call read [.i32 list, .i32 (Int32.ofNat i)] w = .ok [.ref (.host (.number x))] w' ∧
      Valid w' ∧ Has w' list numbers

namespace NumberLists

variable (S : NumberLists m) {w : World γ} {list : Int32} {numbers : List Double}

theorem requireExport_eq (hw : S.Valid w) {name : String} {f : Func}
    (hf : S.exports.func? name = some f) : requireExport name w = .ok f w := by
  have hprimary : (primary : Act γ Instance) w = .ok S.exports w := by
    refine (bind_session _ w).trans ?_
    rw [S.linked hw]
    rfl
  have hlookup : lookupExport name w = .ok (some f) w := by
    rw [← hf]
    exact bind_of_ok hprimary _
  exact bind_of_ok hlookup _

/-- By induction on the items that are left: the first of them is the one at the index. -/
theorem exists_readItems (hlength : numbers.length < 2 ^ 31) (rest : List Double) :
    ∀ {w : World γ} {i : ℕ}, S.Valid w → S.Has w list numbers → numbers.drop i = rest →
    ∃ w', readItems m S.read list i rest.length w = .ok (rest.map .number) w' := by
  induction rest with
  | nil => exact fun {w i} _ _ _ => ⟨w, rfl⟩
  | cons x rest ih =>
    intro w i hw hh hdrop
    have hitem : numbers[i]? = some x := by
      rw [← Nat.add_zero i, ← List.getElem?_drop, hdrop]
      rfl
    have hnext : numbers.drop (i + 1) = rest := by
      rw [← List.drop_drop, hdrop]
      rfl
    obtain ⟨w₁, hcall, hw₁, hh₁⟩ := S.reads hw hh hlength hitem
    obtain ⟨w', hothers⟩ := ih hw₁ hh₁ hnext
    have hread := callFunc_words (m := m) [list, Int32.ofNat i] w S.read_type
    exact ⟨w', (bind_of_ok (hread.trans hcall) _).trans (bind_of_ok hothers _)⟩

/-- A list of numbers is read item by item. -/
theorem exists_receiveList (hw : S.Valid w) (hh : S.Has w list numbers)
    (hlength : numbers.length < 2 ^ 31) :
    ∃ w', receiveList m list w = .ok (numbers.map .number) w' := by
  obtain ⟨w₁, hcall, hw₁, hh₁⟩ := S.counts hw hh hlength
  obtain ⟨w', hitems⟩ := S.exists_readItems hlength numbers hw₁ hh₁ List.drop_zero
  refine ⟨w', (bind_of_ok (S.requireExport_eq hw S.length_exported) _).trans ?_⟩
  refine (bind_of_ok (S.requireExport_eq hw S.read_exported) _).trans ?_
  refine (bind_of_ok (callForInt_words [list] S.length_type hcall _) _).trans ?_
  have hcount : (Int32.ofNat numbers.length).toInt.toNat = numbers.length := by
    rw [Int32.toInt_ofNat_of_lt hlength, Int.toNat_natCast]
  rw [hcount]
  exact hitems

/-- Items that are numbers are taken as they are. -/
theorem mapM_expectNumber (numbers : List Double) (w : World γ) :
    ((numbers.map Value.number).mapM fun v => (orFail v.expectNumber : Act γ Double)) w
      = .ok numbers w := by
  induction numbers with
  | nil => rfl
  | cons x rest ih =>
    rw [List.map_cons, List.mapM_cons]
    exact (bind_of_ok (rfl : (orFail (Value.number x).expectNumber : Act γ Double) w = .ok x w)
      _).trans (bind_of_ok ih _)

theorem exists_receiveNumbers (hw : S.Valid w) (hh : S.Has w list numbers)
    (hlength : numbers.length < 2 ^ 31) :
    ∃ w', receiveNumbers m list w = .ok numbers w' := by
  obtain ⟨w', hlist⟩ := S.exists_receiveList hw hh hlength
  exact ⟨w', (bind_of_ok hlist _).trans (mapM_expectNumber numbers w')⟩

theorem elementOfTag_tag (e : Element) (w : World γ) :
    HostCall.elementOfTag (Int32.ofNat e.tag) w = .ok e w := by
  cases e <;> rfl

/-- A typed array of a list is made of its numbers. -/
theorem exists_typedArrayFromModuleList (hw : S.Valid w) (hh : S.Has w list numbers)
    (hlength : numbers.length < 2 ^ 31) (e : Element) :
    ∃ (h : Heap) (w' : World γ), HostCall.typedArrayFromModuleList m (Int32.ofNat e.tag) list w
        = .ok (.host (.typedArray (h.typedArrayOf e numbers).1)) w' ∧
      w'.session.heap = (h.typedArrayOf e numbers).2 := by
  obtain ⟨w₁, hnumbers⟩ := S.exists_receiveNumbers hw hh hlength
  exact ⟨w₁.session.heap, _,
    (bind_of_ok (elementOfTag_tag e w) _).trans (bind_of_ok hnumbers _), rfl⟩

end NumberLists

end ModuleHost
