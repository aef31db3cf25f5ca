/-
Strings are compared unit by unit.

A module compares strings through two builtins.  One answers how two strings are ordered, unit by
unit, as a word; the other one answers whether two strings are equal, takes nulls as well and
refuses anything else.  Both agree with each other and with strict equality.

* `Text.numbers` — the units of a text as numbers, by which texts are ordered;
* `TextBuiltin.Compares`, `TextBuiltin.Equates` — what a module is answered;
* `Value.IsTextual` — what can be asked to be equal;
* `strings_are_ordered` — the main theorem.
-/
import Mathlib
import ModuleHost.Proofs.Text.Calls

namespace ModuleHost

/-! ### The order of texts -/

namespace Text

variable {a b : Text}

/-- The units as numbers. -/
def numbers (s : Text) : List ℕ := s.units.map UInt16.toNat

theorem numbers_injective : Function.Injective numbers := fun _ _ h =>
  Text.ext (List.map_injective_iff.mpr (fun _ _ => UInt16.toNat_inj.mp) h)

theorem numbers_append (a b : Text) : (a ++ b).numbers = a.numbers ++ b.numbers := by
  rw [numbers, units_append, List.map_append, numbers, numbers]

/-- The order is that of lists of numbers: the first number that differs decides, and a proper
initial part is smaller. -/
theorem compares_compareUnits (us vs : List UInt16) :
    (compareUnits us vs).Compares (us.map UInt16.toNat) (vs.map UInt16.toNat) := by
  induction us generalizing vs with
  | nil =>
    cases vs with
    | nil => rfl
    | cons v vs => exact List.nil_lt_cons _ _
  | cons u us ih =>
    cases vs with
    | nil => exact List.nil_lt_cons _ _
    | cons v vs =>
      rw [List.map_cons, List.map_cons, compareUnits]
      by_cases huv : u < v
      · rw [if_pos huv]
        exact List.cons_lt_cons_iff.mpr (.inl (UInt16.lt_iff_toNat_lt.mp huv))
      by_cases hvu : v < u
      · rw [if_neg huv, if_pos hvu]
        exact List.cons_lt_cons_iff.mpr (.inl (UInt16.lt_iff_toNat_lt.mp hvu))
      -- the first units are equal, so the others decide
      have heq : u.toNat = v.toNat := by
        rw [UInt16.lt_iff_toNat_lt] at huv hvu
        omega
      have hrest := ih vs
      rw [if_neg huv, if_neg hvu, heq]
      cases hc : compareUnits us vs with
      | lt => exact List.cons_lt_cons_iff.mpr (.inr ⟨rfl, (hc ▸ hrest :)⟩)
      | eq => exact congrArg _ (hc ▸ hrest :)
      | gt => exact List.cons_lt_cons_iff.mpr (.inr ⟨rfl, (hc ▸ hrest :)⟩)

theorem compares_compare (a b : Text) : (a.compare b).Compares a.numbers b.numbers :=
  compares_compareUnits a.units b.units

theorem append_lt_append_iff {k l m : List ℕ} : k ++ l < k ++ m ↔ l < m :=
  StrictMono.lt_iff_lt (f := (k ++ ·)) fun _ _ => List.append_left_lt

theorem lt_append (hb : b ≠ empty) : a.numbers < (a ++ b).numbers := by
  obtain ⟨n, rest, hn⟩ : ∃ n rest, b.numbers = n :: rest := by
    refine List.exists_cons_of_ne_nil fun hnil => hb ?_
    exact numbers_injective hnil
  have hlt : a.numbers ++ [] < a.numbers ++ b.numbers := by
    rw [append_lt_append_iff, hn]
    exact List.nil_lt_cons _ _
  rwa [List.append_nil, ← numbers_append] at hlt

end Text

/-! ### What a module is answered -/

namespace TextBuiltin

variable {a b c : Text} {n : Int32}

/-- How two strings are ordered. -/
def Compares (a b : Text) (n : Int32) : Prop := compare.Returns [string a, string b] (.i32 n)

/-- Whether two values are equal. -/
def Equates (v w : Value) (n : Int32) : Prop :=
  equals.Returns [.ref (.ofValue v), .ref (.ofValue w)] (.i32 n)

theorem compares_iff : Compares a b n ↔ n = orderWord a b := by
  have hreturns : Compares a b (orderWord a b) := rfl
  constructor
  · intro h
    injection h.unique hreturns
  · rintro rfl
    exact hreturns

/-- The answer says which list of numbers is the smaller one. -/
theorem orderWord_cases (a b : Text) :
    (a.numbers < b.numbers ∧ orderWord a b = -1) ∨ (a = b ∧ orderWord a b = 0) ∨
      (b.numbers < a.numbers ∧ orderWord a b = 1) := by
  have horder := Text.compares_compare a b
  unfold orderWord
  cases hc : a.compare b with
  | lt => exact .inl ⟨horder.eq_lt.mp hc, rfl⟩
  | eq => exact .inr (.inl ⟨Text.numbers_injective (horder.eq_eq.mp hc), rfl⟩)
  | gt => exact .inr (.inr ⟨horder.eq_gt.mp hc, rfl⟩)

theorem orderWord_of_lt (h : a.numbers < b.numbers) : orderWord a b = -1 := by
  obtain ⟨-, hn⟩ | ⟨rfl, -⟩ | ⟨hgt, -⟩ := orderWord_cases a b
  · exact hn
  · exact (lt_irrefl _ h).elim
  · exact (lt_asymm h hgt).elim

theorem orderWord_of_gt (h : b.numbers < a.numbers) : orderWord a b = 1 := by
  obtain ⟨hlt, -⟩ | ⟨rfl, -⟩ | ⟨-, hn⟩ := orderWord_cases a b
  · exact (lt_asymm h hlt).elim
  · exact (lt_irrefl _ h).elim
  · exact hn

theorem orderWord_eq_zero_iff : orderWord a b = 0 ↔ a = b := by
  obtain ⟨hlt, hn⟩ | ⟨rfl, hn⟩ | ⟨hlt, hn⟩ := orderWord_cases a b
  · rw [hn]
    refine iff_of_false (by decide) fun heq => ?_
    exact lt_irrefl _ (heq ▸ hlt)
  · exact iff_of_true hn rfl
  · rw [hn]
    refine iff_of_false (by decide) fun heq => ?_
    exact lt_irrefl _ (heq ▸ hlt)

theorem orderWord_self (a : Text) : orderWord a a = 0 := orderWord_eq_zero_iff.mpr rfl

theorem orderWord_le_zero_iff : orderWord a b ≤ 0 ↔ a.numbers ≤ b.numbers := by
  obtain ⟨hlt, hn⟩ | ⟨rfl, hn⟩ | ⟨hlt, hn⟩ := orderWord_cases a b
  · rw [hn]
    exact iff_of_true (by decide) hlt.le
  · rw [hn]
    exact iff_of_true (by decide) le_rfl
  · rw [hn]
    exact iff_of_false (by decide) (not_le.mpr hlt)

theorem orderWord_swap (a b : Text) : orderWord b a = -orderWord a b := by
  obtain ⟨hlt, hn⟩ | ⟨rfl, hn⟩ | ⟨hlt, hn⟩ := orderWord_cases a b
  · rw [hn, orderWord_of_gt hlt]
    rfl
  · rw [hn]
    rfl
  · rw [hn, orderWord_of_lt hlt]

theorem orderWord_append_left (a b c : Text) : orderWord (c ++ a) (c ++ b) = orderWord a b := by
  have hlt {s t : Text} (h : s.numbers < t.numbers) : (c ++ s).numbers < (c ++ t).numbers := by
    rw [Text.numbers_append, Text.numbers_append]
    exact Text.append_lt_append_iff.mpr h
  obtain ⟨h, hn⟩ | ⟨rfl, hn⟩ | ⟨h, hn⟩ := orderWord_cases a b
  · rw [hn, orderWord_of_lt (hlt h)]
  · rw [hn, orderWord_self]
  · rw [hn, orderWord_of_gt (hlt h)]

end TextBuiltin

/-! ### Equality -/

/-- A string or null. -/
def Value.IsTextual (v : Value) : Prop := v = .null ∨ ∃ s, v = .string s

namespace TextBuiltin

variable {v w : Value} {n : Int32}

theorem equalTexts_of_isTextual (hv : v.IsTextual) (hw : w.IsTextual) :
    equalTexts v w = .ok (v.same w) := by
  obtain rfl | ⟨s, rfl⟩ := hv <;> obtain rfl | ⟨t, rfl⟩ := hw
  · rfl
  · rfl
  · rfl
  · simp [equalTexts, Value.same_eq]

theorem equalTexts_of_not (h : ¬ (v.IsTextual ∧ w.IsTextual)) :
    ∃ found, equalTexts v w = .error (.typeMismatch .string found) := by
  unfold equalTexts
  split
  · exact absurd ⟨.inl rfl, .inl rfl⟩ h
  · exact absurd ⟨.inl rfl, .inr ⟨_, rfl⟩⟩ h
  · exact absurd ⟨.inr ⟨_, rfl⟩, .inl rfl⟩ h
  · exact absurd ⟨.inr ⟨_, rfl⟩, .inr ⟨_, rfl⟩⟩ h
  · exact ⟨_, rfl⟩
  · exact ⟨_, rfl⟩

theorem run_equals {γ : Type} (v w : Value) :
    (equals.run [.ref (.ofValue v), .ref (.ofValue w)] : Act γ (List Val))
      = HostCall.wordResult (do return HostCall.flag (← Act.orFail (equalTexts v w))) := by
  show HostCall.wordResult (do
    let v ← Act.orFail (Reference.ofValue v).value
    let w ← Act.orFail (Reference.ofValue w).value
    return HostCall.flag (← Act.orFail (equalTexts v w))) = _
  rw [Reference.value_ofValue, Reference.value_ofValue]
  rfl

theorem equates_same (hv : v.IsTextual) (hw : w.IsTextual) :
    Equates v w (HostCall.flag (v.same w)) := by
  intro γ
  rw [run_equals]
  exact wordResult_of_ok (equalTexts_of_isTextual hv hw) HostCall.flag

theorem refuses_equals (h : ¬ (v.IsTextual ∧ w.IsTextual)) :
    ∃ found, equals.Refuses [.ref (.ofValue v), .ref (.ofValue w)]
      (.typeMismatch .string found) := by
  obtain ⟨found, herror⟩ := equalTexts_of_not h
  refine ⟨found, fun {γ} => ?_⟩
  rw [run_equals]
  exact wordResult_of_error herror HostCall.flag

theorem equates_iff :
    Equates v w n ↔ (v.IsTextual ∧ w.IsTextual) ∧ n = HostCall.flag (v.same w) := by
  constructor
  · intro h
    have htextual : v.IsTextual ∧ w.IsTextual := by
      by_contra hnot
      obtain ⟨found, hrefuses⟩ := refuses_equals hnot
      exact h.not_refuses hrefuses
    refine ⟨htextual, ?_⟩
    injection h.unique (equates_same htextual.1 htextual.2)
  · rintro ⟨⟨hv, hw⟩, rfl⟩
    exact equates_same hv hw

theorem flag_eq_one_iff {x : Bool} : HostCall.flag x = 1 ↔ x = true := by
  cases x <;> decide

theorem same_string_iff {a b : Text} :
    (Value.string a).same (.string b) = true ↔ a = b := by
  simp [Value.same]

end TextBuiltin

/-! ### The main theorem -/

open TextBuiltin

/-- Strings are in a total order, by their units as numbers: the comparison answers -1, 0 or 1, the
opposite when the strings are swapped, is transitive, puts a proper initial part first, and does not
see what both strings begin with.  It answers 0 exactly for equal strings, which is what the test
for equality and strict equality say as well.  That test has an answer exactly for strings and
nulls, namely whether the two are strictly equal, and is refused for anything else. -/
theorem strings_are_ordered :
    (∀ a b : Text, ∃ n, Compares a b n ∧ Compares b a (-n) ∧
      (a.numbers < b.numbers ∧ n = -1 ∨ a.numbers = b.numbers ∧ n = 0 ∨
        b.numbers < a.numbers ∧ n = 1)) ∧
    (∀ (a b c : Text) (m n : Int32), Compares a b m → Compares b c n → m ≤ 0 → n ≤ 0 →
      ∃ k, Compares a c k ∧ k ≤ 0 ∧ (k = 0 → m = 0 ∧ n = 0)) ∧
    (∀ a b : Text, b ≠ .empty → Compares a (a ++ b) (-1)) ∧
    (∀ a b : Text, (Compares a b 0 ↔ Equates (.string a) (.string b) 1) ∧
      (Compares a b 0 ↔ (Value.string a).same (.string b) = true)) ∧
    (∀ a b c : Text, ∃ x y, concat.Returns [string c, string a] (string x) ∧
      concat.Returns [string c, string b] (string y) ∧ ∀ n, Compares x y n ↔ Compares a b n) ∧
    ∀ v w : Value,
      ((∃ n, Equates v w n) ↔ v.IsTextual ∧ w.IsTextual) ∧
      ((∃ found, equals.Refuses [.ref (.ofValue v), .ref (.ofValue w)]
        (.typeMismatch .string found)) ↔ ¬ (v.IsTextual ∧ w.IsTextual)) ∧
      ∀ n, Equates v w n → n = HostCall.flag (v.same w) := by
  refine ⟨fun a b => ⟨orderWord a b, compares_iff.mpr rfl, ?_, ?_⟩, ?_, ?_, ?_, ?_, ?_⟩
  · exact compares_iff.mpr (orderWord_swap a b).symm
  · obtain h | ⟨rfl, h⟩ | h := orderWord_cases a b
    · exact .inl h
    · exact .inr (.inl ⟨rfl, h⟩)
    · exact .inr (.inr h)
  · intro a b c m n hm hn hle hle'
    rw [compares_iff] at hm hn
    subst hm hn
    rw [orderWord_le_zero_iff] at hle hle'
    refine ⟨_, compares_iff.mpr rfl, orderWord_le_zero_iff.mpr (hle.trans hle'), fun hk => ?_⟩
    -- what lies between equal strings is equal to both
    obtain rfl := orderWord_eq_zero_iff.mp hk
    obtain rfl := Text.numbers_injective (hle.antisymm hle')
    exact ⟨orderWord_self a, orderWord_self a⟩
  · intro a b hb
    exact compares_iff.mpr (orderWord_of_lt (Text.lt_append hb)).symm
  · intro a b
    rw [compares_iff, eq_comm, orderWord_eq_zero_iff, equates_iff, eq_comm (a := 1),
      flag_eq_one_iff, same_string_iff]
    exact ⟨(and_iff_right ⟨.inr ⟨a, rfl⟩, .inr ⟨b, rfl⟩⟩).symm, Iff.rfl⟩
  · intro a b c
    refine ⟨c ++ a, c ++ b, returns_concat c a, returns_concat c b, fun n => ?_⟩
    rw [compares_iff, compares_iff, orderWord_append_left]
  · intro v w
    refine ⟨⟨?_, ?_⟩, ⟨?_, refuses_equals⟩, fun n hn => (equates_iff.mp hn).2⟩
    · rintro ⟨n, hn⟩
      exact (equates_iff.mp hn).1
    · rintro ⟨hv, hw⟩
      exact ⟨_, equates_same hv hw⟩
    · rintro ⟨found, hrefuses⟩ ⟨hv, hw⟩
      have hreturns : Equates v w (HostCall.flag (v.same w)) := equates_same hv hw
      exact hreturns.not_refuses hrefuses

/-- A smiling face, written as a pair, and a character that is written as one unit. -/
def face : Text := ⟨[0xd83d, 0xde00]⟩

def privateUse : Text := ⟨[0xe000]⟩

/-- The face is the later character but the smaller string. -/
theorem strings_are_ordered_face :
    (Compares .empty face (-1) ∧ Compares face privateUse (-1) ∧
      ∃ n, Compares .empty privateUse n ∧ n ≤ 0) ∧
    (face ≠ .empty ∧ Compares privateUse (privateUse ++ face) (-1)) ∧
    Equates .null .null 1 ∧ 1 = HostCall.flag (Value.null.same .null) := by
  obtain ⟨-, htransitive, hfirst, -, -, hequal⟩ := strings_are_ordered
  have hempty : Compares .empty face (-1) := rfl
  have hface : Compares face privateUse (-1) := rfl
  have hnull : Equates .null .null 1 := rfl
  have hne : face ≠ .empty := by decide
  obtain ⟨n, hn, hle, -⟩ := htransitive _ _ _ _ _ hempty hface (by decide) (by decide)
  exact ⟨⟨hempty, hface, n, hn, hle⟩, ⟨hne, hfirst _ _ hne⟩, hnull, (hequal _ _).2.2 1 hnull⟩

end ModuleHost
