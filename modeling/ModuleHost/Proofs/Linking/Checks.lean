/-
Linking in two parts.

The imports of a module are looked up and compared before an instance is made of it.  The first part
reads the session and changes nothing; only the second part runs the module's start function.

* `Linker.check` — the first part, as a function;
* `makeInstance_of_check_ok`, `makeInstance_of_check_error` — making an instance is the one and
  then the other, `instantiate`.
-/
import Mathlib
import ModuleHost.Proofs.Linking.Resolution

namespace ModuleHost

open Act

/-- What the imports of a module stand for, if all of them are there and of the types that the
module declares.  A missing import comes before one of another type. -/
def Linker.check (l : Linker) (s : Session) (imports : List Import) :
    Except Report (List Extern) := do
  let entities ← l.resolveAll imports
  checkTypes s (imports.zip entities)
  return entities

variable {γ : Type} {m : Machine γ} {l : Linker} {d : Description} {w : World γ}

theorem makeInstance_eq (w : World γ) :
    makeInstance m l d w = (accept (l.check w.session d.imports) >>= instantiate m d) w := by
  unfold makeInstance Linker.check
  cases l.resolveAll d.imports with
  | error cause => rfl
  | ok entities =>
    refine (bind_of_ok (rfl : (accept (.ok entities) : Act γ _) w = .ok entities w) _).trans ?_
    refine (bind_session _ w).trans ?_
    show _ = (accept (checkTypes w.session (d.imports.zip entities) >>= fun _ => .ok entities)
      >>= instantiate m d) w
    cases checkTypes w.session (d.imports.zip entities) with
    | error cause => rfl
    | ok _ => rfl

/-- A module whose imports are refused has no effect. -/
theorem makeInstance_of_check_error {cause : Report}
    (h : l.check w.session d.imports = .error cause) :
    makeInstance m l d w = .error (.failed cause) w := by
  rw [makeInstance_eq, h]
  rfl

theorem makeInstance_of_check_ok {entities : List Extern}
    (h : l.check w.session d.imports = .ok entities) :
    makeInstance m l d w = instantiate m d entities w := by
  rw [makeInstance_eq, h]
  rfl

end ModuleHost
