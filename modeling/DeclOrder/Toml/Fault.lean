import DeclOrder.Failure

/-!
# Faults of configuration files

A reader stops at the first fault of a file.  A malformed file counts as empty; the other faults are
failures.
-/

namespace DeclOrder.Toml

/-- Why a configuration file cannot be read. -/
inductive Fault where
  | malformed
  | failed (failure : Failure)
  deriving DecidableEq, Repr

/-- What a file must have at some place; without it the file is malformed. -/
def expect {α : Type} : Option α → Except Fault α
  | some found => .ok found
  | none => .error .malformed

end DeclOrder.Toml
