import QueryGuard.Finding
import QueryGuard.Sql.Dialect

/-!
The configuration of a guard, and which findings make a validation fail.
-/

namespace QueryGuard

/-- Which warnings make a validation fail. -/
structure Policy where
  warningsAsErrors : Bool
  /-- Codes whose warnings make it fail. -/
  escalate : List FindingCode
  deriving DecidableEq, Repr

namespace Policy

/-- No warning makes a validation fail. -/
def lenient : Policy := ⟨false, []⟩

/-- The finding makes the validation fail: an error always, a warning by policy, other findings
never. -/
def blocks (p : Policy) (f : Finding) : Bool :=
  match f.severity with
  | .error => true
  | .warning => p.warningsAsErrors || p.escalate.contains f.code
  | .info => false

end Policy

/-- The configuration of a guard. -/
structure Config where
  /-- A guard that is not enabled looks at nothing. -/
  enabled : Bool
  /-- A suggestion is made. -/
  verbose : Bool
  dialect : Dialect
  policy : Policy
  deriving DecidableEq, Repr

namespace Config

/-- The configuration where none is given. -/
def standard : Config := ⟨true, false, .standard, .lenient⟩

/-- The standard configuration with two flags. -/
def ofFlags (enabled verbose : Bool) : Config := { standard with enabled, verbose }

end Config

end QueryGuard
