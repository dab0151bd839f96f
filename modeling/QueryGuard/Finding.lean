import QueryGuard.Text.Letter
import QueryGuard.Text.CharClass

/-!
Findings: one detected condition each, with a severity, a stable code, a message and, where there
is one, the place in the text.
-/

namespace QueryGuard

/-- How serious a finding is. -/
inductive Severity where
  | error
  | warning
  | info
  deriving DecidableEq, Repr

/-- The word for the severity. -/
def Severity.name : Severity → String
  | .error => "error"
  | .warning => "warning"
  | .info => "info"

/-- The stable code of a rule. -/
inductive FindingCode where
  | notPrepared
  | paramCountMismatch
  | paramNameMismatch
  | fieldCountMismatch
  | mixedPlaceholders
  | malformedBindings
  | missingWhere
  | selectStar
  | hardcodedValue
  | injectionSuspected
  deriving DecidableEq, Repr

namespace FindingCode

/-- Every code, in the order of the reference. -/
def all : List FindingCode :=
  [notPrepared, paramCountMismatch, paramNameMismatch, fieldCountMismatch, mixedPlaceholders,
   malformedBindings, missingWhere, selectStar, hardcodedValue, injectionSuspected]

/-- The code as it is written. -/
def name : FindingCode → String
  | notPrepared => "NOT_PREPARED"
  | paramCountMismatch => "PARAM_COUNT_MISMATCH"
  | paramNameMismatch => "PARAM_NAME_MISMATCH"
  | fieldCountMismatch => "FIELD_COUNT_MISMATCH"
  | mixedPlaceholders => "MIXED_PLACEHOLDERS"
  | malformedBindings => "MALFORMED_BINDINGS"
  | missingWhere => "MISSING_WHERE"
  | selectStar => "SELECT_STAR"
  | hardcodedValue => "HARDCODED_VALUE"
  | injectionSuspected => "INJECTION_SUSPECTED"

/-- The severity of the findings of a code. -/
def severity : FindingCode → Severity
  | missingWhere | injectionSuspected => .warning
  | selectStar | hardcodedValue => .info
  | _ => .error

/-- One line on what the code stands for. -/
def description : FindingCode → String
  | notPrepared => "raw SQL without placeholders or bound parameters"
  | paramCountMismatch => "positional placeholder count differs from bound values"
  | paramNameMismatch => "named placeholders and bound names differ"
  | fieldCountMismatch => "INSERT column list and VALUES row differ in length"
  | mixedPlaceholders => "positional and named placeholders in one statement"
  | malformedBindings => "params mix sequential and named keys, or repeat a name"
  | missingWhere => "UPDATE or DELETE without a top-level WHERE clause"
  | selectStar => "SELECT * instead of an explicit column list"
  | hardcodedValue => "literal value next to bound placeholders"
  | injectionSuspected => "bound value matches a known injection pattern"

/-- The code whose name is exactly `s`. -/
def ofName? (s : String) : Option FindingCode := all.find? (·.name == s)

/-- The code that `s` spells in any letter case, blanks around it ignored. -/
def parse? (s : String) : Option FindingCode :=
  let wanted := Text.trim s.toList
  all.find? fun code => Text.sameWord code.name.toList wanted

end FindingCode

/-- A range of bytes of a text, without its end. -/
structure Span where
  start : Nat
  stop : Nat
  deriving DecidableEq, Repr

/-- One detected condition. -/
structure Finding where
  severity : Severity
  code : FindingCode
  message : String
  span : Option Span
  deriving DecidableEq, Repr

namespace Finding

/-- A finding at the severity of its code, at no place in particular. -/
def ofCode (code : FindingCode) (message : String) : Finding :=
  { severity := code.severity, code, message, span := none }

/-- The finding, at a place of the text. -/
def withSpan (f : Finding) (span : Span) : Finding := { f with span := some span }

/-- The finding on one line. -/
def text (f : Finding) : String := "[" ++ f.code.name ++ "] " ++ f.message

/-- The finding is an error. -/
def isError (f : Finding) : Bool := f.severity == .error

end Finding

end QueryGuard
