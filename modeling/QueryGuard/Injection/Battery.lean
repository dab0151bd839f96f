import QueryGuard.Binding.Params
import QueryGuard.Finding
import QueryGuard.Injection.Statements
import QueryGuard.Injection.Tautology
import QueryGuard.Text.Quoted

/-!
The checks that every bound string goes through. A bound value cannot change its statement; what the
checks show is input that would do harm where it is written into SQL.
-/

namespace QueryGuard.Injection

/-- A check on strings. -/
inductive Check where
  | tautology
  | stacked
  | comment
  | union
  deriving DecidableEq, Repr

namespace Check

/-- The checks in order. -/
def all : List Check := [tautology, stacked, comment, union]

/-- What the check looks for. -/
def name : Check → String
  | tautology => "tautology"
  | stacked => "stacked statement"
  | comment => "comment injection"
  | union => "UNION SELECT"

/-- The check applies to the string. -/
def applies (check : Check) (s : String) : Bool :=
  match check with
  | tautology => isTautology s.toList
  | stacked => isStacked s.toList
  | comment => opensComment s.toList
  | union => isUnionSelect s.toList

end Check

/-- The number of characters of a string that are shown. -/
def excerptLength : Nat := 60

/-- The beginning of a string, with dots where it goes on. -/
def excerpt (s : String) : String :=
  match s.toList.drop excerptLength with
  | [] => s
  | _ => String.ofList (s.toList.take excerptLength) ++ "..."

/-- The finding on a string under a key that a check applies to. -/
def finding (key : ParamKey) (s : String) (check : Check) : Finding :=
  .ofCode .injectionSuspected
    (s!"Parameter {key.text} looks like SQL injection ({check.name}): " ++ Text.quoted (excerpt s))

/-- The findings on a string under a key, in the order of the checks. -/
def findingsOf (key : ParamKey) (s : String) : List Finding :=
  (Check.all.filter (·.applies s)).map (finding key s)

/-- **The findings on the strings among the parameters,** in their order. -/
def findings (params : Params) : List Finding :=
  params.entries.flatMap fun (key, v) =>
    match v with
    | .string s => findingsOf key s
    | _ => []

end QueryGuard.Injection
