import QueryGuard.Suggestion.Basic

/-!
Reports: the findings on a query with the status that they come to, a suggestion and the context
that the caller gave. A finding that a report holds already is not added again.
-/

namespace QueryGuard

/-- What a validation comes to. -/
inductive Status where
  | success
  | error
  /-- The guard is disabled and looked at nothing. -/
  | bypassed
  deriving DecidableEq, Repr

/-- The word for the status. -/
def Status.name : Status → String
  | .success => "success"
  | .error => "error"
  | .bypassed => "bypassed"

/-- The result of a validation. -/
structure Report where
  status : Status
  findings : List Finding
  suggestion : Option Suggestion
  /-- What the caller handed in beside the query. -/
  context : Option Json

namespace Report

/-! ### Building reports -/

/-- A successful report without findings. -/
def empty : Report := ⟨.success, [], none, none⟩

/-- The report of a disabled guard. -/
def bypassed : Report := { empty with status := .bypassed }

/-- The two findings have the same code and message. -/
def sameFinding (f g : Finding) : Bool := f.code == g.code && f.message == g.message

/-- The report with one more finding, unless it has it already. -/
def push (r : Report) (f : Finding) : Report :=
  if r.findings.any (sameFinding f) then r else { r with findings := r.findings ++ [f] }

/-- A successful report with findings. -/
def ofFindings (fs : List Finding) : Report := fs.foldl push empty

/-! ### What a report holds -/

/-- The findings of a severity. -/
def ofSeverity (r : Report) (s : Severity) : List Finding := r.findings.filter (·.severity == s)

/-- The messages of the findings of a severity. -/
def messages (r : Report) (s : Severity) : List String := (r.ofSeverity s).map (·.message)

/-- The number of errors. -/
def errorCount (r : Report) : Nat := (r.ofSeverity .error).length

/-- The number of warnings. -/
def warningCount (r : Report) : Nat := (r.ofSeverity .warning).length

/-- The validation failed. -/
def isError (r : Report) : Bool := r.status == .error

/-! ### Plain text -/

/-- A section of the summary. -/
def summarySection (r : Report) (title : String) (s : Severity) : String :=
  match r.ofSeverity s with
  | [] => ""
  | fs => s!"\n{title}:\n" ++ String.join (fs.map fun f => "  - " ++ f.text ++ "\n")

/-- The report as plain text. -/
def summary (r : Report) : String :=
  let head :=
    s!"SQL validation {r.status.name}: {r.errorCount} error(s), {r.warningCount} warning(s)\n"
  let sections :=
    r.summarySection "Errors" .error ++ r.summarySection "Warnings" .warning ++ r.summarySection "Info" .info
  let suggestion :=
    match r.suggestion with
    | none => ""
    | some s => s!"\nSuggested query:\n  {s.query}\n\n{s.explanation}\n"
  let context :=
    match r.context with
    | none => ""
    | some v => s!"\nContext:\n{v.pretty}\n"
  head ++ sections ++ suggestion ++ context

end Report

/-! ### JSON -/

/-- The range as JSON. -/
def Span.toJson (s : Span) : Json := .object [("start", .ofNat s.start), ("end", .ofNat s.stop)]

/-- The finding as JSON. -/
def Finding.toJson (f : Finding) : Json :=
  .object <|
    [("severity", .string f.severity.name), ("code", .string f.code.name),
     ("message", .string f.message)] ++ (f.span.map fun s => ("span", s.toJson)).toList

/-- The suggestion as JSON. -/
def Suggestion.toJson (s : Suggestion) : Json :=
  .object
    [("query", .string s.query), ("code", .string s.code), ("explanation", .string s.explanation)]

/-- The report as JSON. -/
def Report.toJson (r : Report) : Json :=
  let texts (s : Severity) : Json := .array ((r.messages s).map .string)
  .object <|
    [("status", .string r.status.name), ("errors", texts .error), ("warnings", texts .warning),
     ("infos", texts .info), ("errorCount", .ofNat r.errorCount),
     ("warningCount", .ofNat r.warningCount),
     ("findings", .array (r.findings.map Finding.toJson))] ++
    (r.suggestion.map fun s => ("suggestion", s.toJson)).toList ++
    (r.context.map fun v => ("context", v)).toList

end QueryGuard
