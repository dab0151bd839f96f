import QueryGuard.Guard

/-!
What the program prints, as lines: its overview, the codes, how a query is read, and a report as
text.
-/

namespace QueryGuard.CommandLine

/-! ### Lines -/

/-- The lines as one text, each with its end. -/
def unlines (lines : List String) : String := String.join (lines.map (· ++ "\n"))

/-- The lines of a text. The end of the last line may be missing. -/
def linesOf (s : String) : List String :=
  let lines := s.splitOn "\n"
  let lines := if lines.getLast? = some "" then lines.dropLast else lines
  lines.map fun l => if l.endsWith "\r" then String.ofList l.toList.dropLast else l

/-- The text with blanks behind it, up to a width. -/
def padRight (n : Nat) (s : String) : String :=
  s ++ String.ofList (List.replicate (n - s.length) ' ')

/-- The text with blanks in front, up to a width. -/
def padLeft (n : Nat) (s : String) : String :=
  String.ofList (List.replicate (n - s.length) ' ') ++ s

/-- A part of a SQL text. -/
def excerpt (sql : String) (s : Span) : String :=
  String.ofList (Text.slice s.start s.stop sql.toList)

/-! ### About the program -/

/-- The name of the program. -/
def programName : String := "sqlwarden"

/-- The version of the program. -/
def versionLines : List String := [programName ++ " 0.1.0"]

/-- What the program is. -/
def overviewLines : List String :=
  [programName ++ ": runtime SQL query guard", "",
   "Usage: " ++ programName ++ " <QUERY> [--params <JSON>] [OPTIONS]", "",
   "Try: " ++ programName ++ " --help"]

/-- How the program is used. -/
def helpLines : List String :=
  ["Runtime SQL query guard", "",
   "Usage: " ++ programName ++ " [OPTIONS] [QUERY] [COMMAND]", "",
   "Commands:",
   "  explain  Show segments, placeholders and classification of a query",
   "  codes    Show the finding code reference",
   "  help     Print this message", "",
   "Arguments:",
   "  [QUERY]  The SQL statement to validate", "",
   "Options:",
   "  -p, --params <PARAMS>    Bound parameters as JSON: a list for ?, an object for :name",
   "  -v, --verbose            Build a suggested fix for the primary finding",
   "  -f, --format <FORMAT>    Output format: text (the standard) or json",
   "  -c, --config <CONFIG>    Configuration file",
   "  -d, --dialect <DIALECT>  SQL dialect, overriding the configuration: standard or mysql",
   "      --disable            Bypass validation",
   "      --notify             Print the failure summary to stderr when validation fails",
   "  -h, --help               Print help",
   "  -V, --version            Print version"]

/-- The finding codes, in three columns. -/
def codeLines : List String :=
  let row (code severity meaning : String) : String :=
    padRight 22 code ++ " " ++ padRight 9 severity ++ " " ++ meaning
  [programName ++ " finding codes", "", row "Code" "Severity" "Meaning",
   String.ofList (List.replicate 80 '─')] ++
    FindingCode.all.map fun c => row c.name c.severity.name c.description

/-! ### How a query is read -/

/-- The name of the kind of a segment. -/
def segmentName : Segment.Kind → String
  | .bare => "Bare"
  | .literal => "Literal"
  | .comment => "Comment"

/-- The line on a segment. -/
def segmentLine (s : Segment) : String :=
  "  " ++ padLeft 4 (toString s.start) ++ ".." ++ padRight 4 (toString s.stop) ++ " " ++
    padRight 8 (segmentName s.kind) ++ " " ++ String.ofList s.text

/-- The line on a placeholder. -/
def placeholderLine (p : Placeholder) : String :=
  s!"  #{p.ordinal} {p.text} at {p.offset}"

/-- The line on a row of values; `n` is its place, from one. -/
def rowLine (sql : String) (n : Nat) (r : ValueRow) : String :=
  s!"  Row {n}: {excerpt sql r.span} ({r.entries.length} entries, {r.placeholderCount} placeholders)"

/-- The lines on a statement. -/
def statementLines (sql : String) (s : Statement) : List String :=
  ["  Kind: " ++ s.kind.name] ++
    (s.table.map ("  Table: " ++ ·)).toList ++
    (s.columns.map ("  Columns: " ++ ", ".intercalate ·)).toList ++
    (s.valueRows.mapIdx fun i r => rowLine sql (i + 1) r) ++
    (if s.setColumns.isEmpty then [] else ["  SET: " ++ ", ".intercalate s.setColumns]) ++
    (if s.kind = .update ∨ s.kind = .delete then
       ["  WHERE: " ++ if s.hasWhere then "yes" else "no"]
     else [])

/-- What is seen of a query before its statement is read. -/
def segmentationLines (d : Dialect) (sql : String) : List String :=
  let text := SqlText.ofString d sql
  let placeholders := text.placeholders
  [programName ++ " query explanation", "", "Query: " ++ sql, "", "Segments:"] ++
    text.segments.map segmentLine ++
    ["", "Placeholders:"] ++
    (if placeholders.isEmpty then ["  (none)"] else placeholders.map placeholderLine)

/-- How a query is read in a dialect. -/
def explanationLines (d : Dialect) (sql : String) : List String :=
  segmentationLines d sql ++
    ["", "Statement:"] ++ statementLines sql (SqlText.ofString d sql).statement

/-! ### Reports -/

/-- The lines on a finding: its message and, where it has a place, the text there. -/
def findingLines (sql : String) (f : Finding) : List String :=
  ("  " ++ padLeft 7 f.severity.name ++ " " ++ f.code.name ++ " " ++ f.message) ::
    (f.span.map fun s => "          at " ++ excerpt sql s).toList

/-- The lines on a suggestion. -/
def suggestionLines (s : Suggestion) : List String :=
  ["", "Suggested query:", "  " ++ s.query, "", "Example:"] ++
    (linesOf s.code).map ("  " ++ ·) ++ ["", s.explanation]

/-- The findings and the suggestion of a report, under a verdict. -/
def detailLines (sql : String) (r : Report) (verdict : String) : List String :=
  [verdict, ""] ++ r.findings.flatMap (findingLines sql) ++
    ((r.suggestion.map suggestionLines).getD [])

/-- A report as text. -/
def reportLines (sql : String) (r : Report) : List String :=
  ["Query: " ++ sql, ""] ++
    match r.status, r.findings with
    | .bypassed, _ => ["⊘ Validation bypassed"]
    | .success, [] => ["✓ No problems found"]
    | .success, _ => detailLines sql r "✓ Passed with notes"
    | .error, _ => detailLines sql r "✗ Validation failed"

/-- The words for a report that failed, beside the report itself. -/
def alertLines (n : Notification) : List String :=
  [s!"{programName}: {n.errorCount} error(s)", n.summary]

end QueryGuard.CommandLine
