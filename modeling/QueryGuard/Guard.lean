import QueryGuard.Config.Basic
import QueryGuard.Injection.Battery
import QueryGuard.Report
import QueryGuard.Review

/-!
The guard: every rule on a query, and the report of what they find. A notifier is called once for
each report that is an error; whether the call succeeds does not matter to the report.
-/

namespace QueryGuard

/-- What is known of a query in a dialect. -/
def Query.analysis (q : Query) (d : Dialect) : Analysis :=
  let text := SqlText.ofString d q.sql
  { text, placeholders := text.placeholders, statement := text.statement, supplied := q.supplied }

/-- Reading the query breaks off. -/
def Query.isTorn (q : Query) (d : Dialect) : Bool := (SqlText.ofString d q.sql).isTorn

/-- The findings on a query in a dialect: on the shape of the parameters, on placeholders and
bindings, on the statement, and on the bound strings. -/
def Query.findings (q : Query) (d : Dialect) : List Finding :=
  let a := q.analysis d
  q.malformedFinding?.toList ++ reconcile a.placeholders a.supplied a.statement ++ a.text.review ++
    ((q.params?.map Injection.findings).getD [])

namespace Config

/-- The status that findings come to. -/
def status (c : Config) (fs : List Finding) : Status :=
  if fs.any c.policy.blocks then .error else .success

/-- **The report on a query** that can be read. -/
def validate (c : Config) (q : Query) (context : Option Json) : Report :=
  if c.enabled then
    let report := Report.ofFindings (q.findings c.dialect)
    let suggestion :=
      if c.verbose then
        (Finding.primary? report.findings).map (Suggestion.ofFinding (q.analysis c.dialect))
      else none
    { report with status := c.status report.findings, suggestion, context }
  else { Report.bypassed with context }

/-- The report on a query, where there is one: where reading the query breaks off there is none. A
guard that is not enabled reads nothing. -/
def validate? (c : Config) (q : Query) (context : Option Json) : Option Report :=
  if c.enabled && q.isTorn c.dialect then none else some (c.validate q context)

/-- The query does not fail the validation. -/
def accepts (c : Config) (q : Query) : Bool := !(c.validate q none).isError

end Config

/-! ### Notifications -/

/-- A call of the notifier: the number of errors, the status and the summary of a report. -/
structure Notification where
  errorCount : Nat
  status : Status
  summary : String
  deriving DecidableEq, Repr

namespace Report

/-- The notification that a report gives rise to: one for an error, none otherwise. -/
def notification? (r : Report) : Option Notification :=
  if r.isError then some ⟨r.errorCount, r.status, r.summary⟩ else none

end Report

/-- One guard at work: its reports so far and the calls of its notifier, if it has one. -/
structure Session where
  config : Config
  /-- Whether a call of the notifier succeeds, by its number; none without a notifier. -/
  notifier : Option (Nat → Bool)
  reports : List Report
  calls : List (Notification × Bool)

namespace Session

/-- A guard before its first query. -/
def start (config : Config) (notifier : Option (Nat → Bool)) : Session := ⟨config, notifier, [], []⟩

/-- The guard after one more query. The outcome of a call is recorded and changes nothing. -/
def step (s : Session) (q : Query) (context : Option Json) : Session :=
  let report := s.config.validate q context
  let calls :=
    match s.notifier, report.notification? with
    | some succeeds, some n => s.calls ++ [(n, succeeds (s.calls.length + 1))]
    | _, _ => s.calls
  { s with reports := s.reports ++ [report], calls }

/-- The guard after a sequence of queries. -/
def run (s : Session) (qs : List (Query × Option Json)) : Session :=
  qs.foldl (fun s q => s.step q.1 q.2) s

end Session

/-! ### The two questions asked most -/

/-- The report on a query under the standard policy. -/
def validate (q : Query) (enabled verbose : Bool) : Report :=
  (Config.ofFlags enabled verbose).validate q none

/-- The query passes under the standard configuration. -/
def isValid (q : Query) : Bool := Config.standard.accepts q

end QueryGuard
