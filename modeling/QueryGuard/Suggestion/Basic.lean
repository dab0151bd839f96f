import QueryGuard.Suggestion.Template

/-!
Suggestions: for the finding that matters most, a corrected query, an example of how to run it and
an explanation.
-/

namespace QueryGuard

/-- A corrected query with an example of how to run it. -/
structure Suggestion where
  query : String
  code : String
  explanation : String
  deriving DecidableEq, Repr

namespace Suggestion

/-- The code that runs a text with its binds. -/
def snippet (chars : List Char) (binds : List Bind) (kind : Statement.Kind) : String :=
  let (result, call) :=
    match kind with
    | .select => ("rows", "fetch_all")
    | _ => ("result", "execute")
  let sql := Text.quoted (String.ofList (Text.trim chars))
  s!"let {result} = sqlx::query({sql})\n" ++ String.join (binds.map Bind.line) ++
    s!"    .{call}(&pool)\n    .await?;"

/-- The suggestion for a finding. -/
def ofFinding (a : Analysis) (f : Finding) : Suggestion :=
  let t := a.template f
  let positional := SqlText.positionalText ⟨a.text.dialect, t.chars⟩
  { query := String.ofList t.chars
    code := snippet positional t.binds a.statement.kind
    explanation := t.explanation }

end Suggestion

/-- The finding that a suggestion is made for: the first error, else the first warning, else the
first of all. -/
def Finding.primary? (fs : List Finding) : Option Finding :=
  let first (s : Severity) := fs.find? (·.severity == s)
  (first .error).or ((first .warning).or (first .info))

end QueryGuard
