import QueryGuard.Json.Printer

/-!
What can be wrong with the input around a query. The query itself is never refused: what is wrong
with it is a finding.
-/

namespace QueryGuard

/-- A reason for which input is refused. -/
inductive InputError where
  /-- Parameters that are neither an array nor an object. -/
  | paramsShape (got : Json)
  /-- A query object without a string field for the SQL text. -/
  | sqlMissing
  /-- A query that is neither a string nor an object. -/
  | queryShape (got : Json)
  /-- A finding code that does not exist. -/
  | unknownCode (name : String)
  /-- A configuration file that cannot be read or parsed. -/
  | config (path : String)

/-- The text of the error. -/
def InputError.message : InputError → String
  | paramsShape got => "Invalid parameters: expected an array or an object, got " ++ got.text
  | sqlMissing => "Invalid parameters: missing string field 'sql'"
  | queryShape got =>
    "Invalid parameters: expected a SQL string or an object with 'sql', got " ++ got.text
  | unknownCode name => "Unknown finding code: '" ++ name ++ "'"
  | config path => "Configuration error in " ++ path

end QueryGuard
