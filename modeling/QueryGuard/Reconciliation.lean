import QueryGuard.Query
import QueryGuard.Sql.Statement

/-!
Comparing the placeholders of a query with the values bound to it, and the rows of an `INSERT` with
its column list.
-/

namespace QueryGuard

namespace Reconciliation

/-! ### Wording -/

/-- A number of things: `1 value`, `2 values`. -/
def plural (n : Nat) (word : String) : String :=
  if n = 1 then s!"{n} {word}" else s!"{n} {word}s"

/-- Names as placeholders, with commas. -/
def nameList (names : List String) : String := ", ".intercalate (names.map (":" ++ ·))

/-! ### Positional placeholders -/

/-- The finding when the numbers of placeholders and of values differ. -/
def count? (expected given : Nat) : Option Finding :=
  let counts := s!"({expected} expected, {given} given)"
  let holders := plural expected "placeholder"
  let values := plural given "value"
  if given < expected then
    some (.ofCode .paramCountMismatch
      s!"Missing parameters: the query has {holders} but only {values} bound {counts}")
  else if expected < given then
    some (.ofCode .paramCountMismatch
      s!"Extra parameters: the query has {holders} but {values} bound {counts}")
  else none

/-- The finding when values are bound by name to positional placeholders. -/
def namedForPositional (expected : Nat) (names : List String) : Finding :=
  let holders := plural expected "placeholder"
  .ofCode .paramNameMismatch
    (s!"Named parameters supplied for positional placeholders: the query has {holders} but" ++
      s!" {nameList names} were bound by name. Pass a list of values instead")

/-! ### Named placeholders -/

/-- The elements at their first occurrence. -/
def distinct (names : List String) : List String :=
  names.foldl (fun seen n => if seen.contains n then seen else seen ++ [n]) []

/-- The names of the placeholders that are not bound, once each, in the order of the text. -/
def missingNames (ps : List Placeholder) (b : Bindings) : List String :=
  (distinct (ps.filterMap Placeholder.name?)).filter (!b.names.contains ·)

/-- The bound names that no placeholder has, in the order in which they are supplied. -/
def unexpectedNames (ps : List Placeholder) (b : Bindings) : List String :=
  b.names.filter (!(ps.filterMap Placeholder.name?).contains ·)

/-- What is said of values that are bound by position to named placeholders. -/
def positionHint : Bindings → String
  | .positional (v :: vs) =>
    let values := plural (v :: vs).length "value"
    s!" ({values} supplied by position; named placeholders need named parameters)"
  | _ => ""

/-- The findings when the names of placeholders and of values differ. -/
def names (ps : List Placeholder) (b : Bindings) : List Finding :=
  let missing :=
    match missingNames ps b with
    | [] => []
    | ns =>
      [.ofCode .paramNameMismatch ("Missing named parameters: " ++ nameList ns ++ positionHint b)]
  let unexpected :=
    match unexpectedNames ps b with
    | [] => []
    | ns => [.ofCode .paramNameMismatch ("Unexpected named parameters: " ++ nameList ns)]
  missing ++ unexpected

/-! ### Rows of an insert -/

/-- The finding on row number `i` of a statement, whose entries are not as many as the columns. -/
def row (s : Statement) (columns : List String) (i : Nat) (r : ValueRow) : Finding :=
  let table := s.table.getD "the table"
  let label := if 1 < s.valueRows.length then s!"VALUES row {i + 1}" else "VALUES"
  let entries :=
    plural r.entries.length (if r.isAllPlaceholders then "placeholder" else "value")
  let listed := plural columns.length "column"
  Finding.withSpan (.ofCode .fieldCountMismatch
    s!"INSERT into {table} lists {listed} but {label} has {entries}") r.span

/-- The findings on the rows of an `INSERT` with a column list. -/
def rows (s : Statement) : List Finding :=
  match s.kind, s.columns with
  | .insert, some columns =>
    (s.valueRows.mapIdx fun i r =>
      if r.entries.length ≠ columns.length then some (row s columns i r) else none).filterMap id
  | _, _ => []

/-! ### All rules -/

/-- The finding on a query that is neither prepared nor bound. -/
def notPrepared : Finding :=
  .ofCode .notPrepared
    ("Query is not a prepared statement: it has no placeholders and no bound parameters. " ++
      "Use placeholders (?) and pass values separately")

/-- The findings on placeholders and bindings that may not go together. -/
def bindings (ps : List Placeholder) (supplied : Supplied) : List Finding :=
  let protocol := Placeholder.protocol ps
  match supplied with
  | .malformed => []
  | .raw =>
    match protocol with
    | .none => [notPrepared]
    | .positional => (count? ps.length 0).toList
    | .named => names ps (.positional [])
    | .mixed => []
  | .bound b =>
    match protocol, b with
    | .none, b => (count? 0 b.size).toList
    | .positional, .positional values => (count? ps.length values.length).toList
    | .positional, .named pairs => [namedForPositional ps.length (pairs.map (·.1))]
    | .named, b => names ps b
    | .mixed, _ => []

end Reconciliation

/-- **The findings of comparing** placeholders, what is supplied for them, and the statement. -/
def reconcile (ps : List Placeholder) (supplied : Supplied) (s : Statement) : List Finding :=
  (Placeholder.mixedFinding? ps).toList ++ Reconciliation.bindings ps supplied ++
    Reconciliation.rows s

end QueryGuard
