import QueryGuard.Sql.Statement

/-!
The findings that the statement alone gives rise to: an `UPDATE` or `DELETE` without `WHERE`, a
`SELECT *`, and literals that share a list with placeholders.
-/

namespace QueryGuard

namespace Statement

/-- The finding on an `UPDATE` or `DELETE` of a whole table. -/
def whereFinding? (s : Statement) : Option Finding :=
  let target := s.table.getD "the target table"
  if s.hasWhere then none
  else
    match s.kind with
    | .update =>
      some (.ofCode .missingWhere
        ("UPDATE without a WHERE clause modifies every row in " ++ target))
    | .delete =>
      some (.ofCode .missingWhere
        ("DELETE without a WHERE clause removes every row from " ++ target))
    | _ => none

/-- The finding on a `SELECT *`. -/
def starFinding? (s : Statement) : Option Finding :=
  s.star.map fun star =>
    Finding.withSpan (.ofCode .selectStar
      "SELECT * fetches every column; list the columns you need explicitly") star

end Statement

/-- The finding on the literal at `span`, which shares a list with placeholders. -/
def SqlText.literalFinding (t : SqlText) (span : Span) : Finding :=
  let literal := String.ofList (t.slice span.start span.stop)
  Finding.withSpan (.ofCode .hardcodedValue
    ("Hardcoded value " ++ literal ++
      " next to bound placeholders; bind it as a parameter instead")) span

/-- The places of the literals of a list that holds a placeholder. -/
def ParenList.hardcoded (l : ParenList) : List Span :=
  if l.entries.contains .placeholder then
    l.items.filterMap fun i => if i.entry = .literal then i.span? else none
  else []

/-- The lists of the statement in the order in which they open. -/
def SqlText.listsByOpening (t : SqlText) : List ParenList :=
  t.parenLists.mergeSort fun a b => a.opening.start ≤ b.opening.start

/-- The findings on the first statement of a text, in order. -/
def SqlText.review (t : SqlText) : List Finding :=
  t.statement.whereFinding?.toList ++ t.statement.starFinding?.toList ++
    (t.listsByOpening.flatMap ParenList.hardcoded).map t.literalFinding

end QueryGuard
