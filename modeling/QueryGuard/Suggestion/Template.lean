import QueryGuard.Binding.Literal
import QueryGuard.Edit
import QueryGuard.Reconciliation
import QueryGuard.Suggestion.Bind

/-!
Templates: for a finding on a query, the corrected SQL text, the binds of its placeholders and an
explanation. The text is corrected by edits, so that the rest of it stays as it is.
-/

namespace QueryGuard

/-- What is known of a query. -/
structure Analysis where
  text : SqlText
  placeholders : List Placeholder
  statement : Statement
  supplied : Supplied

/-- A corrected text with its binds and an explanation. -/
structure Template where
  chars : List Char
  binds : List Bind
  explanation : String

/-- The text with `?` for every named placeholder. -/
def SqlText.positionalText (t : SqlText) : List Char :=
  Edit.apply t.chars ((t.placeholders.filter (·.isNamed)).map fun p => .replace p.span "?")

namespace Analysis

variable (a : Analysis)

/-- One bind for each placeholder. -/
def binds : List Bind := Bind.ofPlaceholders a.supplied.bindings? a.placeholders

/-- The text with `?` for every placeholder. -/
def allPositional : List Char :=
  Edit.apply a.text.chars (a.placeholders.map fun p => .replace p.span "?")

/-- The name is like that of a column that identifies a row. -/
def isIdName (name : String) : Bool :=
  let cs := Text.lower name.toList
  cs == ['i', 'd'] || ['_', 'i', 'd'].isSuffixOf cs

/-- The column of a new `WHERE`: the first bound name like that of an identifier which no
placeholder has, else `id`. -/
def idColumn : String :=
  let used := a.placeholders.filterMap Placeholder.name?
  let names := (a.supplied.bindings?.map Bindings.sortedNames).getD []
  (names.find? fun n => isIdName n && !used.contains n).getD "id"

/-- The text and its binds as they are. -/
def unchanged (explanation : String) : Template := ⟨a.text.chars, a.binds, explanation⟩

/-- The text with `?` for every placeholder. -/
def positional (explanation : String) : Template := ⟨a.allPositional, a.binds, explanation⟩

/-! ### The templates -/

/-- The strings and numbers of the first statement. -/
def literals : List Token :=
  a.text.tokens.filter fun t =>
    t.start < a.statement.stop && (t.kind == .string || t.kind == .number)

/-- Every string and number becomes a placeholder. -/
def notPrepared : Template :=
  let literals := a.literals
  { chars := Edit.apply a.text.chars (literals.map fun t => .replace ⟨t.start, t.stop⟩ "?")
    binds := literals.map fun t => .value (.ofLiteral t.text)
    explanation :=
      if literals.isEmpty then
        "The query is sent as plain text. Write every value as a ? placeholder and pass it " ++
          "with bind() so the driver sends it separately from the statement."
      else
        "Values are written into the SQL text. Bound parameters travel separately from the " ++
          "statement, so they can never change its structure." }

/-- The clause that is put in at the anchor. -/
def whereClause : String :=
  let column := a.idColumn
  let holder := if Placeholder.protocol a.placeholders = .named then ":" ++ column else "?"
  let condition := "WHERE " ++ column ++ " = " ++ holder
  let tail := Text.dropBytes a.statement.whereAnchor a.text.chars
  if tail.head?.any Text.isAlphabetic then condition ++ " " else " " ++ condition

/-- The bind of the new clause. -/
def whereBind : Bind :=
  match a.supplied.bindings?.bind (·.getNamed? a.idColumn) with
  | some v => .value v
  | none => .ofVariable a.idColumn none

/-- The number of placeholders in front of the anchor. -/
def bindsBeforeWhere : Nat := a.placeholders.countP (·.offset < a.statement.whereAnchor)

/-- A `WHERE` clause is put in. -/
def missingWhere : Template :=
  let anchor := a.statement.whereAnchor
  let table := a.statement.table.getD "the table"
  { chars := Edit.apply a.text.chars [.insert anchor a.whereClause]
    binds := a.binds.insertIdx a.bindsBeforeWhere a.whereBind
    explanation :=
      s!"Without a WHERE clause the {a.statement.kind.name} touches every row of {table}." ++
        " Restrict it to the rows you mean to change, or write WHERE TRUE when a full-table" ++
        " change is intended." }

/-- The number of binds without a value. -/
def missingCount : Nat := a.binds.countP (·.isMissing)

/-- The number of values without a placeholder. -/
def droppedCount : Nat :=
  ((a.supplied.bindings?.map Bindings.size).getD 0) - (a.binds.length - a.missingCount)

/-- The text stays, and the explanation counts what is missing and what is dropped. -/
def paramCount : Template :=
  let missing := Reconciliation.plural a.missingCount "bind"
  let dropped := Reconciliation.plural a.droppedCount "value"
  let missingText := if 0 < a.missingCount then s!" {missing} still missing a value." else ""
  let verb := if a.droppedCount = 1 then "was" else "were"
  let droppedText :=
    if 0 < a.droppedCount then s!" {dropped} had no placeholder and {verb} dropped." else ""
  a.unchanged ("Every ? needs exactly one bound value, in order." ++ missingText ++ droppedText)

/-- The row of the finding is rebuilt with a placeholder for each column. -/
def fieldCount (f : Finding) : Template :=
  let columns := a.statement.columns.getD []
  let row := "(" ++ ", ".intercalate (columns.map fun _ => "?") ++ ")"
  { chars :=
      match f.span with
      | some span => Edit.apply a.text.chars [.replace span row]
      | none => a.text.chars
    binds := columns.map fun c => .ofVariable c none
    explanation :=
      "Each VALUES row needs one entry per listed column (" ++ ", ".intercalate columns ++ "). " ++
        "The row was rebuilt with one placeholder per column." }

/-- The literal of the finding becomes a placeholder. -/
def hardcoded (f : Finding) : Template :=
  match f.span with
  | none => a.unchanged ""
  | some span =>
    let literal := a.text.slice span.start span.stop
    let bound := (a.placeholders.map (·.offset)).zip a.binds ++
      [(span.start, .value (.ofLiteral literal))]
    { chars := Edit.apply a.text.chars [.replace span "?"]
      binds := (bound.mergeSort fun x y => x.1 ≤ y.1).map (·.2)
      explanation :=
        "The literal " ++ String.ofList literal ++ " sits next to bound values. " ++
          "Bind it like the others so it cannot turn into concatenated input later." }

/-- The star becomes a list of columns. -/
def selectStar : Template :=
  { chars :=
      match a.statement.star with
      | some star =>
        Edit.apply a.text.chars
          [.replace star "column_a, column_b /* list only the columns you need */"]
      | none => a.text.chars
    binds := a.binds
    explanation :=
      "SELECT * returns every column, including ones added later. An explicit column list " ++
        "keeps the result shape stable and avoids fetching data you do not use." }

/-- **The template for a finding.** -/
def template (f : Finding) : Template :=
  match f.code with
  | .notPrepared => a.notPrepared
  | .missingWhere => a.missingWhere
  | .mixedPlaceholders =>
    a.positional
      ("A statement must use one placeholder style. Every placeholder was rewritten to ? " ++
        "and is bound in the order it appears.")
  | .paramNameMismatch =>
    a.positional
      ("Every :name placeholder needs a parameter with the same name, and every parameter " ++
        "needs a placeholder. Binding positionally in placeholder order removes the mismatch.")
  | .selectStar => a.selectStar
  | .paramCountMismatch => a.paramCount
  | .fieldCountMismatch => a.fieldCount f
  | .hardcodedValue => a.hardcoded f
  | .injectionSuspected =>
    a.unchanged
      ("The flagged value contains SQL syntax. Binding keeps it from changing this statement, " ++
        "but the same value is dangerous anywhere it is concatenated into SQL. Validate or " ++
        "reject it where it enters the application.")
  | .malformedBindings =>
    a.positional
      ("Parameters must be either a list bound to ? in order or a map bound to :name " ++
        "placeholders, never both, and each name may be given once.")

end Analysis

end QueryGuard
