import QueryGuard.Sql.Head
import QueryGuard.Sql.ParenList

/-!
The first statement of a text: its kind, table, columns and rows, whether it has a `WHERE` clause
and where one would go. The statement ends at the first semicolon outside parentheses, or with the
text.
-/

namespace QueryGuard

/-- The kind of a statement. -/
inductive Statement.Kind where
  | select
  | insert
  | update
  | delete
  | other
  deriving DecidableEq, Repr

/-- The kind in capitals. -/
def Statement.Kind.name : Statement.Kind → String
  | .select => "SELECT"
  | .insert => "INSERT"
  | .update => "UPDATE"
  | .delete => "DELETE"
  | .other => "OTHER"

/-- One row of a `VALUES` clause. -/
structure ValueRow where
  entries : List Entry
  span : Span
  deriving DecidableEq, Repr

namespace ValueRow

/-- How many entries of the row are placeholders. -/
def placeholderCount (r : ValueRow) : Nat := r.entries.countP (· == .placeholder)

/-- Every entry of the row is a placeholder. -/
def isAllPlaceholders (r : ValueRow) : Bool := r.placeholderCount == r.entries.length

end ValueRow

/-- What is known of the first statement of a text. -/
structure Statement where
  kind : Statement.Kind
  /-- The leading keyword as written. -/
  keyword : Option String
  table : Option String
  /-- The column list of an `INSERT`. -/
  columns : Option (List String)
  valueRows : List ValueRow
  /-- The columns that an `UPDATE` sets. -/
  setColumns : List String
  /-- A `WHERE` stands outside parentheses. -/
  hasWhere : Bool
  /-- The star of a `SELECT *`. -/
  star : Option Span
  /-- Where a `WHERE` clause goes: before `ORDER BY`, `LIMIT` or `RETURNING` outside parentheses,
  else after the last token. -/
  whereAnchor : Nat
  /-- The byte after the statement. -/
  stop : Nat
  deriving DecidableEq, Repr

/-! ### Tokens and their depth -/

/-- A token with the number of parentheses it stands in. A parenthesis stands outside the pair it
belongs to. -/
structure DeepToken where
  token : Token
  depth : Nat
  deriving DecidableEq, Repr

namespace DeepToken

/-- The tokens of a stream with their depths, where `depth` parentheses are open before them. -/
def ofTokens (depth : Nat) : List Token → List DeepToken
  | [] => []
  | t :: ts =>
    match t.kind with
    | .openParen => ⟨t, depth⟩ :: ofTokens (depth + 1) ts
    | .closeParen => ⟨t, depth - 1⟩ :: ofTokens (depth - 1) ts
    | _ => ⟨t, depth⟩ :: ofTokens depth ts

/-- The token stands outside parentheses. -/
def isTop (t : DeepToken) : Bool := t.depth == 0

/-- The token is the word `w` outside parentheses. -/
def isTopWord (w : String) (t : DeepToken) : Bool := t.isTop && t.token.isWord w

/-- The token ends a statement. -/
def endsStatement (t : DeepToken) : Bool := t.isTop && t.token.kind == .semicolon

end DeepToken

/-! ### The parts of a statement -/

namespace Statement

/-- The tokens of the first statement. -/
def tokens (ts : List DeepToken) : List DeepToken := ts.takeWhile (!·.endsStatement)

/-- The byte of the semicolon that ends the first statement, if one does. -/
def semicolon? (ts : List DeepToken) : Option Nat :=
  (ts.dropWhile (!·.endsStatement)).head?.map (·.token.start)

/-- The kind that the leading keyword stands for. -/
def Kind.ofKeyword (keyword : Option String) : Kind :=
  match keyword with
  | none => .other
  | some word =>
    let is (w : String) : Bool := Text.sameWord word.toList w.toList
    if is "select" then .select
    else if is "insert" || is "replace" then .insert
    else if is "update" then .update
    else if is "delete" then .delete
    else .other

/-- A clause that follows `WHERE` begins at `t`, where `next` is the token after it: `ORDER BY`,
`LIMIT` or `RETURNING`. A word before `=` is a column. -/
def opensTail (t : Token) (next : Option Token) : Bool :=
  if t.isWord "order" then next.any (·.isWord "by")
  else (t.isWord "limit" || t.isWord "returning") && next.all (·.kind != .equals)

/-- The byte at which the clauses that follow `WHERE` begin. -/
def tail? : List DeepToken → Option Nat
  | [] => none
  | t :: ts =>
    if t.isTop && opensTail t.token (ts.head?.map (·.token)) then some t.token.start else tail? ts

/-- Where a `WHERE` clause goes. -/
def anchor (ts : List DeepToken) : Nat :=
  (tail? ts).getD ((ts.getLast?.map (·.token.stop)).getD 0)

/-- The rows at the beginning of a token stream: lists joined by commas. -/
def rowsFrom (lists : List ParenList) : List DeepToken → List ValueRow
  | [] => []
  | t :: ts =>
    match t.token.kind with
    | .openParen =>
      match lists.find? (·.opening.start == t.token.start) with
      | none => []
      | some list =>
        ⟨list.entries, list.span⟩ ::
          rowsFrom lists (ts.dropWhile (·.token.start ≤ list.closing.start))
    | .comma => rowsFrom lists ts
    | _ => []
  termination_by ts => ts.length
  decreasing_by
  · exact Nat.lt_succ_of_le (List.dropWhile_sublist _).length_le
  · exact Nat.lt_succ_self _

/-- The tokens after the first that `p` holds of. -/
def after (p : DeepToken → Bool) (ts : List DeepToken) : List DeepToken :=
  (ts.dropWhile (!p ·)).drop 1

/-- The rows of the `VALUES` clause. -/
def rows (lists : List ParenList) (ts : List DeepToken) : List ValueRow :=
  rowsFrom lists (after (fun t => t.isTopWord "values" || t.isTopWord "value") ts)

/-- The words before `=` outside parentheses, up to the word `WHERE` or `FROM`. -/
def targets : List DeepToken → List String
  | t :: u :: ts =>
    if t.token.isWord "where" || t.token.isWord "from" then []
    else if t.isTop && t.token.kind == .word && u.token.kind == .equals then
      String.ofList t.token.text :: targets (u :: ts)
    else targets (u :: ts)
  | _ => []

/-- The columns that are set. -/
def assigned (ts : List DeepToken) : List String := targets (after (·.isTopWord "set") ts)

end Statement

/-! ### Reading a statement -/

/-- The tokens of the first statement, with their depths. -/
def SqlText.statementTokens (t : SqlText) : List DeepToken :=
  Statement.tokens (DeepToken.ofTokens 0 t.tokens)

/-- The byte after the first statement: its semicolon, or the end of the text. -/
def SqlText.statementStop (t : SqlText) : Nat :=
  (Statement.semicolon? (DeepToken.ofTokens 0 t.tokens)).getD t.width

/-- The parenthesised lists of the first statement. -/
def SqlText.parenLists (t : SqlText) : List ParenList :=
  ParenList.ofTokens (t.statementTokens.map (·.token))

/-- The characters of the first statement, comments blanked out. -/
def SqlText.statementHead (t : SqlText) : List Char := Text.takeBytes t.statementStop t.masked

/-- The first statement of a text, which can be read unless it is torn. -/
def SqlText.statement (t : SqlText) : Statement :=
  let head := t.statementHead
  let ts := t.statementTokens
  let keyword := Head.leadingWord? head
  let base : Statement :=
    { kind := .ofKeyword keyword
      keyword
      table := none
      columns := none
      valueRows := []
      setColumns := []
      hasWhere := ts.any (·.isTopWord "where")
      star := none
      whereAnchor := Statement.anchor ts
      stop := t.statementStop }
  match base.kind with
  | .insert =>
    let read := Head.insert? head
    { base with
      table := read.map (·.1)
      columns := read.bind (·.2)
      valueRows := Statement.rows t.parenLists ts }
  | .update =>
    { base with
      table := Head.update? head
      setColumns := Statement.assigned ts }
  | .delete => { base with table := Head.delete? head }
  | .select => { base with star := (Head.star? head).map fun pos => ⟨pos, pos + 1⟩ }
  | .other => base

/-- Reading the first statement breaks off. Only the head of a `DELETE` can be torn. -/
def SqlText.isTorn (t : SqlText) : Bool :=
  t.statement.kind == .delete && Head.isTorn t.statementHead

end QueryGuard
