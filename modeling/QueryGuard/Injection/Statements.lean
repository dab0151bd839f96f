import QueryGuard.Injection.Pattern

/-!
Further statements inside a string: one behind a semicolon, one joined by `UNION`, and comments that
would cut off what follows the string.
-/

namespace QueryGuard.Injection

open Text (Reader)

/-! ### A statement behind a semicolon -/

/-- The words that begin a statement. -/
def statementWords : List String :=
  ["select", "insert", "update", "delete", "drop", "create", "alter", "truncate", "grant", "revoke",
   "exec", "execute", "merge", "replace", "shutdown", "declare"]

/-- A word that begins a statement comes after blanks. -/
def opensStatement (cs : List Char) : Bool :=
  statementWords.any fun w => begins (word w) (cs.dropWhile Text.isBlank)

/-- **A semicolon is followed by a statement.** -/
def isStacked : List Char → Bool
  | [] => false
  | c :: cs => (c == ';' && opensStatement cs) || isStacked cs

/-! ### A joined `SELECT` -/

/-- `UNION SELECT` or `UNION ALL SELECT`. -/
def unionSelect : Reader Unit := do
  letters "union"
  gap
  Reader.orElse
    (do
      letters "all"
      gap
      word "select")
    (word "select")

/-- A joined `SELECT` begins somewhere in the text, where `before` is the character in front. -/
def joinsFrom (before : Option Char) : List Char → Bool
  | [] => false
  | c :: cs =>
    (before.all (!Text.isWordPart ·) && begins unionSelect (c :: cs)) || joinsFrom (some c) cs

/-- **A `SELECT` is joined.** -/
def isUnionSelect (cs : List Char) : Bool := joinsFrom none cs

/-! ### Comments -/

/-- A comment opens somewhere in the text. -/
def opensComment : List Char → Bool
  | c :: d :: cs => (c == '-' && d == '-') || (c == '/' && d == '*') || opensComment (d :: cs)
  | _ => false

end QueryGuard.Injection
