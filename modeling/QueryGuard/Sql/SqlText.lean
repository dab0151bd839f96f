import QueryGuard.Sql.Segment

/-!
A SQL text together with the dialect it is read in.
-/

namespace QueryGuard

/-- A SQL text and its dialect. -/
structure SqlText where
  dialect : Dialect
  chars : List Char
  deriving DecidableEq, Repr

namespace SqlText

/-- The text of a string. -/
def ofString (dialect : Dialect) (sql : String) : SqlText := ⟨dialect, sql.toList⟩

/-- The segments of the text. -/
def segments (t : SqlText) : List Segment := t.dialect.segments t.chars

/-- The segments that are bare SQL. -/
def bareSegments (t : SqlText) : List Segment := t.segments.filter (·.kind = .bare)

/-- The number of bytes of the text. -/
def width (t : SqlText) : Nat := Text.width t.chars

/-- The part of the text between two bytes. -/
def slice (t : SqlText) (start stop : Nat) : List Char := Text.slice start stop t.chars

/-- The text with a blank for every byte of a comment, so that positions stay what they are. -/
def masked (t : SqlText) : List Char :=
  t.segments.flatMap fun s =>
    match s.kind with
    | .comment => List.replicate (Text.width s.text) ' '
    | _ => s.text

end SqlText

end QueryGuard
