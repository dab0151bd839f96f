/-!
The flavours of SQL that differ in what a quote means, in how a quoted text escapes, and in what
opens a comment.
-/

namespace QueryGuard

/-- The SQL flavour that a text is read in. -/
inductive Dialect where
  /-- A double quote opens an identifier, and a quote inside quotes is doubled. -/
  | standard
  /-- A double quote opens a string, a backslash escapes inside strings, and `#` opens a comment. -/
  | mysql
  deriving DecidableEq, Repr, Inhabited

/-- The three marks that open, and close, a quoted text. -/
inductive Quote where
  | single
  | double
  | back
  deriving DecidableEq, Repr

namespace Quote

/-- The character that the mark is written as. -/
def char : Quote → Char
  | single => '\x27'
  | double => '\x22'
  | back => '\x60'

/-- The mark that `c` is, if any. -/
def ofChar? (c : Char) : Option Quote :=
  if c = single.char then some single
  else if c = double.char then some double
  else if c = back.char then some back
  else none

@[simp] theorem ofChar?_char (q : Quote) : ofChar? q.char = some q := by cases q <;> rfl

theorem ofChar?_eq_some {c : Char} {q : Quote} : ofChar? c = some q ↔ c = q.char := by
  constructor
  · intro h
    unfold ofChar? at h
    split at h
    · next hc => cases h; exact hc
    · split at h
      · next hc => cases h; exact hc
      · split at h
        · next hc => cases h; exact hc
        · cases h
  · rintro rfl
    exact ofChar?_char q

end Quote

/-- The name that a configuration gives the dialect. -/
def Dialect.name : Dialect → String
  | .standard => "standard"
  | .mysql => "mysql"

/-- The backslash escapes the next character between marks of this kind. -/
def Dialect.escapes (d : Dialect) (q : Quote) : Bool := d == .mysql && q != .back

end QueryGuard
