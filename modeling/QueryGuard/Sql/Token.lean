import QueryGuard.Sql.Placeholder

/-!
Tokens: the words, numbers, quoted texts, placeholders and marks of a SQL text, comments and white
space left out. A bare stretch is cut into lexemes, each of which is white space or one token.
-/

namespace QueryGuard

/-- What a token is. -/
inductive Token.Kind where
  | word
  | number
  /-- A quoted string. -/
  | string
  /-- A quoted identifier. -/
  | identifier
  | placeholder
  | openParen
  | closeParen
  | comma
  | star
  | semicolon
  | equals
  /-- Any other character. -/
  | symbol
  deriving DecidableEq, Repr

/-- A token with the byte it starts at. -/
structure Token where
  kind : Token.Kind
  start : Nat
  text : List Char
  deriving DecidableEq, Repr

namespace Token

/-- The byte right after the token. -/
def stop (t : Token) : Nat := t.start + Text.width t.text

/-- The token is the word `w`, in any letter case. -/
def isWord (t : Token) (w : String) : Bool := t.kind == .word && Text.sameWord t.text w.toList

/-! ### Lexemes of a bare stretch -/

/-- A character that may begin a word. -/
def beginsWord (c : Char) : Bool := Text.isAlphabetic c || c == '_'

/-- A character that may stand in a word. -/
def continuesWord (c : Char) : Bool := Text.isAlphanumeric c || c == '_' || c == '$'

/-- A decimal digit or a point. -/
def isDigitOrPoint (c : Char) : Bool := c.isDigit || c == '.'

/-- A number begins at `c` when `c` is a digit, or a point before a digit. -/
def beginsNumber (c : Char) (cs : List Char) : Bool :=
  c.isDigit || (c == '.' && cs.head?.any (·.isDigit))

/-- How many characters of an exponent `cs` begins with: `e`, a sign or none, and digits, of which
there is at least one. -/
def exponentLength : List Char → Nat
  | [] => 0
  | c :: cs =>
    if c = 'e' ∨ c = 'E' then
      let sign := if cs.head? = some '+' ∨ cs.head? = some '-' then 1 else 0
      match ((cs.drop sign).takeWhile (·.isDigit)).length with
      | 0 => 0
      | digits => 1 + sign + digits
    else 0

/-- How many characters of a number follow its first: digits and points, then an exponent. -/
def numberLength (cs : List Char) : Nat :=
  let mantissa := (cs.takeWhile isDigitOrPoint).length
  mantissa + exponentLength (cs.drop mantissa)

/-- The kind of a mark. -/
def markKind (c : Char) : Kind :=
  if c = '(' then .openParen
  else if c = ')' then .closeParen
  else if c = ',' then .comma
  else if c = '*' then .star
  else if c = ';' then .semicolon
  else if c = '=' then .equals
  else .symbol

/-- The lexeme that `c :: cs` begins with: its kind, or `none` for white space, and how many of its
characters follow `c`. The character in front of `c` in the stretch is `before`. -/
def lexeme (before : Option Char) (c : Char) (cs : List Char) : Option Kind × Nat :=
  match Placeholder.at? before c cs with
  | some .positional => (some .placeholder, 0)
  | some (.named _) => (some .placeholder, (cs.takeWhile Placeholder.continuesName).length)
  | none =>
    if Text.isBlank c then (none, 0)
    else if beginsWord c then (some .word, (cs.takeWhile continuesWord).length)
    else if beginsNumber c cs then (some .number, numberLength cs)
    else (some (markKind c), 0)

/-- The tokens of a bare stretch that starts at byte `pos`. -/
def inStretch (pos : Nat) (before : Option Char) : List Char → List Token
  | [] => []
  | c :: cs =>
    let (kind?, n) := lexeme before c cs
    let text := c :: cs.take n
    let later := inStretch (pos + Text.width text) text.getLast? (cs.drop n)
    match kind? with
    | some kind => ⟨kind, pos, text⟩ :: later
    | none => later
  termination_by cs => cs.length
  decreasing_by simp only [List.length_drop, List.length_cons]; omega

/-! ### Tokens of segments and of texts -/

/-- The kind of the token of a literal that begins with `c`. -/
def literalKind (d : Dialect) (c : Option Char) : Kind :=
  if c = some Quote.single.char ∨ (c = some Quote.double.char ∧ d = .mysql) then .string
  else .identifier

/-- The tokens of a segment. -/
def ofSegment (d : Dialect) (s : Segment) : List Token :=
  match s.kind with
  | .comment => []
  | .literal => [⟨literalKind d s.text.head?, s.start, s.text⟩]
  | .bare => inStretch s.start none s.text

end Token

/-- The tokens of a text, in order. -/
def SqlText.tokens (t : SqlText) : List Token := t.segments.flatMap (Token.ofSegment t.dialect)

end QueryGuard
