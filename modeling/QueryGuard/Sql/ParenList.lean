import QueryGuard.Sql.Token

/-!
The parenthesised lists of a token stream. Parentheses match as by a stack that ignores a closing
one with nothing to close; the tokens directly between two that match are cut into items at the
commas directly between them.
-/

namespace QueryGuard

/-- What an item of a list is to the one who binds values. -/
inductive Entry where
  | placeholder
  /-- A quoted string or a number. -/
  | literal
  | expression
  deriving DecidableEq, Repr

/-- The name of the entry. -/
def Entry.name : Entry → String
  | .placeholder => "placeholder"
  | .literal => "literal"
  | .expression => "expression"

/-- A stretch of a list between commas: its tokens outside inner parentheses, and whether there
are inner parentheses. -/
structure ListItem where
  tokens : List Token
  nested : Bool
  deriving DecidableEq, Repr

namespace ListItem

/-- Nothing at all stands in the item. -/
def isVoid (i : ListItem) : Bool := i.tokens.isEmpty && !i.nested

/-- The bytes from the first token of the item to its last. -/
def span? (i : ListItem) : Option Span :=
  match i.tokens.head?, i.tokens.getLast? with
  | some first, some last => some ⟨first.start, last.stop⟩
  | _, _ => none

/-- The token is a sign in front of a number. -/
def isSign (t : Token) : Bool := t.kind == .symbol && (t.text == ['-'] || t.text == ['+'])

/-- What the item is: one placeholder, one string or number with or without a sign, or anything
else. -/
def entry (i : ListItem) : Entry :=
  if i.nested then .expression
  else
    match i.tokens with
    | [t] =>
      if t.kind = .placeholder then .placeholder
      else if t.kind = .string ∨ t.kind = .number then .literal
      else .expression
    | [s, t] => if isSign s ∧ t.kind = .number then .literal else .expression
    | _ => .expression

end ListItem

/-- A parenthesised list. -/
structure ParenList where
  opening : Token
  closing : Token
  items : List ListItem
  deriving DecidableEq, Repr

namespace ParenList

/-- What the items of the list are. -/
def entries (l : ParenList) : List Entry := l.items.map ListItem.entry

/-- The bytes of the list, parentheses included. -/
def span (l : ParenList) : Span := ⟨l.opening.start, l.closing.stop⟩

/-! ### Matching -/

/-- A list that is still open. Items and the tokens of the item at hand stand newest first. -/
structure Unclosed where
  opening : Token
  items : List ListItem
  tokens : List Token
  nested : Bool

namespace Unclosed

/-- A list with nothing in it yet. -/
def fresh (opening : Token) : Unclosed := ⟨opening, [], [], false⟩

/-- The item at hand. -/
def item (u : Unclosed) : ListItem := ⟨u.tokens.reverse, u.nested⟩

/-- A token directly in the list. -/
def push (u : Unclosed) (t : Token) : Unclosed := { u with tokens := t :: u.tokens }

/-- An inner list opens. -/
def nest (u : Unclosed) : Unclosed := { u with nested := true }

/-- A comma directly in the list. -/
def comma (u : Unclosed) : Unclosed := ⟨u.opening, u.item :: u.items, [], false⟩

/-- The list, closed. Between parentheses with nothing in them there is no item. -/
def close (u : Unclosed) (closing : Token) : ParenList :=
  let items := if u.item.isVoid && u.items.isEmpty then [] else u.item :: u.items
  ⟨u.opening, closing, items.reverse⟩

end Unclosed

/-- The lists that are open, innermost first, and those that are closed, newest first. -/
structure Matching where
  unclosed : List Unclosed
  closed : List ParenList

namespace Matching

/-- Nothing is open or closed. -/
def empty : Matching := ⟨[], []⟩

/-- What `f` makes of the innermost open list. -/
def inner (m : Matching) (f : Unclosed → Unclosed) : Matching :=
  match m.unclosed with
  | [] => m
  | u :: us => { m with unclosed := f u :: us }

/-- The next token of the stream. -/
def step (m : Matching) (t : Token) : Matching :=
  match t.kind with
  | .openParen =>
    let m := m.inner Unclosed.nest
    { m with unclosed := .fresh t :: m.unclosed }
  | .closeParen =>
    match m.unclosed with
    | [] => m
    | u :: us => ⟨us, u.close t :: m.closed⟩
  | .comma => m.inner Unclosed.comma
  | _ => m.inner (Unclosed.push · t)

end Matching

/-- The closed lists of a token stream, in the order in which they close. -/
def ofTokens (ts : List Token) : List ParenList :=
  (ts.foldl Matching.step Matching.empty).closed.reverse

end ParenList

end QueryGuard
