import QueryGuard.Text.CharClass
import QueryGuard.Finding
import QueryGuard.Sql.SqlText

/-!
Placeholders stand in bare SQL: `?` is positional and `:name` is named. A doubled mark is an
operator and not a placeholder: the `?` in `??` or `:?`, and the second `:` in `::name`. Main
definitions: the placeholders of a text, and the protocol they ask the caller to follow.
-/

namespace QueryGuard

/-- How a placeholder is written. -/
inductive Placeholder.Style where
  /-- `?` -/
  | positional
  /-- `:name` -/
  | named (name : String)
  deriving DecidableEq, Repr

/-- A placeholder of a text. -/
structure Placeholder where
  style : Placeholder.Style
  /-- Its place among the placeholders of the text, counted from one. -/
  ordinal : Nat
  /-- The byte of its `?` or `:`. -/
  offset : Nat
  deriving DecidableEq, Repr

namespace Placeholder

/-! ### Where a placeholder starts -/

/-- A character that may begin a name. -/
def beginsName (c : Char) : Bool := Text.isAlphabetic c || c == '_'

/-- A character that may stand in a name. -/
def continuesName (c : Char) : Bool := Text.isAlphanumeric c || c == '_'

/-- The placeholder that starts at `c`, where `before` is the character in front of it in the same
bare stretch and `cs` is what follows it there. -/
def at? (before : Option Char) (c : Char) (cs : List Char) : Option Style :=
  if c = '?' ∧ before ≠ some '?' ∧ before ≠ some ':' then some .positional
  else if c = ':' ∧ before ≠ some ':' ∧ cs.head?.any beginsName then
    some (.named (String.ofList (cs.takeWhile continuesName)))
  else none

/-- The placeholders of a bare stretch, each with the byte it starts at. -/
def inStretch (pos : Nat) (before : Option Char) : List Char → List (Style × Nat)
  | [] => []
  | c :: cs =>
    let later := inStretch (pos + c.utf8Size) (some c) cs
    match at? before c cs with
    | some style => (style, pos) :: later
    | none => later

end Placeholder

/-- The placeholders of a text, in order. -/
def SqlText.placeholders (t : SqlText) : List Placeholder :=
  (t.bareSegments.flatMap fun s => Placeholder.inStretch s.start none s.text).mapIdx
    fun i p => { style := p.1, ordinal := i + 1, offset := p.2 }

namespace Placeholder

/-- The name, of a named placeholder. -/
def name? (p : Placeholder) : Option String :=
  match p.style with
  | .positional => none
  | .named name => some name

/-- The placeholder is written `:name`. -/
def isNamed (p : Placeholder) : Bool := p.name?.isSome

/-- The placeholder as it is written. -/
def text (p : Placeholder) : String :=
  match p.style with
  | .positional => "?"
  | .named name => ":" ++ name

/-- The bytes that the placeholder covers. -/
def span (p : Placeholder) : Span := ⟨p.offset, p.offset + Text.width p.text.toList⟩

/-! ### The protocol of a list of placeholders -/

/-- Which protocol a list of placeholders asks for. -/
inductive Protocol where
  | none
  | positional
  | named
  | mixed
  deriving DecidableEq, Repr

/-- How many of the placeholders are positional and how many are named. -/
def counts (ps : List Placeholder) : Nat × Nat :=
  (ps.countP (!·.isNamed), ps.countP (·.isNamed))

/-- The protocol that the placeholders ask for. -/
def protocol (ps : List Placeholder) : Protocol :=
  match counts ps with
  | (0, 0) => .none
  | (_, 0) => .positional
  | (0, _) => .named
  | _ => .mixed

/-- The finding on placeholders of both styles. -/
def mixedFinding? (ps : List Placeholder) : Option Finding :=
  if protocol ps = .mixed then
    let (positional, named) := counts ps
    let sample := ((ps.find? (·.isNamed)).map text).getD ""
    some (.ofCode .mixedPlaceholders
      (s!"Mixed placeholder styles: {positional} positional (?) and {named} named (e.g. {sample})." ++
        " Use a single style per statement"))
  else none

end Placeholder

end QueryGuard
