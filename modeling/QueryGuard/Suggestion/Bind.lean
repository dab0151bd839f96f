import QueryGuard.Query
import QueryGuard.Sql.Statement
import QueryGuard.Text.Quoted

/-!
The binds of a code example: for each placeholder an expression for its value, with a note where
the value is missing.
-/

namespace QueryGuard

/-- An expression that is bound, with a note behind it. -/
structure Bind where
  expr : String
  note : Option String
  deriving DecidableEq, Repr

namespace Bind

/-! ### Expressions -/

/-- How a number is written in code: with a fraction, or with a power of ten when it is very small
or very great. -/
def layout : NumberLayout :=
  { writtenOut := fun e => -4 ≤ e && e < 16, pointZero := true, plusSign := false, tie := .up }

/-- The expression for a value. -/
def literal : Value → String
  | .null => "None::<String>"
  | .bool b => if b then "true" else "false"
  | .int n => toString n
  | .float x => layout.text x
  | .string s => Text.quoted s

/-- The name of a variable for a column or a parameter. -/
def identifier (name : String) : String :=
  let cs := name.toList.map fun c => if Text.isAlphanumeric c then c.toLower else '_'
  String.ofList (if cs.head?.all (·.isDigit) then '_' :: cs else cs)

/-- The bind of a value. -/
def value (v : Value) : Bind := ⟨literal v, none⟩

/-- The bind of a variable. -/
def ofVariable (name : String) (note : Option String) : Bind := ⟨identifier name, note⟩

/-- The value that is bound is missing. -/
def isMissing (b : Bind) : Bool := b.note.isSome

/-- The line of code for the bind. -/
def line (b : Bind) : String :=
  let note := match b.note with
    | some note => " // " ++ note
    | none => ""
  "    .bind(" ++ b.expr ++ ")" ++ note ++ "\n"

/-! ### Binds of placeholders -/

/-- The bind of the positional placeholder number `i`. -/
def ofIndex (bindings : Option Bindings) (i : Nat) : Bind :=
  match bindings.bind (·.getPositional? i) with
  | some v => value v
  | none => ofVariable s!"param_{i + 1}" (some "missing")

/-- The bind of a named placeholder. -/
def ofName (bindings : Option Bindings) (name : String) : Bind :=
  match bindings.bind (·.getNamed? name) with
  | some v => value v
  | none => ofVariable name (some ("missing :" ++ name))

/-- The binds of placeholders, of which the next positional one has number `next`. -/
def ofPlaceholdersFrom (bindings : Option Bindings) (next : Nat) : List Placeholder → List Bind
  | [] => []
  | p :: ps =>
    match p.style with
    | .positional => ofIndex bindings next :: ofPlaceholdersFrom bindings (next + 1) ps
    | .named name => ofName bindings name :: ofPlaceholdersFrom bindings next ps

/-- One bind for each placeholder. -/
def ofPlaceholders (bindings : Option Bindings) (ps : List Placeholder) : List Bind :=
  ofPlaceholdersFrom bindings 0 ps

theorem length_ofPlaceholdersFrom (bindings : Option Bindings) (next : Nat)
    (ps : List Placeholder) : (ofPlaceholdersFrom bindings next ps).length = ps.length := by
  induction ps generalizing next with
  | nil => rfl
  | cons p ps ih =>
    unfold ofPlaceholdersFrom
    split <;> simp [ih]

@[simp] theorem length_ofPlaceholders (bindings : Option Bindings) (ps : List Placeholder) :
    (ofPlaceholders bindings ps).length = ps.length := length_ofPlaceholdersFrom bindings 0 ps

end Bind

end QueryGuard
