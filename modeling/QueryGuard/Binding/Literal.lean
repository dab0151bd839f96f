import QueryGuard.Binding.Value
import QueryGuard.Text.Letter
import QueryGuard.Text.Reader

/-!
The value that a literal of a SQL text denotes. Main statement: a text written between quotes, with
the quotes in it doubled, is read back.
-/

namespace QueryGuard

namespace Literal

open Text (Reader)
open Text.Reader

/-! ### Quoted text -/

/-- The text with every two marks `q` in a row made one. -/
def undouble (q : Char) : List Char → List Char
  | [] => []
  | [c] => [c]
  | c :: d :: cs => if c = q ∧ d = q then q :: undouble q cs else c :: undouble q (d :: cs)

/-- The text with every mark `q` made two. -/
def double (q : Char) : List Char → List Char
  | [] => []
  | c :: cs => if c = q then q :: q :: double q cs else c :: double q cs

/-- The text without a mark `q` at its end. -/
def dropClosing (q : Char) (cs : List Char) : List Char :=
  if cs.getLast? = some q then cs.dropLast else cs

/-- The text between the marks `q`, of which the opening one is gone. -/
def body (q : Char) (cs : List Char) : List Char := undouble q (dropClosing q cs)

theorem undouble_double (q : Char) (cs : List Char) : undouble q (double q cs) = cs := by
  induction cs with
  | nil => rfl
  | cons c cs ih =>
    by_cases h : c = q
    · subst h
      simp [double, undouble, ih]
    · cases cs with
      | nil => simp [double, undouble, h]
      | cons d ds =>
        by_cases hd : d = q
        · subst hd
          simp only [double, if_true, undouble, h, false_and, if_false] at ih ⊢
          exact congrArg _ ih
        · simp only [double, if_neg hd, undouble, h, false_and, if_false] at ih ⊢
          exact congrArg _ ih

/-! ### Numbers -/

/-- An integer as it is written in base ten, with a sign or without. -/
def integer : Reader Int := do
  let sign ← optional (satisfy fun c => c == '+' || c == '-')
  let digits ← takeWhile1 Char.isDigit
  let n : Int := Text.decimalValue digits
  return if sign = some '-' then -n else n

/-- The power of ten of a number, zero where none is written. -/
def power : Reader Int := do
  match ← optional (satisfy fun c => c == 'e' || c == 'E') with
  | some _ => integer
  | none => return 0

/-- A word that stands for an infinity or for NaN, in any letter case. -/
def numberWord? (cs : List Char) : Option Binary64 :=
  let is (w : String) : Bool := Text.sameWord cs w.toList
  if is "inf" || is "infinity" then some (.infinite false)
  else if is "nan" then some .nan
  else none

/-- A word in place of a number, with a sign or without. -/
def special : Reader Binary64 := do
  let sign ← optional (satisfy fun c => c == '+' || c == '-')
  let x ← ofOption (numberWord? (← takeWhile Char.isAlpha))
  return if sign = some '-' then x.neg else x

/-- A number with a sign, a point and a power of ten, or without. -/
def decimal : Reader Binary64 := do
  let sign ← optional (satisfy fun c => c == '+' || c == '-')
  let whole ← takeWhile Char.isDigit
  let point ← optional (char '.')
  let fraction ← if point.isSome then takeWhile Char.isDigit else (return [])
  require (!(whole ++ fraction).isEmpty)
  let power ← power
  return .ofDecimal (sign = some '-') (Text.decimalValue (whole ++ fraction))
    (power - fraction.length)

/-- The number that a text writes: an integer of 64 bits, else a number of the format binary64. -/
def number? (cs : List Char) : Option Value :=
  match (whole integer cs).filter isInt64 with
  | some n => some (.int n)
  | none => (whole (orElse special decimal) cs).map .float

end Literal

/-- The value that a literal denotes. What is neither quoted nor a number stands for itself. -/
def Value.ofLiteral (cs : List Char) : Value :=
  match cs with
  | q :: rest =>
    if q = '\x27' ∨ q = '"' then .string (String.ofList (Literal.body q rest))
    else (Literal.number? cs).getD (.string (String.ofList cs))
  | [] => .string ""

end QueryGuard
