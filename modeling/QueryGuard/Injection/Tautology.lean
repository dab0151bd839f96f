import QueryGuard.Injection.Pattern
import QueryGuard.Text.Letter

/-!
Tautologies: a quote, the word `OR`, and then a condition that always holds, such as `'1'='1` or
`TRUE`. A string may hold several such conditions; they are looked for from left to right, and the
search goes on behind each.
-/

namespace QueryGuard.Injection

open Text (Reader)
open Text.Reader

/-- How the two sides of a comparison are compared. -/
inductive Comparator where
  | equal
  | different
  | like
  deriving DecidableEq, Repr

/-- A condition behind `OR`. -/
inductive Condition where
  /-- `TRUE` or `NOT FALSE` -/
  | constant
  | comparison (left : List Char) (op : Comparator) (right : List Char)
  deriving DecidableEq, Repr

/-- The condition always holds: the sides are the same text up to letter case, or have to differ
and do. -/
def Condition.holds : Condition → Bool
  | constant => true
  | comparison left .different right => !Text.sameWord left right
  | comparison left _ right => Text.sameWord left right

/-! ### Reading a condition -/

/-- A comparison operator. -/
def comparator : Reader Comparator := fun cs =>
  match cs with
  | '=' :: rest => some (.equal, rest)
  | '<' :: '>' :: rest => some (.different, rest)
  | '!' :: '=' :: rest => some (.different, rest)
  | _ => (afterWord? ['l', 'i', 'k', 'e'] cs).map fun rest => (.like, rest)

/-- The right side: a word, or a text of word characters behind a quote, which may be closed. -/
def rightSide : Reader (List Char) :=
  orElse
    (do
      let _ ← satisfy isQuote
      let right ← takeWhile Text.isWordPart
      let _ ← optional (satisfy isQuote)
      return right)
    (takeWhile1 Text.isWordPart)

/-- The operator and the right side. -/
def comparison : Reader (Comparator × List Char) := do
  blanks
  let op ← comparator
  blanks
  let right ← rightSide
  return (op, right)

/-- A comparison whose left side is a text of word characters between quotes. -/
def quotedComparison : Reader Condition := do
  let _ ← satisfy isQuote
  let left ← takeWhile Text.isWordPart
  let _ ← satisfy isQuote
  let (op, right) ← comparison
  return .comparison left op right

/-- A comparison whose left side is the word characters `taken`, newest first, and as many of the
following as leave a comparison behind them. -/
def bareComparison (taken : List Char) : Reader Condition
  | [] => none
  | c :: cs =>
    if Text.isWordPart c then
      match bareComparison (c :: taken) cs with
      | some found => some found
      | none =>
        match comparison cs with
        | some ((op, right), rest) => some (.comparison (c :: taken).reverse op right, rest)
        | none => none
    else none

/-- `TRUE` or `NOT FALSE`. -/
def constant : Reader Condition :=
  orElse
    (do
      word "true"
      return .constant)
    (do
      letters "not"
      gap
      word "false"
      return .constant)

/-- Blanks, in which one given mark may stand. -/
def blanksAround (c : Char) : Reader Unit := do
  blanks
  let _ ← optional (char c)
  blanks

/-- What follows the quote: `OR` and a condition, each with blanks and a parenthesis or without. -/
def alternative : Reader Condition := do
  blanksAround ')'
  word "or"
  blanksAround '('
  orElse (orElse quotedComparison (bareComparison [])) constant

/-! ### Looking for conditions -/

namespace TakesFront

theorem comparator : TakesFront comparator := by
  intro cs a rest h
  unfold Injection.comparator at h
  split at h
  · cases h; exact List.suffix_cons _ _
  · cases h; exact (List.suffix_cons _ _).trans (List.suffix_cons _ _)
  · cases h; exact (List.suffix_cons _ _).trans (List.suffix_cons _ _)
  · obtain ⟨r, hr, e⟩ := Option.map_eq_some_iff.1 h
    cases e
    exact afterWord? hr

theorem rightSide : TakesFront rightSide :=
  orElse
    (bind (satisfy _) fun _ => bind (takeWhile _) fun _ => bind (optional (satisfy _)) fun _ =>
      pure _)
    (takeWhile1 _)

theorem comparison : TakesFront comparison :=
  bind blanks fun _ => bind comparator fun _ => bind blanks fun _ => bind rightSide fun _ => pure _

theorem quotedComparison : TakesFront quotedComparison :=
  bind (satisfy _) fun _ => bind (takeWhile _) fun _ => bind (satisfy _) fun _ =>
    bind comparison fun _ => pure _

theorem bareComparison (taken : List Char) : TakesFront (bareComparison taken) := by
  intro cs a rest h
  fun_induction Injection.bareComparison taken cs with
  | case1 => cases h
  | case2 _ _ _ _ _ e ih => cases h; exact (ih e).trans (List.suffix_cons _ _)
  | case3 _ _ _ _ _ _ _ _ e => cases h; exact (comparison _ _ _ e).trans (List.suffix_cons _ _)
  | case4 => cases h
  | case5 => cases h

theorem constant : TakesFront constant :=
  orElse (bind (word _) fun _ => pure _)
    (bind (letters _) fun _ => bind gap fun _ => bind (word _) fun _ => pure _)

theorem blanksAround (c : Char) : TakesFront (blanksAround c) :=
  bind blanks fun _ => bind (optional (char _)) fun _ => blanks

theorem alternative : TakesFront alternative :=
  bind (blanksAround _) fun _ => bind (word _) fun _ => bind (blanksAround _) fun _ =>
    orElse (orElse quotedComparison (bareComparison _)) constant

end TakesFront

/-- The conditions behind a quote and `OR`, from left to right. -/
def conditions : List Char → List Condition
  | [] => []
  | c :: cs =>
    if isQuote c then
      match _h : alternative cs with
      | some (found, rest) => found :: conditions rest
      | none => conditions cs
    else conditions cs
  termination_by cs => cs.length
  decreasing_by
  · exact Nat.lt_succ_of_le (TakesFront.alternative _ _ _ _h).length_le
  · exact Nat.lt_succ_self _
  · exact Nat.lt_succ_self _

/-- **Some condition behind a quote and `OR` always holds.** -/
def isTautology (cs : List Char) : Bool := (conditions cs).any Condition.holds

end QueryGuard.Injection
