import QueryGuard.Json.Basic
import QueryGuard.Text.Reader

/-!
Reading JSON text. Values nest at most 127 deep. Of two fields with the same name the first gives
the place and the last the value. The digits of a number that is not an integer of 64 bits are read
into a significand as far as it stays within 64 bits; the significand and the power of ten are
rounded to binary64 one after the other.
-/

namespace QueryGuard.Json

open Text (Reader)
open Text.Reader

/-! ### Numbers -/

/-- The significand `n`, with the digits appended as long as it stays within 64 bits, and how many
digits were appended. -/
def absorb (n : Nat) : List Char → Nat × Nat
  | [] => (n, 0)
  | d :: ds =>
    let n' := 10 * n + (d.toNat - '0'.toNat)
    if n' ≤ maxWord then
      let (m, k) := absorb n' ds
      (m, k + 1)
    else (n, 0)

/-- The greatest power of ten that is a number of the format. -/
def maxPower : Nat := 308

/-- `x` times a power of ten, unless that is too great for the format. A power below the range of
the format is taken in steps. -/
def scale (x : Binary64) (e : Int) : Option Binary64 :=
  if e.natAbs ≤ maxPower then
    if 0 ≤ e then
      let y := x.mul (.powerOfTen e.natAbs)
      if y.isInfinite then none else some y
    else some (x.div (.powerOfTen e.natAbs))
  else if x.isZero then some x
  else if 0 ≤ e then none
  else scale (x.div (.powerOfTen maxPower)) (e + maxPower)
  termination_by (-e).toNat
  decreasing_by simp only [maxPower] at *; omega

/-- The parts of a number as it is written. -/
structure NumberText where
  negative : Bool
  whole : List Char
  fraction : List Char
  exponent : Option Int

/-- The number that the text stands for. -/
def NumberText.value? (t : NumberText) : Option Json :=
  let n := Text.decimalValue t.whole
  let sign (x : Binary64) : Json := .float (if t.negative then x.neg else x)
  if t.fraction.isEmpty ∧ t.exponent.isNone ∧ n ≤ maxWord then
    if t.negative then
      if n = 0 ∨ twoPow 63 < n then some (sign (.ofNat n)) else some (.int (-n))
    else some (.int n)
  else
    let (m, k) := absorb 0 t.whole
    let (m, k') := absorb m t.fraction
    let e : Int := (t.whole.length - k : Nat) - (k' : Int) + t.exponent.getD 0
    (scale (.ofNat m) e).map sign

/-- The digits of a whole part: a zero alone, or digits of which the first is not zero. -/
def wholePart : Reader (List Char) := do
  let digits ← takeWhile1 Char.isDigit
  require (digits.length = 1 || digits.head? != some '0')
  return digits

/-- The digits after a point. -/
def fractionPart : Reader (List Char) := do
  match ← peek? with
  | some '.' =>
    char '.'
    takeWhile1 Char.isDigit
  | _ => return []

/-- The power of ten after `e`. -/
def exponentPart : Reader (Option Int) := do
  let mark ← peek?
  if mark = some 'e' ∨ mark = some 'E' then
    let _ ← satisfy fun _ => true
    let sign ← optional (satisfy fun c => c == '+' || c == '-')
    let digits ← takeWhile1 Char.isDigit
    let n : Int := Text.decimalValue digits
    return some (if sign = some '-' then -n else n)
  else return none

/-- A number. -/
def number : Reader Json := do
  let minus ← optional (char '-')
  let whole ← wholePart
  let fraction ← fractionPart
  let exponent ← exponentPart
  ofOption (NumberText.value? ⟨minus.isSome, whole, fraction, exponent⟩)

/-! ### Strings -/

/-- What a letter after a backslash stands for. -/
def shortEscape? (c : Char) : Option Char :=
  match c with
  | '"' => some '"'
  | '\\' => some '\\'
  | '/' => some '/'
  | 'b' => some '\x08'
  | 'f' => some '\x0c'
  | 'n' => some '\n'
  | 'r' => some '\r'
  | 't' => some '\t'
  | _ => none

/-- The character whose code follows: four hexadecimal digits, or two surrogates that make a pair. -/
def codeEscape : Reader Char := do
  let high ← hex 4
  if 0xD800 ≤ high ∧ high < 0xDC00 then
    exactly ['\\', 'u']
    let low ← hex 4
    require (0xDC00 ≤ low && low < 0xE000)
    ofOption (Text.charOfCode? (0x10000 + (high - 0xD800) * 0x400 + (low - 0xDC00)))
  else ofOption (Text.charOfCode? high)

/-- A character of a string. A control has to be escaped. -/
def stringChar : Reader Char := do
  let c ← satisfy fun c => c != '"' && 0x20 ≤ c.toNat
  if c = '\\' then
    let e ← satisfy fun _ => true
    if e = 'u' then codeEscape else ofOption (shortEscape? e)
  else return c

/-- A string between quotes. -/
def stringText : Reader String := do
  char '"'
  let cs ← many stringChar
  char '"'
  return String.ofList cs

/-! ### Values -/

/-- Blanks. -/
def blanks : Reader Unit := do
  let _ ← takeWhile fun c => c == ' ' || c == '\t' || c == '\n' || c == '\r'

/-- The fields with one more: the value of a field that is there already is replaced. -/
def put (fields : List (String × Json)) (field : String × Json) : List (String × Json) :=
  if fields.any (·.1 == field.1) then fields.map fun f => if f.1 == field.1 then field else f
  else fields ++ [field]

/-- Values between brackets, with commas between them. -/
def bracketed {α : Type} (opening closing : Char) (p : Reader α) : Reader (List α) := do
  char opening
  blanks
  let values ← optional (separated (do let a ← p; blanks; return a) (do char ','; blanks))
  char closing
  return values.getD []

/-- A value that nests at most `depth` deep. -/
def value (depth : Nat) : Reader Json := do
  match ← peek? with
  | some 'n' => exactly ['n', 'u', 'l', 'l']; return .null
  | some 't' => exactly ['t', 'r', 'u', 'e']; return .bool true
  | some 'f' => exactly ['f', 'a', 'l', 's', 'e']; return .bool false
  | some '"' => return .string (← stringText)
  | some '[' =>
    match depth with
    | 0 => fail
    | depth + 1 => return .array (← bracketed '[' ']' (value depth))
  | some '\x7b' =>
    match depth with
    | 0 => fail
    | depth + 1 =>
      let fields ← bracketed '\x7b' '\x7d' do
        let name ← stringText
        blanks
        char ':'
        blanks
        return (name, ← value depth)
      return .object (fields.foldl put [])
  | _ => number

/-- The greatest depth of a value. -/
def maxDepth : Nat := 127

/-- The value that a text is, if it is one. -/
def parse? (s : String) : Option Json :=
  whole (do blanks; let v ← value maxDepth; blanks; return v) s.toList

end QueryGuard.Json
