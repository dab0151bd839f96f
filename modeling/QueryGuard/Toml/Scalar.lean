import QueryGuard.Binding.Value
import QueryGuard.Config.Setting
import QueryGuard.Text.Reader

/-!
Booleans, numbers, dates and times of TOML. A configuration has no use for other than Booleans, but
all have to be well formed.
-/

namespace QueryGuard.Toml

open Text (Reader)
open Text.Reader

/-! ### Numbers -/

/-- Digits, each but the first with an underscore in front of it or not. -/
def digits (p : Char → Bool) : Reader (List Char) := do
  let first ← satisfy p
  let others ← many (do let _ ← optional (char '_'); satisfy p)
  return first :: others

/-- A plus or a minus, or none. -/
def sign : Reader (Option Char) := optional (satisfy fun c => c == '+' || c == '-')

/-- Decimal digits without a zero in front. -/
def wholeDigits : Reader (List Char) := do
  let ds ← digits Char.isDigit
  require (ds.length = 1 || ds.head? != some '0')
  return ds

/-- A decimal integer of 64 bits. -/
def decimalInteger : Reader Unit := do
  let s ← sign
  let n : Int := Text.decimalValue (← wholeDigits)
  require (isInt64 (if s = some '-' then -n else n))

/-- The base that a letter behind a zero stands for. -/
def base? (c : Char) : Option Nat :=
  if c = 'x' then some 16 else if c = 'o' then some 8 else if c = 'b' then some 2 else none

/-- A hexadecimal, octal or binary integer of 64 bits. -/
def basedInteger : Reader Unit := do
  char '0'
  let letter ← satisfy fun _ => true
  let base ← ofOption (base? letter)
  let ds ← digits fun c => (Text.hexDigit? c).any (· < base)
  require (isInt64 (ds.foldl (fun n d => base * n + (Text.hexDigit? d).getD 0) 0 : Nat))

/-- The digits after a point. -/
def fraction : Reader (List Char) := do
  char '.'
  digits Char.isDigit

/-- The power of ten after `e`. -/
def power : Reader Int := do
  let _ ← satisfy fun c => c == 'e' || c == 'E'
  let s ← sign
  let n : Int := Text.decimalValue (← digits Char.isDigit)
  return if s = some '-' then -n else n

/-- A number with a fraction, a power of ten or both, which is not too great for binary64. -/
def decimalFloat : Reader Unit := do
  let s ← sign
  let whole ← wholeDigits
  let frac ← optional fraction
  let e ← optional power
  require (frac.isSome || e.isSome)
  let ds := whole ++ frac.getD []
  let x := Binary64.ofDecimal false (Text.decimalValue ds) (e.getD 0 - (frac.getD []).length)
  require (!x.isInfinite || s = some '-')

/-- Infinity, or no number. -/
def specialFloat : Reader Unit := do
  let _ ← sign
  orElse (exactly ['i', 'n', 'f']) (exactly ['n', 'a', 'n'])

/-! ### Dates and times -/

/-- Exactly `n` digits, with a value in a range. -/
def fixedDigits (n low high : Nat) : Reader Nat := fun cs =>
  let ds := cs.take n
  let v := Text.decimalValue ds
  if ds.length = n ∧ ds.all (·.isDigit) ∧ low ≤ v ∧ v ≤ high then some (v, cs.drop n) else none

/-- The number of days of a month. -/
def daysIn (year month : Nat) : Nat :=
  if month = 2 then if year % 4 = 0 ∧ (year % 100 ≠ 0 ∨ year % 400 = 0) then 29 else 28
  else if month = 4 ∨ month = 6 ∨ month = 9 ∨ month = 11 then 30
  else 31

/-- A date. -/
def date : Reader Unit := do
  let year ← fixedDigits 4 0 9999
  char '-'
  let month ← fixedDigits 2 1 12
  char '-'
  let _ ← fixedDigits 2 1 (daysIn year month)

/-- A time of day, in which a second may be inserted. -/
def time : Reader Unit := do
  let _ ← fixedDigits 2 0 23
  char ':'
  let _ ← fixedDigits 2 0 59
  char ':'
  let _ ← fixedDigits 2 0 60
  let _ ← optional (do char '.'; takeWhile1 Char.isDigit)

/-- The distance of a time from the universal one. -/
def offset : Reader Unit :=
  orElse (do let _ ← satisfy fun c => c == 'Z' || c == 'z')
    (do
      let _ ← satisfy fun c => c == '+' || c == '-'
      let _ ← fixedDigits 2 0 23
      char ':'
      let _ ← fixedDigits 2 0 59)

/-- A time of day behind a date. -/
def dayTime : Reader Unit := do
  time
  let _ ← optional offset

/-- A date, with or without a time. -/
def dateTime : Reader Unit := do
  date
  let _ ← optional (do let _ ← satisfy fun c => c == 'T' || c == 't'; dayTime)

/-! ### Scalars -/

/-- A character of a scalar. -/
def isScalarChar (c : Char) : Bool :=
  c.isAlphanum || c == '+' || c == '-' || c == '_' || c == '.' || c == ':'

/-- A date or a time: a table with a part that no setting has. -/
def moment : Setting := .table [("moment", .other)]

/-- The setting that a word is: a Boolean, or another well-formed scalar. -/
def scalarOf? (cs : List Char) : Option Setting :=
  if cs = ['t', 'r', 'u', 'e'] then some (.flag true)
  else if cs = ['f', 'a', 'l', 's', 'e'] then some (.flag false)
  else
    let is (p : Reader Unit) : Bool := (whole p cs).isSome
    if is decimalInteger || is basedInteger || is decimalFloat || is specialFloat then some .other
    else if is dateTime || is time then some moment
    else none

/-- A scalar. A blank may stand between a date and a time. -/
def scalar : Reader Setting := do
  let cs ← takeWhile1 isScalarChar
  let v ← ofOption (scalarOf? cs)
  if (whole date cs).isSome then
    let _ ← optional do
      char ' '
      let rest ← takeWhile1 isScalarChar
      ofOption (whole dayTime rest)
  return v

end QueryGuard.Toml
