import QueryGuard.Json.Basic

/-!
JSON text, compact and indented. Strings escape the quote, the backslash and the controls; numbers
are shortest decimals, written out while the power of ten of the first digit lies between -5 and
15.
-/

namespace QueryGuard.Json

/-- How numbers that are not integers are written: with a fraction or a power of ten, and with a
sign on the power. -/
def layout : NumberLayout :=
  { writtenOut := fun e => -5 ≤ e && e ≤ 15, pointZero := true, plusSign := true, tie := .even }

/-- A number as it is written. What is no finite number is written as `null`. -/
def numberText (x : Binary64) : String := if x.isFinite then layout.text x else "null"

/-! ### Strings -/

/-- The hexadecimal digit of a value below sixteen. -/
def hexDigit (n : Nat) : Char := (Nat.toDigits 16 n).headD '0'

/-- A character of a string as it is written. -/
def escapeChar (c : Char) : List Char :=
  if c = '"' then ['\\', '"']
  else if c = '\\' then ['\\', '\\']
  else if c = '\x08' then ['\\', 'b']
  else if c = '\x0c' then ['\\', 'f']
  else if c = '\n' then ['\\', 'n']
  else if c = '\r' then ['\\', 'r']
  else if c = '\t' then ['\\', 't']
  else if c.toNat < 0x20 then ['\\', 'u', '0', '0', hexDigit (c.toNat / 16), hexDigit (c.toNat % 16)]
  else [c]

/-- A string between quotes. -/
def quote (s : String) : String := String.ofList ('"' :: s.toList.flatMap escapeChar ++ ['"'])

/-! ### Compact text -/

mutual

/-- The value without blanks. -/
def text : Json → String
  | null => "null"
  | bool b => if b then "true" else "false"
  | int n => toString n
  | float x => numberText x
  | string s => quote s
  | array items => "[" ++ ",".intercalate (texts items) ++ "]"
  | object fields => "\x7b" ++ ",".intercalate (fieldTexts fields) ++ "\x7d"

/-- The items of an array. -/
def texts : List Json → List String
  | [] => []
  | v :: vs => v.text :: texts vs

/-- The fields of an object. -/
def fieldTexts : List (String × Json) → List String
  | [] => []
  | (name, v) :: fs => (quote name ++ ":" ++ v.text) :: fieldTexts fs

end

/-! ### Indented text -/

/-- The blanks in front of a line. -/
def indent (depth : Nat) : String := String.ofList (List.replicate (2 * depth) ' ')

/-- Lines between brackets, one level deeper than these. -/
def block (depth : Nat) (opening closing : String) : List String → String
  | [] => opening ++ closing
  | lines =>
    let inner := "\n" ++ indent (depth + 1)
    opening ++ inner ++ ("," ++ inner).intercalate lines ++ "\n" ++ indent depth ++ closing

mutual

/-- The value on lines of its own, where `depth` values contain it. -/
def prettyAt (depth : Nat) : Json → String
  | array items => block depth "[" "]" (prettyItems (depth + 1) items)
  | object fields => block depth "\x7b" "\x7d" (prettyFields (depth + 1) fields)
  | null => "null"
  | bool b => if b then "true" else "false"
  | int n => toString n
  | float x => numberText x
  | string s => quote s

/-- The items of an array. -/
def prettyItems (depth : Nat) : List Json → List String
  | [] => []
  | v :: vs => v.prettyAt depth :: prettyItems depth vs

/-- The fields of an object. -/
def prettyFields (depth : Nat) : List (String × Json) → List String
  | [] => []
  | (name, v) :: fs => (quote name ++ ": " ++ v.prettyAt depth) :: prettyFields depth fs

end

/-- The value, indented by two blanks a level. -/
def pretty (v : Json) : String := v.prettyAt 0

end QueryGuard.Json
