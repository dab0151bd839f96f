import QueryGuard.Json.Printer

/-!
Values that are bound to placeholders.
-/

namespace QueryGuard

/-- A bound value. -/
inductive Value where
  | null
  | bool (b : Bool)
  /-- An integer of 64 bits with sign. -/
  | int (n : Int)
  | float (x : Binary64)
  | string (s : String)
  deriving DecidableEq, Repr

namespace Value

/-- The value that a JSON value stands for. Arrays and objects are bound as their JSON text. -/
def ofJson : Json → Value
  | .null => .null
  | .bool b => .bool b
  | .int n => if isInt64 n then .int n else .float (.ofInt n)
  | .float x => .float x
  | .string s => .string s
  | v => .string v.text

/-- The value as JSON. -/
def toJson : Value → Json
  | .null => .null
  | .bool b => .bool b
  | .int n => .int n
  | .float x => .float x
  | .string s => .string s

/-- The name of the type of the value. -/
def typeName : Value → String
  | .null => "null"
  | .bool _ => "boolean"
  | .int _ => "integer"
  | .float _ => "float"
  | .string _ => "string"

/-- How a number is shown: always written out, and without a fraction if it is whole. -/
def layout : NumberLayout :=
  { writtenOut := fun _ => true, pointZero := false, plusSign := false, tie := .up }

/-- The value as it is shown. -/
def text : Value → String
  | .null => "NULL"
  | .bool b => if b then "true" else "false"
  | .int n => toString n
  | .float x => layout.text x
  | .string s => "'" ++ s ++ "'"

/-- The string that the value is. -/
def string? : Value → Option String
  | .string s => some s
  | _ => none

end Value

end QueryGuard
