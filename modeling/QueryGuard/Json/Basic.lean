import QueryGuard.Number.Layout

/-!
JSON values. The fields of an object keep their order, and integers that fit into 64 bits are kept
apart from other numbers.
-/

namespace QueryGuard

/-- A JSON value. -/
inductive Json where
  | null
  | bool (b : Bool)
  | int (n : Int)
  | float (x : Binary64)
  | string (s : String)
  | array (items : List Json)
  | object (fields : List (String × Json))
  deriving Repr

namespace Json

/-- The field of an object with a given name. -/
def field? (name : String) : Json → Option Json
  | object fields => (fields.find? (·.1 == name)).map (·.2)
  | _ => none

/-- The string that the value is. -/
def string? : Json → Option String
  | string s => some s
  | _ => none

/-- The items of the array that the value is. -/
def items? : Json → Option (List Json)
  | array items => some items
  | _ => none

/-- The Boolean that the value is. -/
def bool? : Json → Option Bool
  | bool b => some b
  | _ => none

/-- A natural number. -/
def ofNat (n : Nat) : Json := .int n

end Json

end QueryGuard
