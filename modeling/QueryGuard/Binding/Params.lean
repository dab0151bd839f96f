import QueryGuard.Binding.Value
import QueryGuard.Text.Reader
import QueryGuard.Error

/-!
Parameters as the caller supplies them: values under keys, in order. A key is a position or a name.
-/

namespace QueryGuard

/-- The key of a parameter. -/
inductive ParamKey where
  /-- A position, counted from zero. -/
  | index (i : Nat)
  /-- A name, with or without colons in front. -/
  | name (n : String)
  deriving DecidableEq, Repr

namespace ParamKey

/-- The key as it is shown: positions count from one. -/
def text : ParamKey → String
  | index i => "#" ++ toString (i + 1)
  | name n => ":" ++ n

/-- The position that the key is. -/
def index? : ParamKey → Option Nat
  | index i => some i
  | name _ => none

/-- The name that the key is. -/
def name? : ParamKey → Option String
  | index _ => none
  | name n => some n

/-- The key that a field name of an object is: a position when it consists of digits and fits into
64 bits. -/
def ofField (field : String) : ParamKey :=
  let cs := field.toList
  let n := Text.decimalValue cs
  if cs ≠ [] ∧ cs.all (·.isDigit) ∧ n ≤ maxWord then .index n else .name field

end ParamKey

/-- Parameters in the order in which they are supplied. -/
structure Params where
  entries : List (ParamKey × Value)
  deriving DecidableEq, Repr

namespace Params

/-- No parameters. -/
def empty : Params := ⟨[]⟩

/-- Parameters under the positions from zero on. -/
def positional (values : List Value) : Params :=
  ⟨values.mapIdx fun i v => (.index i, v)⟩

/-- Parameters under names. -/
def named (pairs : List (String × Value)) : Params :=
  ⟨pairs.map fun (n, v) => (.name n, v)⟩

/-- The parameters with one more after them. -/
def push (p : Params) (key : ParamKey) (value : Value) : Params := ⟨p.entries ++ [(key, value)]⟩

/-- The number of parameters. -/
def size (p : Params) : Nat := p.entries.length

/-- The parameters that a JSON value stands for: an array has positions, an object has the keys of
its fields, and `null` has none. -/
def ofJson : Json → Except InputError Params
  | .null => .ok empty
  | .array items => .ok (positional (items.map Value.ofJson))
  | .object fields => .ok ⟨fields.map fun (field, v) => (.ofField field, .ofJson v)⟩
  | v => .error (.paramsShape v)

end Params

end QueryGuard
