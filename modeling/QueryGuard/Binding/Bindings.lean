import QueryGuard.Binding.Params
import QueryGuard.Finding

/-!
Bindings: parameters that follow one protocol. Either every key is a position, no position occurs
twice and the values stand in the order of their positions; or every key is a name, no name occurs
twice and the values stand in the order in which they are supplied. Colons in front of a name do
not count.
-/

namespace QueryGuard

/-- Parameters that follow one protocol. -/
inductive Bindings where
  | positional (values : List Value)
  /-- The names are distinct and begin with no colon. -/
  | named (pairs : List (String × Value))
  deriving DecidableEq, Repr

namespace Bindings

/-- The number of values. -/
def size : Bindings → Nat
  | positional values => values.length
  | named pairs => pairs.length

/-- The names, in the order in which they are supplied. -/
def names : Bindings → List String
  | positional _ => []
  | named pairs => pairs.map (·.1)

/-- The names, in the order of their characters. -/
def sortedNames (b : Bindings) : List String := b.names.mergeSort fun x y => Text.notAfter x.toList y.toList

/-- The value of a name. -/
def getNamed? (b : Bindings) (name : String) : Option Value :=
  match b with
  | positional _ => none
  | named pairs => (pairs.find? (·.1 == name)).map (·.2)

/-- The value at a position. -/
def getPositional? (b : Bindings) (i : Nat) : Option Value :=
  match b with
  | positional values => values[i]?
  | named _ => none

end Bindings

/-! ### Malformed parameters -/

/-- Why parameters follow no protocol. -/
inductive Malformation where
  /-- Positions and names; the first of each. -/
  | mixedKeys (index : Nat) (name : String)
  | repeatedName (name : String)
  | repeatedIndex (index : Nat)
  deriving DecidableEq, Repr

namespace Malformation

/-- The text of the reason. -/
def message : Malformation → String
  | mixedKeys index name =>
    s!"Malformed bindings: parameters mix sequential and named keys (#{index + 1} and :{name})." ++
      " Use either a list or a map"
  | repeatedName name => s!"Malformed bindings: parameter :{name} is supplied more than once"
  | repeatedIndex index =>
    s!"Malformed bindings: parameter #{index + 1} is supplied more than once"

/-- The finding on parameters that follow no protocol. -/
def finding (m : Malformation) : Finding := .ofCode .malformedBindings m.message

end Malformation

/-! ### Resolution -/

/-- The first element that occurs before itself or in `seen`. -/
def firstRepeated? (seen : List String) : List String → Option String
  | [] => none
  | x :: xs => if seen.contains x then some x else firstRepeated? (x :: seen) xs

/-- The first element that is followed by itself. -/
def firstDoubled? : List Nat → Option Nat
  | x :: y :: zs => if x = y then some x else firstDoubled? (y :: zs)
  | _ => none

/-- A name without the colons in front of it. -/
def bareName (name : String) : String := String.ofList (name.toList.dropWhile (· == ':'))

namespace Params

/-- The parameters under positions. -/
def indexed (p : Params) : List (Nat × Value) :=
  p.entries.filterMap fun (key, v) => key.index?.map (·, v)

/-- The parameters under names, without the colons. -/
def withNames (p : Params) : List (String × Value) :=
  p.entries.filterMap fun (key, v) => key.name?.map (bareName ·, v)

/-- The parameters under positions, in the order of these. -/
def inOrder (p : Params) : List (Nat × Value) := p.indexed.mergeSort fun a b => a.1 ≤ b.1

/-- The bindings of parameters that follow one protocol. -/
def resolve (p : Params) : Except Malformation Bindings :=
  match p.indexed, p.withNames with
  | (index, _) :: _, (name, _) :: _ => .error (.mixedKeys index name)
  | _, pairs@(_ :: _) =>
    match firstRepeated? [] (pairs.map (·.1)) with
    | some name => .error (.repeatedName name)
    | none => .ok (.named pairs)
  | _, [] =>
    match firstDoubled? (p.inOrder.map (·.1)) with
    | some index => .error (.repeatedIndex index)
    | none => .ok (.positional (p.inOrder.map (·.2)))

end Params

end QueryGuard
