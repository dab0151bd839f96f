import QueryGuard.Number.Binary64

/-!
The shortest decimal of a binary64 number: of the decimals that read back as the number, those with
the fewest digits, and of these the nearest to the number.
-/

namespace QueryGuard

/-- A positive decimal in scientific form: its digits, of which the first is not zero, and the
power of ten of the first. -/
structure Scientific where
  digits : List Char
  exponent : Int
  deriving DecidableEq, Repr

/-- Which of two equally near decimals is taken. -/
inductive Tie where
  /-- The greater one. -/
  | up
  /-- The one whose last digit is even. -/
  | even
  deriving DecidableEq, Repr

namespace Binary64

/-- The decimals that round to a number lie between two bounds. All are in units of `1 / den`, and
the bounds belong to the interval when the significand is even. -/
structure Interval where
  low : Nat
  value : Nat
  high : Nat
  den : Nat
  closed : Bool

/-- The interval of the magnitude `m * 2 ^ e`. Below a power of two the neighbour is at half the
distance. -/
def interval (m : Nat) (e : Int) : Interval :=
  let low := if m = twoPow (precision - 1) ∧ minExponent < e then 1 else 2
  let up := twoPow e.toNat
  { low := (4 * m - low) * up
    value := 4 * m * up
    high := (4 * m + 2) * up
    den := 4 * twoPow (-e).toNat
    closed := m % 2 = 0 }

namespace Interval

/-- `n / 10 ^ places` lies in the interval; with negative `places` the decimal is a multiple of a
power of ten. -/
def contains (i : Interval) (n : Nat) (places : Int) : Bool :=
  let x := n * i.den * tenPow (-places).toNat
  let scale := tenPow places.toNat
  if i.closed then i.low * scale ≤ x && x ≤ i.high * scale
  else i.low * scale < x && x < i.high * scale

/-- The value in units of `10 ^ -places`, rounded down, and twice the rest over the unit. -/
def floor (i : Interval) (places : Int) : Nat × Nat × Nat :=
  let num := i.value * tenPow places.toNat
  let den := i.den * tenPow (-places).toNat
  (num / den, 2 * (num % den), den)

/-- The nearest multiple of `10 ^ -places` in the interval, if there is one. The two neighbours of
the value decide. -/
def nearest? (i : Interval) (tie : Tie) (places : Int) : Option Nat :=
  let (n, twice, unit) := i.floor places
  match i.contains n places && 0 < n, i.contains (n + 1) places with
  | false, false => none
  | true, false => some n
  | false, true => some (n + 1)
  | true, true =>
    if twice < unit then some n
    else if unit < twice then some (n + 1)
    else
      match tie with
      | .up => some (n + 1)
      | .even => some (n + n % 2)

end Interval

/-- The greatest `k` with `10 ^ k ≤ num / den`, where `num` and `den` are not zero. -/
def log10Ratio (num den : Nat) : Int :=
  let k : Int := (digitCount num : Int) - digitCount den
  if den * tenPow k.toNat ≤ num * tenPow (-k).toNat then k else k - 1

/-- The digits without the zeros at their end. -/
def dropZeros (ds : List Char) : List Char := (ds.reverse.dropWhile (· == '0')).reverse

/-- The decimal with `n` units of `10 ^ -places`. -/
def scientific (n : Nat) (places : Int) : Scientific :=
  let ds := Nat.toDigits 10 n
  ⟨dropZeros ds, (ds.length : Int) - 1 - places⟩

/-- **The shortest decimal of the magnitude `m * 2 ^ e`.** Seventeen digits always suffice. -/
def shortest (tie : Tie) (m : Nat) (e : Int) : Scientific :=
  let i := interval m e
  let top := log10Ratio i.value i.den
  match (List.range 17).findSome? fun (k : Nat) =>
      let places : Int := (k : Int) - top
      (i.nearest? tie places).map (scientific · places) with
  | some s => s
  | none =>
    let places : Int := 16 - top
    scientific (i.floor places).1 places

end Binary64

end QueryGuard
