import QueryGuard.Number.Power

/-!
Numbers of the format binary64: a sign and a significand times a power of two, an infinity, or no
number at all. Every operation is exact arithmetic on naturals followed by one rounding to the
nearest number of the format, ties to the even significand.
-/

namespace QueryGuard

/-- A number of the format binary64. A finite one stands for `± significand * 2 ^ exponent`. -/
inductive Binary64 where
  | finite (negative : Bool) (significand : Nat) (exponent : Int)
  | infinite (negative : Bool)
  /-- The result of an operation that has none. -/
  | nan
  deriving DecidableEq, Repr

namespace Binary64

/-! ### The format -/

/-- The number of bits of a significand. -/
def precision : Nat := 53

/-- The least exponent. -/
def minExponent : Int := -1074

/-- The greatest exponent. -/
def maxExponent : Int := 971

/-- Zero with a sign. -/
def zero (negative : Bool) : Binary64 := .finite negative 0 minExponent

/-- The sign is minus. -/
def isNegative : Binary64 → Bool
  | .finite negative _ _ => negative
  | .infinite negative => negative
  | .nan => false

/-- The number is neither an infinity nor NaN. -/
def isFinite : Binary64 → Bool
  | .finite .. => true
  | .infinite _ | .nan => false

/-- The number is an infinity. -/
def isInfinite : Binary64 → Bool
  | .infinite _ => true
  | .finite .. | .nan => false

/-- The number is zero, of either sign. -/
def isZero : Binary64 → Bool
  | .finite _ m _ => m == 0
  | .infinite _ | .nan => false

/-- The number with the other sign. -/
def neg : Binary64 → Binary64
  | .finite negative m e => .finite (!negative) m e
  | .infinite negative => .infinite (!negative)
  | .nan => .nan

/-! ### Rounding -/

/-- `num / den`, rounded to the nearest natural, ties to even. -/
def roundDiv (num den : Nat) : Nat :=
  let q := num / den
  let twice := 2 * (num % den)
  if twice < den then q
  else if den < twice then q + 1
  else q + q % 2

/-- The greatest `k` with `2 ^ k ≤ num / den`. -/
def log2Ratio (num den : Nat) : Int :=
  let k : Int := (num.log2 : Int) - den.log2
  if den * twoPow k.toNat ≤ num * twoPow (-k).toNat then k else k - 1

/-- The number of the format that is nearest to `± num / den`. -/
def ofRatio (negative : Bool) (num den : Nat) : Binary64 :=
  if num = 0 then zero negative
  else
    let e := max minExponent (log2Ratio num den + 1 - precision)
    let m := roundDiv (num * twoPow (-e).toNat) (den * twoPow e.toNat)
    let (m, e) := if m = twoPow precision then (twoPow (precision - 1), e + 1) else (m, e)
    if maxExponent < e then .infinite negative else .finite negative m e

/-- The number of the format that is nearest to a natural. -/
def ofNat (n : Nat) : Binary64 := ofRatio false n 1

/-- The number of the format that is nearest to an integer. -/
def ofInt (n : Int) : Binary64 := ofRatio (n < 0) n.natAbs 1

/-- The magnitude of a finite number as a ratio. -/
def ratio (m : Nat) (e : Int) : Nat × Nat := (m * twoPow e.toNat, twoPow (-e).toNat)

/-- The product. -/
def mul : Binary64 → Binary64 → Binary64
  | .finite s m e, .finite s' m' e' =>
    let (a, b) := ratio m e
    let (a', b') := ratio m' e'
    ofRatio (s != s') (a * a') (b * b')
  | .nan, _ | _, .nan => .nan
  | x, y => if x.isZero || y.isZero then .nan else .infinite (x.isNegative != y.isNegative)

/-- The quotient. -/
def div : Binary64 → Binary64 → Binary64
  | .finite s m e, .finite s' m' e' =>
    if m' = 0 then if m = 0 then .nan else .infinite (s != s')
    else
      let (a, b) := ratio m e
      let (a', b') := ratio m' e'
      ofRatio (s != s') (a * b') (b * a')
  | .infinite s, .finite s' _ _ => .infinite (s != s')
  | .finite s _ _, .infinite s' => zero (s != s')
  | _, _ => .nan

/-! ### Decimals -/

/-- The number of decimal digits of a natural; none for zero. -/
def digitCount (n : Nat) : Nat := if n = 0 then 0 else (Nat.toDigits 10 n).length

/-- The number of the format that is nearest to `± digits * 10 ^ exponent`. A power of ten far out
of the range of the format is not computed. -/
def ofDecimal (negative : Bool) (digits : Nat) (exponent : Int) : Binary64 :=
  let top := exponent + digitCount digits
  if digits = 0 ∨ top < -330 then zero negative
  else if 330 < top then .infinite negative
  else ofRatio negative (digits * tenPow exponent.toNat) (tenPow (-exponent).toNat)

/-- The number of the format that is nearest to a power of ten. -/
def powerOfTen (n : Nat) : Binary64 := ofDecimal false 1 n

end Binary64

end QueryGuard
