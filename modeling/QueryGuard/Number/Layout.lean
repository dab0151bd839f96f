import QueryGuard.Number.Shortest

/-!
How a binary64 number is written: which powers of ten are written out, and how those that are not
are marked.
-/

namespace QueryGuard

/-- The decisions of a way of writing numbers. -/
structure NumberLayout where
  /-- The power of ten of the first digit is written out when it lies in this range. -/
  writtenOut : Int → Bool
  /-- A whole number that is written out has `.0`. -/
  pointZero : Bool
  /-- A power of ten that is not negative has a sign. -/
  plusSign : Bool
  /-- Which of two equally near decimals is taken. -/
  tie : Tie

namespace NumberLayout

/-- `n` zeros. -/
def zeros (n : Nat) : List Char := List.replicate n '0'

/-- The decimal without a power of ten. -/
def plain (l : NumberLayout) (s : Scientific) : List Char :=
  if s.exponent < 0 then '0' :: '.' :: zeros ((-s.exponent).toNat - 1) ++ s.digits
  else
    let whole := s.exponent.toNat + 1
    if s.digits.length ≤ whole then
      s.digits ++ zeros (whole - s.digits.length) ++ if l.pointZero then ['.', '0'] else []
    else s.digits.take whole ++ '.' :: s.digits.drop whole

/-- The decimal as one digit, further digits and a power of ten. -/
def powered (l : NumberLayout) (s : Scientific) : List Char :=
  let mantissa := if s.digits.length ≤ 1 then s.digits else s.digits.take 1 ++ '.' :: s.digits.drop 1
  let sign := if s.exponent < 0 then ['-'] else if l.plusSign then ['+'] else []
  mantissa ++ 'e' :: sign ++ Nat.toDigits 10 s.exponent.natAbs

/-- The decimal as the layout has it. -/
def decimal (l : NumberLayout) (s : Scientific) : List Char :=
  if l.writtenOut s.exponent then l.plain s else l.powered s

/-- The number as the layout has it. -/
def text (l : NumberLayout) (x : Binary64) : String :=
  let sign := if x.isNegative then ['-'] else []
  String.ofList <| sign ++
    match x with
    | .infinite _ => ['i', 'n', 'f']
    | .nan => ['N', 'a', 'N']
    | .finite _ m e => l.decimal (if m = 0 then ⟨['0'], 0⟩ else Binary64.shortest l.tie m e)

end NumberLayout

end QueryGuard
