/-!
Powers of two and of ten, and the integers that fit into words of 64 bits.
-/

namespace QueryGuard

/-- The power `2 ^ n`. -/
def twoPow (n : Nat) : Nat := Nat.pow 2 n

/-- The power `10 ^ n`. -/
def tenPow (n : Nat) : Nat := Nat.pow 10 n

/-- The greatest natural that fits into 64 bits. -/
def maxWord : Nat := twoPow 64 - 1

/-- The integer fits into 64 bits with a sign. -/
def isInt64 (n : Int) : Bool := -twoPow 63 ≤ n && n < twoPow 63

end QueryGuard
