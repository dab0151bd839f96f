import QueryGuard.Text.Alphabetic
import QueryGuard.Text.Numeric
import QueryGuard.Text.Recent
import QueryGuard.Text.WordMark
import QueryGuard.Text.Hidden

/-!
The classes of characters that the lexical rules, the identifiers and the patterns ask for. Every
class covers all of Unicode; the letters and digits of ASCII are decided without a table.
-/

namespace QueryGuard.Text

/-- The code point of `c` lies in one of the ranges. -/
def inRanges (ranges : List (Nat × Nat)) (c : Char) : Bool :=
  ranges.any fun r => r.1 ≤ c.toNat && c.toNat ≤ r.2

/-- A letter, in the sense of the `Alphabetic` property. -/
def isAlphabetic (c : Char) : Bool :=
  if c.toNat < 0x80 then c.isAlpha else inRanges alphabeticRanges c

/-- A decimal digit, a letter number or another number. -/
def isNumeric (c : Char) : Bool :=
  if c.toNat < 0x80 then c.isDigit else inRanges numericRanges c

/-- A letter or a number. -/
def isAlphanumeric (c : Char) : Bool := isAlphabetic c || isNumeric c

/-- A character that joined the character set last. -/
def isRecent (c : Char) : Bool := inRanges recentRanges c

/-- A word character of the patterns: a letter, a mark, a decimal digit, a connector such as the
underscore, or a join control. The patterns do not know the most recent ones. -/
def isWordPart (c : Char) : Bool :=
  if c.toNat < 0x80 then c.isAlphanum || c == '_'
  else (inRanges alphabeticRanges c || inRanges wordMarkRanges c) && !isRecent c

/-- White space, in the sense of the `White_Space` property. -/
def isBlank (c : Char) : Bool :=
  let n := c.toNat
  (0x09 ≤ n && n ≤ 0x0D) || n == 0x20 || n == 0x85 || n == 0xA0 || n == 0x1680 ||
    (0x2000 ≤ n && n ≤ 0x200A) || n == 0x2028 || n == 0x2029 || n == 0x202F || n == 0x205F ||
    n == 0x3000

/-- A character that is shown by its code: it is not seen, or it joins the one before it. -/
def isHidden (c : Char) : Bool :=
  if c.toNat < 0x80 then c.toNat < 0x20 || c.toNat == 0x7F else inRanges hiddenRanges c

/-! ### The classes agree with those of ASCII -/

theorem toNat_lt_of_isUpper {c : Char} (h : c.isUpper = true) : c.toNat < 0x80 := by
  have hle := UInt32.le_iff_toNat_le.1 (of_decide_eq_true h : _ ∧ c.val ≤ 'Z'.val).2
  exact Nat.lt_of_le_of_lt hle (by decide)

theorem toNat_lt_of_isLower {c : Char} (h : c.isLower = true) : c.toNat < 0x80 := by
  have h : (decide (c.val ≥ 'a'.val) && decide (c.val ≤ 'z'.val)) = true := h
  have hle := UInt32.le_iff_toNat_le.1 (of_decide_eq_true (Bool.and_eq_true_iff.1 h).2)
  exact Nat.lt_of_le_of_lt hle (by decide)

theorem isAlphabetic_of_isAlpha {c : Char} (h : c.isAlpha = true) : isAlphabetic c = true := by
  have hlt : c.toNat < 0x80 := by
    have h : (c.isUpper || c.isLower) = true := h
    exact (Bool.or_eq_true_iff.1 h).elim toNat_lt_of_isUpper toNat_lt_of_isLower
  simp [isAlphabetic, hlt, h]

theorem toNat_lt_of_isDigit {c : Char} (h : c.isDigit = true) : c.toNat < 0x80 := by
  have h : (decide (c.val ≥ '0'.val) && decide (c.val ≤ '9'.val)) = true := h
  have hle := UInt32.le_iff_toNat_le.1 (of_decide_eq_true (Bool.and_eq_true_iff.1 h).2)
  exact Nat.lt_of_le_of_lt hle (by decide)

theorem isAlphanumeric_of_isAlphabetic {c : Char} (h : isAlphabetic c = true) :
    isAlphanumeric c = true := by
  simp [isAlphanumeric, h]

end QueryGuard.Text
