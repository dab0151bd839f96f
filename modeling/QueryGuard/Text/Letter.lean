import QueryGuard.Text.CharClass

/-!
Comparing words without regard to the case of the ASCII letters, taking the blanks off the ends of a
text, and the order of texts.
-/

namespace QueryGuard.Text

/-- The text with its ASCII capitals made small. -/
def lower (cs : List Char) : List Char := cs.map Char.toLower

/-- The two texts differ at most in the case of ASCII letters. -/
def sameWord (as bs : List Char) : Bool := lower as == lower bs

/-- `word` begins `cs`, up to the case of ASCII letters. -/
def beginsWithWord (word cs : List Char) : Bool := sameWord word (cs.take word.length)

/-- The text without the blanks at its beginning. -/
def trimLeft (cs : List Char) : List Char := cs.dropWhile isBlank

/-- The text without the blanks at its end. -/
def trimRight (cs : List Char) : List Char := (cs.reverse.dropWhile isBlank).reverse

/-- The text without the blanks at its ends. -/
def trim (cs : List Char) : List Char := trimRight (trimLeft cs)

/-- The first text is the second or stands before it, in the order of the code points. -/
def notAfter : List Char → List Char → Bool
  | [], _ => true
  | _ :: _, [] => false
  | a :: as, b :: bs => if a = b then notAfter as bs else a.toNat < b.toNat

theorem sameWord_iff {as bs : List Char} : sameWord as bs = true ↔ lower as = lower bs := by
  simp [sameWord]

end QueryGuard.Text
