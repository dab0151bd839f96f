/-!
Readers: functions that take a value off the beginning of a text, or fail. A reader that is tried
and fails takes nothing.
-/

namespace QueryGuard.Text

/-- A reader of values of type `α`. -/
def Reader (α : Type) : Type := List Char → Option (α × List Char)

namespace Reader

variable {α β : Type}

/-- The reader that takes nothing. -/
def pure (a : α) : Reader α := fun cs => some (a, cs)

/-- One reader, then one that may depend on what was read. -/
def bind (p : Reader α) (f : α → Reader β) : Reader β := fun cs =>
  match p cs with
  | none => none
  | some (a, rest) => f a rest

instance : Monad Reader where
  pure := Reader.pure
  bind := Reader.bind

/-- The reader that fails. -/
def fail : Reader α := fun _ => none

/-- The first of two readers that does not fail. -/
def orElse (p q : Reader α) : Reader α := fun cs => (p cs).or (q cs)

/-- The value that is there, or failure. -/
def ofOption : Option α → Reader α
  | none => fail
  | some a => pure a

/-- Fails unless the condition holds. -/
def require (condition : Bool) : Reader Unit := if condition then pure () else fail

/-- The next character, which is not taken. -/
def peek? : Reader (Option Char) := fun cs => some (cs.head?, cs)

/-- One character that `p` holds of. -/
def satisfy (p : Char → Bool) : Reader Char
  | [] => none
  | c :: cs => if p c then some (c, cs) else none

/-- One given character. -/
def char (c : Char) : Reader Unit
  | [] => none
  | d :: cs => if d = c then some ((), cs) else none

/-- A given text. -/
def exactly (s : List Char) : Reader Unit := fun cs =>
  if s.isPrefixOf cs then some ((), cs.drop s.length) else none

/-- The longest stretch of characters that `p` holds of. -/
def takeWhile (p : Char → Bool) : Reader (List Char) := fun cs =>
  some (cs.takeWhile p, cs.dropWhile p)

/-- The longest stretch of characters that `p` holds of, which is not empty. -/
def takeWhile1 (p : Char → Bool) : Reader (List Char) := fun cs =>
  match cs.takeWhile p with
  | [] => none
  | taken => some (taken, cs.dropWhile p)

/-- The reader, or nothing where it fails. -/
def optional (p : Reader α) : Reader (Option α) := fun cs =>
  match p cs with
  | none => some (none, cs)
  | some (a, rest) => some (some a, rest)

/-- The reader, up to where it fails, and at most once for each character of `bound`; `acc` holds
what was read, newest first. -/
def repeated (p : Reader α) (acc : List α) (bound : List Char) : Reader (List α) := fun cs =>
  match bound, p cs with
  | _ :: bound, some (a, rest) => repeated p (a :: acc) bound rest
  | _, _ => some (acc.reverse, cs)

/-- The reader as often as it does not fail. A reader that takes something each time cannot be
repeated more often than there are characters. -/
def many (p : Reader α) : Reader (List α) := fun cs => repeated p [] cs cs

/-- At least one `p`, with a `separator` between two of them. -/
def separated (p : Reader α) (separator : Reader Unit) : Reader (List α) := do
  let first ← p
  let others ← many (do separator; p)
  return first :: others

/-- The end of the text. -/
def atEnd : Reader Unit
  | [] => some ((), [])
  | _ :: _ => none

/-- The value of a text that is read to its end. -/
def whole (p : Reader α) (cs : List Char) : Option α :=
  match p cs with
  | some (a, []) => some a
  | _ => none

end Reader

/-- The value of a hexadecimal digit. -/
def hexDigit? (c : Char) : Option Nat :=
  if '0' ≤ c ∧ c ≤ '9' then some (c.toNat - '0'.toNat)
  else if 'a' ≤ c ∧ c ≤ 'f' then some (c.toNat - 'a'.toNat + 10)
  else if 'A' ≤ c ∧ c ≤ 'F' then some (c.toNat - 'A'.toNat + 10)
  else none

/-- The number that digits write in base ten. -/
def decimalValue (ds : List Char) : Nat := ds.foldl (fun n d => 10 * n + (d.toNat - '0'.toNat)) 0

/-- The character with a code point, if it is one. -/
def charOfCode? (n : Nat) : Option Char := if h : n.isValidChar then some (Char.ofNatAux n h) else none

/-- A number of exactly `n` hexadecimal digits. -/
def Reader.hex (n : Nat) : Reader Nat := fun cs =>
  let digits := cs.take n
  if digits.length = n then
    (digits.mapM hexDigit?).map fun ds => (ds.foldl (fun m d => 16 * m + d) 0, cs.drop n)
  else none

end QueryGuard.Text
