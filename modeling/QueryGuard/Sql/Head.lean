import QueryGuard.Sql.Token

/-!
The head of a statement, read character by character from a text whose comments are blanked out:
the leading keyword, the table it names, the column list of an `INSERT` and the star of a
`SELECT *`. A reader takes the text and gives what it read and the rest, or nothing. Only a `DELETE`
can be written so that reading its head breaks off.
-/

namespace QueryGuard.Head

/-! ### Blanks and keywords -/

/-- The blanks between the words of a head: space, tab, carriage return and line feed. -/
def isGap (c : Char) : Bool := c == ' ' || c == '\t' || c == '\r' || c == '\n'

/-- The text after the blanks it begins with. -/
def skipGap (cs : List Char) : List Char := cs.dropWhile isGap

/-- The text after the blanks it begins with, of which there is at least one. -/
def gap? (cs : List Char) : Option (List Char) :=
  if cs.head?.any isGap then some (skipGap cs) else none

/-- The text after the keyword `word`, which is not the beginning of a longer word. The letters are
those of ASCII, in any case; where another character passes for one, the head is torn (`isTorn`). -/
def keyword? (word : String) (cs : List Char) : Option (List Char) :=
  let rest := cs.drop word.toList.length
  if Text.beginsWithWord word.toList cs ∧ ¬ rest.head?.any Token.continuesWord then some rest
  else none

/-- The text after the first of the keywords that it begins with. -/
def anyKeyword? (words : List String) (cs : List Char) : Option (List Char) :=
  words.findSome? (keyword? · cs)

theorem length_skipGap_le (cs : List Char) : (skipGap cs).length ≤ cs.length :=
  (List.dropWhile_sublist _).length_le

theorem length_of_gap? {cs rest : List Char} (h : gap? cs = some rest) :
    rest.length < cs.length := by
  cases cs with
  | nil => simp [gap?] at h
  | cons c cs =>
    rw [gap?, List.head?_cons, Option.any_some] at h
    split at h
    · next hc =>
      cases h
      simp only [skipGap, List.dropWhile_cons, hc, if_true, List.length_cons]
      exact Nat.lt_succ_of_le (length_skipGap_le cs)
    · cases h

theorem length_of_keyword? {word : String} {cs rest : List Char}
    (h : keyword? word cs = some rest) : rest.length ≤ cs.length := by
  simp only [keyword?, Option.ite_none_right_eq_some, Option.some.injEq] at h
  obtain ⟨-, rfl⟩ := h
  simp

theorem length_of_anyKeyword? {words : List String} {cs rest : List Char}
    (h : anyKeyword? words cs = some rest) : rest.length ≤ cs.length := by
  obtain ⟨_, _, _, _, h, _⟩ := List.findSome?_eq_some_iff.1 h
  exact length_of_keyword? h

/-- The text after the modifiers, each after a blank, that it begins with. -/
def skipModifiers (words : List String) (cs : List Char) : List Char :=
  match _h : gap? cs with
  | none => cs
  | some afterGap =>
    match _h' : anyKeyword? words afterGap with
    | none => cs
    | some rest => skipModifiers words rest
  termination_by cs.length
  decreasing_by exact Nat.lt_of_le_of_lt (length_of_anyKeyword? _h') (length_of_gap? _h)

/-! ### Keywords that end inside a character

A keyword is compared in lower case and then cut off by the number of its bytes. The two go together
but for the sign of the kelvin, which has three bytes and the lower case `k` of one. A keyword that
ends in `k` would end inside of it, and reading breaks off: nothing is read or refused. -/

/-- The sign of the kelvin. -/
def kelvin : Char := '\u212a'

/-- The lower case of a character, where that is a letter of ASCII. -/
def lowerCase (c : Char) : Char := if c = kelvin then 'k' else c.toLower

/-- What comes of looking for a keyword at the beginning of a text. -/
inductive Match where
  | missing
  | found (rest : List Char)
  /-- The keyword would end inside a character. -/
  | torn
  deriving DecidableEq, Repr

/-- The word and the text are the same in lower case, as far as both go. -/
def agrees (word cs : List Char) : Bool :=
  (word.zip cs).all fun p => lowerCase p.1 == lowerCase p.2

/-- Looking for the keyword `word`, which is not the beginning of a longer word. -/
def seek (word : String) (cs : List Char) : Match :=
  let n := Text.width word.toList
  let rest := Text.dropBytes n cs
  if agrees word.toList cs ∧ n ≤ Text.width cs then
    if Text.width (Text.takeBytes n cs) ≠ n then .torn
    else if rest.head?.any Token.continuesWord then .missing
    else .found rest
  else .missing

/-- Looking for the keywords one after the other. -/
def seekAny : List String → List Char → Match
  | [], _ => .missing
  | w :: ws, cs =>
    match seek w cs with
    | .missing => seekAny ws cs
    | .found rest => .found rest
    | .torn => .torn

theorem length_dropBytes_le (n : Nat) (cs : List Char) :
    (Text.dropBytes n cs).length ≤ cs.length := by
  have h := congrArg List.length (Text.takeBytes_append_dropBytes n cs)
  rw [List.length_append] at h
  omega

theorem length_of_seek {word : String} {cs rest : List Char} (h : seek word cs = .found rest) :
    rest.length ≤ cs.length := by
  unfold seek at h
  dsimp only at h
  split at h
  · split at h
    · cases h
    · split at h
      · cases h
      · cases h
        exact length_dropBytes_le _ cs
  · cases h

theorem length_of_seekAny {words : List String} {cs rest : List Char}
    (h : seekAny words cs = .found rest) : rest.length ≤ cs.length := by
  induction words with
  | nil => cases h
  | cons w ws ih =>
    rw [seekAny] at h
    split at h
    · exact ih h
    · next hw =>
      cases h
      exact length_of_seek hw
    · cases h

/-- Looking for modifiers, each after a blank, as long as one is there. -/
def seekModifiers (words : List String) (cs : List Char) : Match :=
  match _h : gap? cs with
  | none => .found cs
  | some afterGap =>
    match _h' : seekAny words afterGap with
    | .missing => .found cs
    | .found rest => seekModifiers words rest
    | .torn => .torn
  termination_by cs.length
  decreasing_by exact Nat.lt_of_le_of_lt (length_of_seekAny _h') (length_of_gap? _h)

/-- The modifiers of a `DELETE`. -/
def deleteModifiers : List String := ["low_priority", "quick", "ignore"]

/-- Reading the head of a `DELETE` breaks off, at one of its modifiers. -/
def isTorn (cs : List Char) : Bool :=
  (keyword? "delete" (skipGap cs)).any fun rest => seekModifiers deleteModifiers rest == .torn

/-! ### Identifiers -/

/-- The mark that closes an identifier opened by `c`. -/
def closing? (c : Char) : Option Char :=
  if c = Quote.double.char then some Quote.double.char
  else if c = Quote.back.char then some Quote.back.char
  else if c = '[' then some ']'
  else none

/-- A bare identifier, or one between double quotes, back quotes or brackets, without them. -/
def identifier? : List Char → Option (List Char × List Char)
  | [] => none
  | c :: cs =>
    match closing? c with
    | some close =>
      match cs.dropWhile (· ≠ close) with
      | [] => none
      | _ :: rest => some (cs.takeWhile (· ≠ close), rest)
    | none =>
      if Token.continuesWord c then
        some (c :: cs.takeWhile Token.continuesWord, cs.dropWhile Token.continuesWord)
      else none

theorem length_of_identifier? {cs rest : List Char} {name : List Char}
    (h : identifier? cs = some (name, rest)) : rest.length < cs.length := by
  cases cs with
  | nil => simp [identifier?] at h
  | cons c cs =>
    simp only [identifier?] at h
    split at h
    · next close _ =>
      have hle := (List.dropWhile_sublist (l := cs) (· ≠ close)).length_le
      split at h
      · cases h
      · next e => cases h; rw [e] at hle; simp only [List.length_cons] at *; omega
    · split at h
      · cases h
        have hle := (List.dropWhile_sublist (l := cs) Token.continuesWord).length_le
        simp only [List.length_cons]; omega
      · cases h

/-- The further parts of a dotted name, each after its point. A point without an identifier after
it is left where it is. -/
def dottedParts : List Char → List (List Char) × List Char
  | [] => ([], [])
  | c :: cs =>
    if c = '.' then
      match _h : identifier? cs with
      | none => ([], c :: cs)
      | some (name, rest) =>
        let (names, rest') := dottedParts rest
        (name :: names, rest')
    else ([], c :: cs)
  termination_by cs => cs.length
  decreasing_by exact Nat.lt_succ_of_lt (length_of_identifier? _h)

/-- A table name: identifiers joined by points. -/
def tableName? (cs : List Char) : Option (String × List Char) := do
  let (name, rest) ← identifier? cs
  let (names, rest) := dottedParts rest
  return (".".intercalate ((name :: names).map String.ofList), rest)

/-- The further identifiers of a list, each after its comma. A comma without an identifier after
it is left where it is. -/
def commaParts (cs : List Char) : List (List Char) × List Char :=
  match _hs : skipGap cs with
  | [] => ([], cs)
  | c :: afterGap =>
    if c = ',' then
      match _h : identifier? (skipGap afterGap) with
      | none => ([], cs)
      | some (name, rest) =>
        let (names, rest') := commaParts rest
        (name :: names, rest')
    else ([], cs)
  termination_by cs.length
  decreasing_by
    have h1 := length_of_identifier? _h
    have h2 := length_skipGap_le afterGap
    have h3 := length_skipGap_le cs
    rw [_hs, List.length_cons] at h3
    omega

/-- A column list: identifiers between parentheses, joined by commas. -/
def columnList? (cs : List Char) : Option (List String) := do
  guard (cs.head? = some '(')
  let (name, rest) ← identifier? (skipGap (cs.drop 1))
  let (names, rest) := commaParts rest
  guard ((skipGap rest).head? = some ')')
  return (name :: names).map String.ofList

/-! ### Heads -/

/-- The word of letters that the text begins with, after blanks. -/
def leadingWord? (cs : List Char) : Option String :=
  match (skipGap cs).takeWhile Text.isAlphabetic with
  | [] => none
  | word => some (String.ofList word)

/-- The table of an `INSERT` or `REPLACE`, and its column list where there is one. -/
def insert? (cs : List Char) : Option (String × Option (List String)) := do
  let rest ← anyKeyword? ["insert", "replace"] (skipGap cs)
  let rest := skipModifiers ["low_priority", "delayed", "high_priority", "ignore"] rest
  let rest := ((gap? rest).bind (keyword? "into")).getD rest
  let rest ← gap? rest
  let (table, rest) ← tableName? rest
  return (table, columnList? (skipGap rest))

/-- The table of an `UPDATE`. -/
def update? (cs : List Char) : Option String := do
  let rest ← keyword? "update" (skipGap cs)
  let rest ← gap? (skipModifiers ["low_priority", "ignore", "only"] rest)
  let (table, _) ← tableName? rest
  return table

/-- The table of a `DELETE` that is not torn. -/
def delete? (cs : List Char) : Option String := do
  let rest ← keyword? "delete" (skipGap cs)
  let rest ← gap? (skipModifiers deleteModifiers rest)
  let rest ← keyword? "from" rest
  let rest ← gap? (skipModifiers ["only"] rest)
  let (table, _) ← tableName? rest
  return table

/-- The byte of the star of a `SELECT`, with or without `DISTINCT` or `ALL`. -/
def star? (cs : List Char) : Option Nat := do
  let rest ← keyword? "select" (skipGap cs)
  let rest := skipGap rest
  let rest := ((anyKeyword? ["distinct", "all"] rest).map skipGap).getD rest
  guard (rest.head? = some '*')
  return Text.width cs - Text.width rest

end QueryGuard.Head
