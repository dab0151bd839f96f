import QueryGuard.Toml.Scalar
import QueryGuard.Toml.Tree

/-!
Reading TOML documents: blanks and comments, the four kinds of strings, keys, arrays and inline
tables, and the lines of a document. Values and dotted keys nest less than 80 deep.
-/

namespace QueryGuard.Toml

open Text (Reader)
open Text.Reader

/-! ### Blanks and comments -/

/-- A blank within a line. -/
def isBlank (c : Char) : Bool := c == ' ' || c == '\t'

/-- Blanks within a line. -/
def blanks : Reader Unit := do
  let _ ← takeWhile isBlank

/-- The end of a line. -/
def newline : Reader Unit := orElse (char '\n') (exactly ['\r', '\n'])

/-- The end of a line or of the document. -/
def lineEnd : Reader Unit := orElse newline atEnd

/-- A character that may stand in a comment or a string. -/
def isVisible (c : Char) : Bool := c == '\t' || (0x20 ≤ c.toNat && c.toNat != 0x7F)

/-- A comment. -/
def comment : Reader Unit := do
  char '#'
  let _ ← takeWhile isVisible

/-- What may stand behind something on a line. -/
def trailing : Reader Unit := do
  blanks
  let _ ← optional comment
  lineEnd

/-- Blanks, comments and line ends. -/
def space : Reader Unit := do
  let _ ← many (orElse (do let _ ← takeWhile1 isBlank)
    (do let _ ← optional comment; newline))

/-! ### Strings -/

/-- The double quote. -/
def quoteMark : Char := '"'

/-- The single quote. -/
def apostrophe : Char := '\x27'

/-- The character that an escape stands for, after the backslash. -/
def escaped : Reader Char := do
  match ← satisfy fun _ => true with
  | 'b' => return '\x08'
  | 't' => return '\t'
  | 'n' => return '\n'
  | 'f' => return '\x0c'
  | 'r' => return '\r'
  | '"' => return '"'
  | '\\' => return '\\'
  | 'u' => ofOption (Text.charOfCode? (← hex 4))
  | 'U' => ofOption (Text.charOfCode? (← hex 8))
  | _ => fail

/-- A character of a string between double quotes. -/
def basicChar : Reader Char := do
  let c ← satisfy fun c => isVisible c && c != quoteMark
  if c = '\\' then escaped else return c

/-- A character of a string between single quotes. -/
def literalChar : Reader Char := satisfy fun c => isVisible c && c != apostrophe

/-- A string on one line, between marks. -/
def lineString (mark : Char) (p : Reader Char) : Reader String := do
  char mark
  let cs ← many p
  char mark
  return String.ofList cs

/-- A line end within a string. -/
def stringNewline : Reader (List Char) := do
  newline
  return ['\n']

/-- A backslash at the end of a line, with the blanks that it joins. -/
def joinedLines : Reader (List Char) := do
  char '\\'
  blanks
  newline
  let _ ← many (orElse (do let _ ← takeWhile1 isBlank) newline)
  return []

/-- One or two marks in a row with something other than the mark behind them. -/
def innerMarks (mark : Char) : Reader (List Char) := do
  let marks ← takeWhile1 (· == mark)
  require (marks.length < 3)
  return marks

/-- The three marks that close a string, with one or two in front that belong to it. -/
def closingMarks (mark : Char) : Reader (List Char) := do
  let marks ← takeWhile1 (· == mark)
  require (3 ≤ marks.length && marks.length ≤ 5)
  return marks.drop 3

/-- A string over lines, between three marks. A line end right after these is left out. -/
def textString (mark : Char) (p : Reader (List Char)) : Reader String := do
  exactly [mark, mark, mark]
  let _ ← optional newline
  let parts ← many (orElse p (innerMarks mark))
  let last ← closingMarks mark
  return String.ofList (parts.flatten ++ last)

/-- A piece of a string over lines between double quotes. -/
def basicPiece : Reader (List Char) :=
  orElse (orElse stringNewline joinedLines) (do return [← basicChar])

/-- A piece of a string over lines between single quotes. -/
def literalPiece : Reader (List Char) := orElse stringNewline (do return [← literalChar])

/-- A string. -/
def string : Reader String :=
  orElse (textString quoteMark basicPiece) <|
    orElse (lineString quoteMark basicChar) <|
      orElse (textString apostrophe literalPiece) (lineString apostrophe literalChar)

/-! ### Keys -/

/-- A depth that is not reached. -/
def depthLimit : Nat := 80

/-- A bare or quoted key. -/
def simpleKey : Reader String :=
  orElse (lineString quoteMark basicChar) <|
    orElse (lineString apostrophe literalChar) <| do
      let cs ← takeWhile1 fun c => c.isAlphanum || c == '-' || c == '_'
      return String.ofList cs

/-- A key, dotted or not. -/
def path : Reader Path := do
  let keys ← separated (do blanks; let k ← simpleKey; blanks; return k) (char '.')
  require (keys.length < depthLimit)
  match keys.getLast? with
  | none => fail
  | some key => return ⟨keys.dropLast, key⟩

/-! ### Values -/

/-- A key with its value. -/
def field (value : Reader Setting) : Reader (Path × Setting) := do
  let p ← path
  char '='
  blanks
  return (p, ← value)

/-- The items of an array. -/
def array (value : Reader Setting) : Reader (List Setting) := do
  char '['
  let items ← optional do
    let items ← separated (do space; let v ← value; space; return v) (char ',')
    let _ ← optional (char ',')
    return items
  space
  char ']'
  return items.getD []

/-- The table whose fields are given, if no key is given twice. -/
def ofFields? (fields : List (Path × Setting)) : Option Setting :=
  let add (fs : Fields) (f : Path × Setting) : Option Fields := addValue f.1.tables f.1.key f.2 fs
  (fields.foldlM add []).map fun fs => .table (settings fs)

/-- A table on one line. -/
def inlineTable (value : Reader Setting) : Reader Setting := do
  char '\x7b'
  let fields ← optional (separated (do let f ← field value; blanks; return f) (char ','))
  blanks
  char '\x7d'
  ofOption (ofFields? (fields.getD []))

/-- A value with less than `depth` levels of arrays and inline tables. -/
def value (depth : Nat) : Reader Setting := do
  match ← peek? with
  | some '"' => return .text (← string)
  | some '\x27' => return .text (← string)
  | some '[' =>
    match depth with
    | 0 => fail
    | depth + 1 => return .list (← array (value depth))
  | some '\x7b' =>
    match depth with
    | 0 => fail
    | depth + 1 => inlineTable (value depth)
  | _ => scalar

/-! ### Documents -/

/-- A header of a table or of an array of tables, or a value under a key. -/
def statement : Reader Line :=
  orElse (do exactly ['[', '[']; let p ← path; exactly [']', ']']; return .element p) <|
    orElse (do char '['; let p ← path; char ']'; return .header p) <| do
      let (p, v) ← field (value (depthLimit - 1))
      return .value p v

/-- A line of a document, if it says anything. -/
def line : Reader (Option Line) :=
  orElse (do let l ← statement; trailing; return some l)
    (do blanks; let _ ← optional comment; newline; return none)

/-- The lines of a document. The mark of the byte order is not part of it, and neither a line end
nor the end of the document is missed behind a comment. -/
def document : Reader (List Line) := do
  let _ ← optional (char '\ufeff')
  let lines ← many (do blanks; line)
  trailing
  atEnd
  return lines.filterMap id

/-- The setting that a document is, if it is one. -/
def parse? (s : String) : Option Setting := (Text.Reader.whole document s.toList).bind ofLines?

end QueryGuard.Toml
