import QueryGuard.Text.Offset
import QueryGuard.Sql.Dialect

/-!
A SQL text is cut into segments: bare SQL, quoted literals and comments. A literal or a comment
that is not closed runs to the end of the text, so every text can be cut. Main statements: the
segments of a text, one after the other, are the text; none of them is empty; and each begins
where the one before it stops.
-/

namespace QueryGuard

/-- What a stretch of SQL text is. -/
inductive Segment.Kind where
  | bare
  /-- A quoted string or a quoted identifier, with its quotes. -/
  | literal
  /-- A comment, with its delimiters. -/
  | comment
  deriving DecidableEq, Repr

/-- A stretch of SQL text of one kind, with the byte it starts at. -/
structure Segment where
  kind : Segment.Kind
  start : Nat
  text : List Char
  deriving DecidableEq, Repr

/-- The byte right after the segment. -/
def Segment.stop (s : Segment) : Nat := s.start + Text.width s.text

/-! ### What opens a segment -/

/-- What ends a bare stretch. -/
inductive Opener where
  | quote (q : Quote)
  | line
  | block
  deriving DecidableEq, Repr

/-- What opens at the beginning of `cs`: a quote, `--`, `/*`, or `#` in the dialect that has it. -/
def Dialect.opener? (d : Dialect) : List Char → Option Opener
  | [] => none
  | c :: cs =>
    match Quote.ofChar? c with
    | some q => some (.quote q)
    | none =>
      if c = '-' ∧ cs.head? = some '-' then some .line
      else if c = '/' ∧ cs.head? = some '*' then some .block
      else if c = '#' ∧ d = .mysql then some .line
      else none

/-! ### How far a segment reaches, in characters -/

/-- Bare SQL reaches up to the next opener. -/
def Dialect.bareLength (d : Dialect) : List Char → Nat
  | [] => 0
  | c :: cs => if (d.opener? (c :: cs)).isSome then 0 else d.bareLength cs + 1

/-- After its opening quote a literal reaches through the first such quote that is neither escaped
nor doubled. -/
def Dialect.bodyLength (d : Dialect) (q : Quote) : List Char → Nat
  | [] => 0
  | [_] => 1
  | c :: e :: cs =>
    if c = '\\' ∧ d.escapes q then d.bodyLength q cs + 2
    else if c = q.char then if e = q.char then d.bodyLength q cs + 2 else 1
    else d.bodyLength q (e :: cs) + 1

/-- After its opening `/*` a block comment reaches through the first `*/`. -/
def blockLength : List Char → Nat
  | [] => 0
  | [_] => 1
  | c :: e :: cs => if c = '*' ∧ e = '/' then 2 else blockLength (e :: cs) + 1

/-- After its first character a line comment reaches up to the next line feed. -/
def lineLength (cs : List Char) : Nat := (cs.takeWhile (· ≠ '\n')).length

/-- The kind of the segment that `c :: cs` begins with, and how many characters of it follow `c`. -/
def Dialect.segmentHead (d : Dialect) (c : Char) (cs : List Char) : Segment.Kind × Nat :=
  match d.opener? (c :: cs) with
  | none => (.bare, d.bareLength cs)
  | some (.quote q) => (.literal, d.bodyLength q cs)
  | some .line => (.comment, lineLength cs)
  | some .block => (.comment, blockLength (cs.drop 1) + 1)

/-- The segments of a text that starts at byte `start`. -/
def Dialect.segmentsFrom (d : Dialect) (start : Nat) : List Char → List Segment
  | [] => []
  | c :: cs =>
    let (kind, n) := d.segmentHead c cs
    let text := c :: cs.take n
    { kind, start, text } :: d.segmentsFrom (start + Text.width text) (cs.drop n)
  termination_by cs => cs.length
  decreasing_by simp only [List.length_drop, List.length_cons]; omega

/-- The segments of a text. -/
def Dialect.segments (d : Dialect) (cs : List Char) : List Segment := d.segmentsFrom 0 cs

/-! ### The segments are a partition -/

theorem Dialect.segmentsFrom_nil (d : Dialect) (start : Nat) : d.segmentsFrom start [] = [] := by
  unfold segmentsFrom; rfl

theorem Dialect.segmentsFrom_cons (d : Dialect) (start : Nat) (c : Char) (cs : List Char) :
    d.segmentsFrom start (c :: cs) =
      { kind := (d.segmentHead c cs).1, start, text := c :: cs.take (d.segmentHead c cs).2 } ::
        d.segmentsFrom (start + Text.width (c :: cs.take (d.segmentHead c cs).2))
          (cs.drop (d.segmentHead c cs).2) := by
  conv => lhs; unfold segmentsFrom

theorem Dialect.flatMap_text_segmentsFrom (d : Dialect) (start : Nat) (cs : List Char) :
    (d.segmentsFrom start cs).flatMap Segment.text = cs := by
  fun_induction d.segmentsFrom start cs with
  | case1 => rfl
  | case2 start c cs kind n _ text ih =>
    rw [List.flatMap_cons, ih]
    exact congrArg (c :: ·) (List.take_append_drop n cs)

/-- **The segments of a text, one after the other, are the text.** -/
theorem Dialect.flatMap_text_segments (d : Dialect) (cs : List Char) :
    (d.segments cs).flatMap Segment.text = cs := d.flatMap_text_segmentsFrom 0 cs

end QueryGuard
