import QueryGuard.Finding
import QueryGuard.Text.Offset

/-!
Edits of a text: each puts a text in place of a range of bytes, and an empty range inserts. Edits
are made from left to right; one that starts inside an earlier one is left out.
-/

namespace QueryGuard

/-- A replacement for a range of a text. -/
structure Edit where
  span : Span
  text : List Char
  deriving DecidableEq, Repr

namespace Edit

/-- The edit replaces the range by a string. -/
def replace (span : Span) (s : String) : Edit := ⟨span, s.toList⟩

/-- The edit inserts a string at a byte. -/
def insert (pos : Nat) (s : String) : Edit := ⟨⟨pos, pos⟩, s.toList⟩

/-- The edits in the order of their starts; those with equal starts stay in order. -/
def sort (es : List Edit) : List Edit := es.mergeSort fun a b => a.span.start ≤ b.span.start

/-- The rest `cs` of a text, which starts at byte `pos`, with the edits made. -/
def splice (pos : Nat) (cs : List Char) : List Edit → List Char
  | [] => cs
  | e :: es =>
    if e.span.start < pos then splice pos cs es
    else
      Text.takeBytes (e.span.start - pos) cs ++ e.text ++
        splice e.span.stop (Text.dropBytes (e.span.stop - pos) cs) es

/-- The text with the edits made. -/
def apply (cs : List Char) (es : List Edit) : List Char := splice 0 cs (sort es)

@[simp] theorem apply_nil (cs : List Char) : apply cs [] = cs := by simp [apply, sort, splice]

end Edit

end QueryGuard
