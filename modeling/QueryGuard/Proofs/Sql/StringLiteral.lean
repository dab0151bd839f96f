import QueryGuard.Proofs.Binding.LiteralValue
import QueryGuard.Proofs.Sql.LiteralContent

/-!
# String literals written into a text

* `SqlText.OpensQuote t`: a single quote right behind the text `t` opens a literal;
* `SqlText.withLiteral t content after`: the text `t`, then the content between single quotes,
  escaped as the dialect asks, then the text `after`.

Where the quote opens a literal and `after` does not begin with another, the literal is one segment
and one token, in both dialects: what stands in front of it is cut as if nothing stood behind
(`SqlText.OpensQuote.exists_pieces`), and what stands behind it as if nothing stood in front.

Main statement: in the standard dialect the literal is read back, `SqlText.ofLiteral_withLiteral`.
-/

namespace QueryGuard

open Grammar

variable {d : Dialect}

/-! ### Pieces in front of a quote -/

/-- What is a segment in front of a quote is one at the end of a text. -/
lemma Grammar.Spells.of_quote_behind {k : Segment.Kind} {text : List Char} {q : Quote}
    (h : Spells id d k text (some q.char)) : Spells id d k text none := by
  cases h with
  | bare hne hno =>
    refine .bare hne fun a b o e hb ho => ?_
    exact hno a b o e hb (by simpa using ho.append [q.char])
  | closedLiteral hb _ => exact .closedLiteral hb nofun
  | line _ _ hx =>
    -- a line comment reaches up to a line feed
    have hq : q.char ≠ '\n' := by cases q <;> decide
    exact absurd (hx _ rfl) hq
  | closedBlock hb => exact .closedBlock hb

/-- The pieces in front of a quote are pieces without it. -/
lemma Grammar.Lexes.of_append_quote {ps : List (Piece Char)} {k : Segment.Kind} {q : Quote}
    (h : Lexes id d (ps ++ [⟨k, [q.char]⟩])) : Lexes id d ps := by
  induction ps with
  | nil => trivial
  | cons p ps ih =>
    refine ⟨?_, ih h.2⟩
    have hp : Spells id d p.kind p.text (textOf (ps ++ [⟨k, [q.char]⟩])).head? := h.1
    rw [textOf_append] at hp
    cases ps with
    | nil => exact hp.of_quote_behind
    | cons r ps =>
      have hr : r.text ≠ [] := h.2.1.ne_nil
      rwa [List.head?_append_of_ne_nil _ (by simp [hr])] at hp

/-- Behind pieces, others may follow that begin as these do. -/
lemma Grammar.Lexes.append_of_head? {ps qs rs : List (Piece Char)} (h : Lexes id d (ps ++ qs))
    (hr : Lexes id d rs) (e : (textOf rs).head? = (textOf qs).head?) : Lexes id d (ps ++ rs) := by
  induction ps with
  | nil => exact hr
  | cons p ps ih =>
    have hhead : (textOf (ps ++ rs)).head? = (textOf (ps ++ qs)).head? := by
      rw [textOf_append, textOf_append, List.head?_append, List.head?_append, e]
    exact ⟨hhead ▸ h.1, ih h.2⟩

namespace SqlText

/-! ### Where a quote opens a literal -/

/-- A single quote right behind the text opens a literal. -/
def OpensQuote (t : SqlText) : Prop :=
  ∃ s ∈ (SqlText.mk t.dialect (t.chars ++ [Quote.single.char])).segments,
    s.kind = .literal ∧ s.start = t.width

instance (t : SqlText) : Decidable t.OpensQuote :=
  inferInstanceAs (Decidable (∃ s ∈ _, _ ∧ _))

/-- The text with a string literal behind it, and `after` behind that. -/
def withLiteral (t : SqlText) (content after : List Char) : SqlText :=
  ⟨t.dialect, t.chars ++ (t.dialect.stringLiteral content ++ after)⟩

variable {t : SqlText} {content after : List Char}

/-- The byte behind the literal. -/
def literalStop (t : SqlText) (content : List Char) : Nat :=
  t.width + Text.width (t.dialect.stringLiteral content)

/-- In front of a quote that opens a literal a text is cut as it is alone. -/
theorem OpensQuote.exists_pieces (h : t.OpensQuote) :
    ∃ ps, t.CutInto ps ∧ Lexes id t.dialect (ps ++ [⟨.literal, [Quote.single.char]⟩]) := by
  obtain ⟨s, hs, hk, hstart⟩ := h
  obtain ⟨rs, hrs⟩ := exists_cutInto ⟨t.dialect, t.chars ++ [Quote.single.char]⟩
  obtain ⟨ps, post, rfl, hps⟩ := exists_append_of_mem_place (hrs.segments ▸ hs)
  have hchars : t.chars ++ [Quote.single.char] = textOf ps ++ (s.text ++ textOf post) :=
    hrs.chars.trans (textOf_append ps (s.piece :: post))
  have hwidth : Text.width t.chars = Text.width (textOf ps) := by
    rw [← Nat.zero_add (Text.width (textOf ps)), ← hps, hstart, width]
  -- both begin at the byte of the quote
  have hpre : t.chars = textOf ps := by
    have e := congrArg (Text.takeBytes (Text.width t.chars)) hchars
    rwa [Text.takeBytes_width_append, hwidth, Text.takeBytes_width_append] at e
  rw [hpre] at hchars
  have hquote : [Quote.single.char] = s.text ++ textOf post := List.append_cancel_left hchars
  have hlex : Lexes id t.dialect (ps ++ s.piece :: post) := hrs.lexes
  have hne : s.text ≠ [] := hlex.of_append.1.ne_nil
  have hpost : post = [] := by
    cases post with
    | nil => rfl
    | cons p post =>
      have hp : p.text ≠ [] := hlex.of_append.2.1.ne_nil
      have hl := congrArg List.length hquote
      have h1 := List.length_pos_of_ne_nil hne
      have h2 := List.length_pos_of_ne_nil hp
      simp only [textOf_cons, List.length_append, List.length_singleton] at hl
      omega
  subst hpost
  rw [textOf_nil, List.append_nil] at hquote
  have hpiece : s.piece = ⟨.literal, [Quote.single.char]⟩ := by
    rw [Segment.piece, hk, ← hquote]
  rw [hpiece] at hlex
  exact ⟨ps, ⟨hlex.of_append_quote, hrs.separated.left_of_append, hpre⟩, hlex⟩

/-! ### The literal in the text -/

/-- With the literal behind it a text is cut into what it is cut into alone, the literal, and what
`after` is cut into. -/
lemma OpensQuote.cutInto_withLiteral (h : t.OpensQuote)
    (hafter : after.head? ≠ some Quote.single.char) (content : List Char) :
    ∃ ps qs, t.CutInto ps ∧ (SqlText.mk t.dialect after).CutInto qs ∧
      (t.withLiteral content after).CutInto
        (ps ++ ⟨.literal, t.dialect.stringLiteral content⟩ :: qs) := by
  obtain ⟨ps, hps, hlex⟩ := h.exists_pieces
  obtain ⟨qs, hqs⟩ := exists_cutInto ⟨t.dialect, after⟩
  have hnext : (textOf qs).head? ≠ some Quote.single.char := by rwa [← hqs.chars]
  have hlit : Lexes id t.dialect (⟨.literal, t.dialect.stringLiteral content⟩ :: qs) :=
    ⟨.closedLiteral (t.dialect.body_escape content) hnext, hqs.lexes⟩
  refine ⟨ps, qs, hps, hqs, hlex.append_of_head? hlit rfl, ?_, ?_⟩
  · refine List.isChain_append.2 ⟨hps.separated, List.isChain_cons.2 ⟨?_, hqs.separated⟩, ?_⟩
    · exact fun _ _ hb => nomatch hb.1
    · rintro _ _ _ ⟨⟩ hb
      exact nomatch hb.2
  · have hchars : after = textOf qs := hqs.chars
    rw [withLiteral, hps.chars, textOf_append, textOf_cons, hchars]

/-- **The literal is one segment**, and no other segment changes. -/
theorem OpensQuote.segments_withLiteral (h : t.OpensQuote)
    (hafter : after.head? ≠ some Quote.single.char) :
    (t.withLiteral content after).segments =
      t.segments ++ ⟨.literal, t.width, t.dialect.stringLiteral content⟩ ::
        t.dialect.segmentsFrom (t.literalStop content) after := by
  obtain ⟨ps, qs, hps, hqs, hcut⟩ := h.cutInto_withLiteral hafter content
  have hqs' := segmentsFrom_textOf hqs.lexes hqs.separated (t.literalStop content)
  rw [← hqs.chars] at hqs'
  rw [hcut.segments, hps.segments, Segment.place_append, Segment.place_cons, Nat.zero_add,
    ← hps.chars, hqs']
  rfl

/-- **The literal is one token**, a string, and other tokens only move. -/
theorem OpensQuote.tokens_withLiteral (h : t.OpensQuote)
    (hafter : after.head? ≠ some Quote.single.char) :
    (t.withLiteral content after).tokens =
      t.tokens ++ ⟨.string, t.width, t.dialect.stringLiteral content⟩ ::
        (SqlText.mk t.dialect after).tokens.map (Token.shift (t.literalStop content)) := by
  have hlit : Token.ofSegment t.dialect ⟨.literal, t.width, t.dialect.stringLiteral content⟩ =
      [⟨.string, t.width, t.dialect.stringLiteral content⟩] := rfl
  obtain ⟨qs, hqs⟩ := exists_cutInto ⟨t.dialect, after⟩
  have hqs' := segmentsFrom_textOf hqs.lexes hqs.separated (0 + t.literalStop content)
  rw [← hqs.chars, Nat.zero_add] at hqs'
  have hd : (t.withLiteral content after).dialect = t.dialect := rfl
  rw [tokens, tokens, tokens, hd, h.segments_withLiteral hafter, List.flatMap_append,
    List.flatMap_cons, hlit, hqs', hqs.segments, ← Token.flatMap_place_shift, Nat.zero_add]
  rfl

lemma slice_withLiteral (t : SqlText) (content after : List Char) :
    (t.withLiteral content after).slice t.width (t.literalStop content) =
      t.dialect.stringLiteral content :=
  Text.slice_append t.chars (t.dialect.stringLiteral content) after

/-! ### Reading the literal -/

/-- **In the standard dialect a string that is written between quotes is read back.** Whatever stands
around it, and whatever quotes are in it, the literal is one segment and one token, and its value is
the string. -/
theorem ofLiteral_withLiteral (before after : List Char) (s : String)
    (hopen : OpensQuote ⟨.standard, before⟩) (hafter : after.head? ≠ some Quote.single.char) :
    let literal := Quote.single.char ::
      (Literal.double Quote.single.char s.toList ++ [Quote.single.char])
    let t : SqlText := ⟨.standard, before ++ (literal ++ after)⟩
    let start := Text.width before
    let stop := start + Text.width literal
    t.segments = (SqlText.mk .standard before).segments ++
        ⟨.literal, start, literal⟩ :: Dialect.standard.segmentsFrom stop after ∧
      t.tokens = (SqlText.mk .standard before).tokens ++
        ⟨.string, start, literal⟩ :: (SqlText.mk .standard after).tokens.map (Token.shift stop) ∧
      Value.ofLiteral (t.slice start stop) = .string s := by
  refine ⟨hopen.segments_withLiteral hafter, hopen.tokens_withLiteral hafter, ?_⟩
  rw [slice, Text.slice_append, Value.ofLiteral_quoted, String.ofList_toList]

/-- Quotes at both ends of a string and in it, behind a literal that is a quote. -/
theorem ofLiteral_withLiteral_quotes :
    (ofString .standard "SELECT '''', ").OpensQuote ∧
      Value.ofLiteral ((ofString .standard "SELECT '''', '''a''''b''''', 'c'").slice 13 27) =
        .string "'a''b''" :=
  ⟨by decide +kernel, (ofLiteral_withLiteral "SELECT '''', ".toList ", 'c'".toList "'a''b''"
    (by decide +kernel) (by decide)).2.2⟩

end SqlText

end QueryGuard
