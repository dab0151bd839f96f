import QueryGuard.Binding.Literal
import QueryGuard.Proofs.Sql.Masking
import QueryGuard.Proofs.Sql.Outline

/-!
What literals say. Another content between the same quotes, escaped as the dialect asks, leaves
every other segment of a text as it is, so tokens behind the literal only move. Main statement: the
outline of a text does not depend on the contents of its string literals.
-/

namespace QueryGuard

open Grammar

/-! ### Escaping -/

/-- The content as it stands between single quotes. -/
def Dialect.escape (d : Dialect) (content : List Char) : List Char :=
  Literal.double Quote.single.char <|
    match d with
    | .standard => content
    | .mysql => Literal.double '\\' content

/-- The string literal with the content. -/
def Dialect.stringLiteral (d : Dialect) (content : List Char) : List Char :=
  Quote.single.char :: (d.escape content ++ [Quote.single.char])

/-- What is escaped is the body of a literal. -/
theorem Dialect.body_escape (d : Dialect) (content : List Char) :
    Body id d .single (d.escape content) := by
  cases d with
  | standard =>
    have hd : ¬ Dialect.standard.escapes .single := by decide
    induction content with
    | nil => exact .nil
    | cons c cs ih =>
      rw [escape, Literal.double]
      split
      · exact .cons .doubled ih
      · next hc => exact .cons (.plain c hc fun h => hd h.2) ih
  | mysql =>
    have hd : Dialect.mysql.escapes .single := by decide
    have hq : '\\' ≠ Quote.single.char := by decide
    induction content with
    | nil => exact .nil
    -- a backslash is escaped, and doubling quotes changes neither of the two
    | cons c cs ih =>
      simp only [escape, Literal.double] at ih ⊢
      split
      · simp only [Literal.double, if_neg hq]
        exact .cons (.escaped '\\' hd) ih
      · next hb =>
        rw [Literal.double]
        split
        · exact .cons .doubled ih
        · next hc => exact .cons (.plain c hc fun h => hb h.1) ih

/-! ### Pieces around a literal -/

variable {d : Dialect}

/-- A piece that begins with a quote is a literal, and no such quote stands behind it. -/
lemma Grammar.Spells.of_quote {k : Segment.Kind} {q : Quote} {a rest : List Char}
    (h : Spells id d k (q.char :: a) rest.head?) :
    k = .literal ∧ rest.head? ≠ some q.char := by
  have ho : Opens id d (.quote q) (q.char :: a) := .quote q a
  have hk : k = .literal := by
    by_cases hb : k = .bare
    · subst hb
      have hn := Spells.not_opens (a := []) h (List.cons_ne_nil _ _) (.quote q)
      exact absurd (ho.append rest) hn
    · obtain ⟨o, rfl, ho'⟩ := h.exists_opens hb
      rw [ho'.unique distinguishes_id ho]
      rfl
  subst hk
  obtain ⟨p, body, close, e, -, he, hc⟩ := h.literal_cases distinguishes_id
  obtain rfl := quote_injective (List.cons.inj e).1
  refine ⟨rfl, ?_⟩
  rcases hc with rfl | ⟨rfl, -⟩
  · rcases he with he | ⟨-, he⟩ | ⟨r, he, hr⟩
    · cases he
    · exact absurd (List.cons.inj he).1 (quote_ne q).2.2.2
    · obtain rfl : rest = r := (List.cons.inj he).2
      exact hr
  · exact nofun

/-- A piece may be put in the place of another that begins as it does. -/
lemma Grammar.Lexes.replace {pre post : List (Piece Char)} {p q : Piece Char}
    (h : Lexes id d (pre ++ p :: post)) (hq : Spells id d q.kind q.text (textOf post).head?)
    (hpq : q.text.head? = p.text.head?) : Lexes id d (pre ++ q :: post) := by
  induction pre with
  | nil => exact ⟨hq, h.2⟩
  | cons r pre ih =>
    refine ⟨?_, ih h.2⟩
    have hp : Lexes id d (p :: post) := h.2.of_append
    have hne := hp.text_ne_nil p List.mem_cons_self
    obtain ⟨c, a, hc⟩ := List.exists_cons_of_ne_nil hne
    obtain ⟨b, hb⟩ : ∃ b, q.text = c :: b := List.head?_eq_some_iff.1 (by rw [hpq, hc]; rfl)
    have e : (textOf (pre ++ q :: post)).head? = (textOf (pre ++ p :: post)).head? := by
      rw [textOf_append, textOf_append, textOf_cons, textOf_cons, hb, hc]
      cases textOf pre <;> rfl
    show Spells id d r.kind r.text (textOf (pre ++ q :: post)).head?
    rw [e]
    exact h.1

lemma separated_replace {pre post : List (Piece Char)} {p q : Piece Char}
    (h : Separated (pre ++ p :: post)) (hk : q.kind = p.kind) : Separated (pre ++ q :: post) := by
  have hs : ∀ ps : List (Piece Char), Separated ps ↔
      (ps.map Piece.kind).IsChain fun k l => ¬ (k = .bare ∧ l = .bare) := fun ps => by
    rw [List.isChain_map]
    rfl
  rw [hs, List.map_append, List.map_cons] at h ⊢
  rwa [hk]

lemma exists_append_of_mem_place {s : Segment} {ps : List (Piece Char)} {start : Nat}
    (h : s ∈ Segment.place start ps) : ∃ pre post, ps = pre ++ s.piece :: post ∧
      s.start = start + Text.width (textOf pre) := by
  induction ps generalizing start with
  | nil => exact absurd h List.not_mem_nil
  | cons p ps ih =>
    rcases List.mem_cons.1 h with rfl | h
    · exact ⟨[], ps, rfl, rfl⟩
    · obtain ⟨pre, post, rfl, e⟩ := ih h
      refine ⟨p :: pre, post, rfl, ?_⟩
      rw [e, textOf_cons, Text.width_append, Nat.add_assoc]

/-! ### The text with another content -/

namespace SqlText

/-- The text with a string literal of the given content in the place of a segment. -/
def withContent (t : SqlText) (s : Segment) (content : List Char) : SqlText :=
  ⟨t.dialect, Text.takeBytes s.start t.chars ++
    (t.dialect.stringLiteral content ++ Text.dropBytes s.stop t.chars)⟩

/-- The text is the pieces `pre`, a string literal and the pieces `post`, and with another content
of the literal it is still cut between these. -/
structure LiteralBetween (t : SqlText) (s : Segment) (content : List Char)
    (pre post : List (Piece Char)) : Prop where
  head : s.text.head? = some Quote.single.char
  kind : s.kind = .literal
  start : s.start = Text.width (textOf pre)
  pre_ne_nil : ∀ p ∈ pre, p.text ≠ []
  post_ne_nil : ∀ p ∈ post, p.text ≠ []
  segments : t.segments = Segment.place 0 pre ++ s :: Segment.place s.stop post
  segments' : (t.withContent s content).segments =
    Segment.place 0 pre ++ ⟨.literal, s.start, t.dialect.stringLiteral content⟩ ::
      Segment.place (s.start + Text.width (t.dialect.stringLiteral content)) post
  chars : t.chars = textOf pre ++ (s.text ++ textOf post)
  chars' : (t.withContent s content).chars =
    textOf pre ++ (t.dialect.stringLiteral content ++ textOf post)

variable {t : SqlText} {s : Segment} {content : List Char} {pre post : List (Piece Char)}

theorem exists_literalBetween (hs : s ∈ t.segments)
    (hq : s.text.head? = some Quote.single.char) (content : List Char) :
    ∃ pre post, t.LiteralBetween s content pre post := by
  obtain ⟨ps, h⟩ := t.exists_cutInto
  obtain ⟨pre, post, rfl, hstart⟩ := exists_append_of_mem_place (h.segments ▸ hs)
  rw [Nat.zero_add] at hstart
  have hchars : t.chars = textOf pre ++ (s.text ++ textOf post) := by
    rw [h.chars, textOf_append, textOf_cons]
    rfl
  obtain ⟨body, hbody⟩ := List.head?_eq_some_iff.1 hq
  have hsp : Spells id t.dialect s.kind (Quote.single.char :: body) (textOf post).head? := by
    rw [← hbody]
    exact (Lexes.of_append h.lexes).1
  obtain ⟨hk, hnext⟩ := hsp.of_quote
  -- another literal may stand there, as nothing behind it goes on with it
  have hnew : Spells id t.dialect .literal (t.dialect.stringLiteral content)
      (textOf post).head? := .closedLiteral (t.dialect.body_escape content) hnext
  have hchars' : (t.withContent s content).chars =
      textOf pre ++ (t.dialect.stringLiteral content ++ textOf post) := by
    have htake : Text.takeBytes s.start t.chars = textOf pre := by
      rw [hstart, hchars, Text.takeBytes_width_append]
    have hdrop : Text.dropBytes s.stop t.chars = textOf post := by
      rw [Segment.stop, hstart, ← Text.width_append, hchars, ← List.append_assoc,
        Text.dropBytes_width_append]
    rw [withContent, htake, hdrop]
  have hplace : ∀ p : Piece Char, Segment.place 0 (pre ++ p :: post) = Segment.place 0 pre ++
      ⟨p.kind, s.start, p.text⟩ :: Segment.place (s.start + Text.width p.text) post := by
    intro p
    rw [Segment.place_append, Segment.place_cons, Nat.zero_add, ← hstart]
  -- the new text is cut into the same pieces but for the literal
  have h' : (t.withContent s content).CutInto
      (pre ++ ⟨.literal, t.dialect.stringLiteral content⟩ :: post) := {
    lexes := h.lexes.replace hnew (by rw [Segment.piece, hbody]; rfl)
    separated := separated_replace h.separated hk.symm
    chars := by rw [hchars', textOf_append, textOf_cons] }
  have hne := h.lexes.text_ne_nil
  exact ⟨pre, post, {
    head := hq
    kind := hk
    start := hstart
    pre_ne_nil := fun p hp => hne p (List.mem_append_left _ hp)
    post_ne_nil := fun p hp => hne p (List.mem_append_right _ (List.mem_cons_of_mem _ hp))
    segments := h.segments.trans (hplace _)
    segments' := h'.segments.trans (hplace _)
    chars := hchars
    chars' := hchars' }⟩

lemma LiteralBetween.text_ne_nil (h : t.LiteralBetween s content pre post) : s.text ≠ [] := by
  intro hn
  have hq := h.head
  rw [hn] at hq
  cases hq

lemma width_stringLiteral_pos (d : Dialect) (content : List Char) :
    0 < Text.width (d.stringLiteral content) := Text.width_pos (List.cons_ne_nil _ _)

end SqlText

/-! ### Tokens around a literal -/

namespace Token

/-- The token where another text stands in the place of the segment. -/
def around (s : Segment) (text : List Char) (u : Token) : Token :=
  { u with
    start := if u.start ≤ s.start then u.start else u.start - Text.width s.text + Text.width text
    text := if u.kind = .string ∧ u.start = s.start then text else u.text }

variable {s : Segment} {text : List Char} {u : Token}

lemma relocates_around (s : Segment) (text : List Char) : Relocates (around s text) :=
  ⟨fun _ => rfl, fun _ hk => if_neg fun h => hk h.1⟩

lemma around_of_lt (h : u.start < s.start) : around s text u = u := by
  have hs : u.start ≠ s.start := h.ne
  simp only [around, if_pos h.le, hs, and_false, if_false]

lemma around_of_eq (hk : u.kind = .string) (h : u.start = s.start) :
    around s text u = { u with text } := by
  have hs : u.kind = .string ∧ u.start = s.start := ⟨hk, h⟩
  simp only [around, if_pos h.le, if_pos hs]

lemma around_of_gt (h : s.start < u.start) :
    around s text u = { u with start := u.start - Text.width s.text + Text.width text } := by
  have hs : u.start ≠ s.start := h.ne'
  simp only [around, if_neg (Nat.not_le.2 h), hs, and_false, if_false]

lemma around_shift (hs : s.text ≠ []) (u : Token) :
    around s text (u.shift s.stop) = u.shift (s.start + Text.width text) := by
  have hw := Text.width_pos hs
  have hstart : (u.shift s.stop).start = u.start + (s.start + Text.width s.text) := rfl
  rw [around_of_gt (by omega), hstart]
  simp only [shift, Token.mk.injEq, true_and, and_true]
  omega

end Token

namespace SqlText.LiteralBetween

variable {t : SqlText} {s : Segment} {content : List Char} {pre post : List (Piece Char)}

/-- Tokens before the literal stay where they are. -/
lemma map_around_pre (h : t.LiteralBetween s content pre post) (text : List Char) :
    ((Segment.place 0 pre).flatMap (Token.ofSegment t.dialect)).map (Token.around s text) =
      (Segment.place 0 pre).flatMap (Token.ofSegment t.dialect) := by
  refine (List.map_congr_left fun u hu => ?_).trans (List.map_id _)
  have hlt := (Token.start_of_mem_place h.pre_ne_nil hu).2
  rw [Nat.zero_add, ← h.start] at hlt
  exact Token.around_of_lt hlt

lemma ofSegment_eq (h : t.LiteralBetween s content pre post) :
    Token.ofSegment t.dialect s = [⟨.string, s.start, s.text⟩] := by
  have hkind : Token.literalKind t.dialect s.text.head? = .string := by
    rw [h.head]
    exact if_pos (.inl rfl)
  rw [Token.ofSegment, h.kind, hkind]

/-- Tokens behind the literal move with its end. -/
lemma map_around_post (h : t.LiteralBetween s content pre post) (text : List Char) :
    ((Segment.place s.stop post).flatMap (Token.ofSegment t.dialect)).map
        (Token.around s text) =
      (Segment.place (s.start + Text.width text) post).flatMap (Token.ofSegment t.dialect) := by
  rw [← Nat.zero_add s.stop, Token.flatMap_place_shift, List.map_map,
    ← Nat.zero_add (s.start + _), Token.flatMap_place_shift]
  exact List.map_congr_left fun u _ => Token.around_shift h.text_ne_nil u

lemma tokens_withContent (h : t.LiteralBetween s content pre post) :
    (t.withContent s content).tokens =
      t.tokens.map (Token.around s (t.dialect.stringLiteral content)) := by
  have hd : (t.withContent s content).dialect = t.dialect := rfl
  have hlit : (Token.ofSegment t.dialect s).map
      (Token.around s (t.dialect.stringLiteral content)) =
        Token.ofSegment t.dialect ⟨.literal, s.start, t.dialect.stringLiteral content⟩ := by
    rw [h.ofSegment_eq, List.map_singleton, Token.around_of_eq rfl rfl]
    rfl
  rw [tokens, tokens, hd, h.segments, h.segments', List.flatMap_append, List.flatMap_append,
    List.flatMap_cons, List.flatMap_cons, List.map_append, List.map_append, h.map_around_pre, hlit,
    h.map_around_post]

/-- No token starts inside the literal. -/
lemma start_of_mem_tokens (h : t.LiteralBetween s content pre post) {u : Token}
    (hu : u ∈ t.tokens) :
    u.start ≤ s.start ∨ s.start < u.start ∧ s.start + Text.width s.text ≤ u.start := by
  have hw := Text.width_pos h.text_ne_nil
  have hstart := h.start
  rw [tokens, h.segments, List.flatMap_append, List.flatMap_cons] at hu
  rcases List.mem_append.1 hu with hu | hu
  · have hp := Token.start_of_mem_place h.pre_ne_nil hu
    omega
  · rcases List.mem_append.1 hu with hu | hu
    · rw [h.ofSegment_eq] at hu
      obtain rfl := List.mem_singleton.1 hu
      exact .inl (Nat.le_refl _)
    · have hp := Token.start_of_mem_place h.post_ne_nil hu
      rw [Segment.stop] at hp
      omega

lemma keepsOrder_around (h : t.LiteralBetween s content pre post) :
    Token.KeepsOrder (Token.around s (t.dialect.stringLiteral content)) t.tokens := by
  have hw := width_stringLiteral_pos t.dialect content
  intro a ha b hb
  have ha := h.start_of_mem_tokens ha
  have hb := h.start_of_mem_tokens hb
  simp only [Token.around]
  split <;> split <;> omega

lemma map_placeholders_withContent (h : t.LiteralBetween s content pre post) :
    (t.withContent s content).placeholders.map (fun p => (p.style, p.ordinal)) =
      t.placeholders.map fun p => (p.style, p.ordinal) := by
  have hlit : Placeholder.inSegment s = [] := by simp [Placeholder.inSegment, h.kind]
  rw [map_placeholders, map_placeholders, h.segments, h.segments']
  simp only [List.flatMap_append, List.flatMap_cons, List.map_append, hlit,
    Placeholder.map_style_place _ s.stop post]
  rfl

end SqlText.LiteralBetween

/-! ### Heads around a literal -/

/-- What is cut off behind a quote agrees up to the quote. -/
lemma agreeToQuote_takeBytes {before x y : List Char} {m n : Nat} (hm : Text.width before < m)
    (hn : Text.width before < n) :
    AgreeToQuote (Text.takeBytes m (before ++ Quote.single.char :: x))
      (Text.takeBytes n (before ++ Quote.single.char :: y)) := by
  obtain ⟨i, hi⟩ := Nat.exists_eq_add_of_lt hm
  obtain ⟨j, hj⟩ := Nat.exists_eq_add_of_lt hn
  have hsub : ∀ k, Text.width before + k + 1 - Text.width before = k + 1 := by omega
  rw [Text.takeBytes_append_of_ge hm.le, Text.takeBytes_append_of_ge hn.le, hi, hj, hsub, hsub]
  exact .inr ⟨before, _, _, rfl, rfl⟩

namespace SqlText.LiteralBetween

variable {t : SqlText} {s : Segment} {content : List Char} {pre post : List (Piece Char)}

/-- The statement stops at the same place in front of the literal, or behind it. -/
lemma statementStop_cases (h : t.LiteralBetween s content pre post) :
    (t.withContent s content).statementStop = t.statementStop ∧ t.statementStop ≤ s.start ∨
      s.start < (t.withContent s content).statementStop ∧ s.start < t.statementStop := by
  have hw := Text.width_pos h.text_ne_nil
  have hw' := width_stringLiteral_pos t.dialect content
  have hg := Token.relocates_around s (t.dialect.stringLiteral content)
  have hstop' : (t.withContent s content).statementStop =
      (((DeepToken.ofTokens 0 t.tokens).dropWhile (!·.endsStatement)).head?.map fun u =>
        (Token.around s (t.dialect.stringLiteral content) u.token).start).getD
          (t.withContent s content).width := by
    rw [statementStop, h.tokens_withContent, DeepToken.ofTokens_map hg,
      Statement.semicolon?_map hg]
  rw [hstop', statementStop, Statement.semicolon?]
  cases hf : ((DeepToken.ofTokens 0 t.tokens).dropWhile (!·.endsStatement)).head? with
  | none =>
    have hstart := h.start
    simp only [Option.map_none, Option.getD_none, width, h.chars, h.chars', Text.width_append]
    omega
  | some u =>
    -- the semicolon is a token, so it does not stand inside the literal
    have hu : u ∈ DeepToken.ofTokens 0 t.tokens :=
      (List.dropWhile_sublist _).subset (List.mem_of_head? hf)
    have hu := h.start_of_mem_tokens (DeepToken.token_mem_of_mem_ofTokens hu)
    simp only [Option.map_some, Option.getD_some, Token.around]
    split <;> omega

lemma masked_eq (h : t.LiteralBetween s content pre post) :
    t.masked = textOf (pre.map Piece.blank) ++ (s.text ++ textOf (post.map Piece.blank)) := by
  rw [SqlText.masked_eq, h.segments, List.flatMap_append, List.flatMap_cons, flatMap_mask_place,
    flatMap_mask_place, Segment.mask, h.kind]

lemma masked_withContent (h : t.LiteralBetween s content pre post) :
    (t.withContent s content).masked = textOf (pre.map Piece.blank) ++
      (t.dialect.stringLiteral content ++ textOf (post.map Piece.blank)) := by
  rw [SqlText.masked_eq, h.segments', List.flatMap_append, List.flatMap_cons, flatMap_mask_place,
    flatMap_mask_place]
  rfl

lemma agreeToQuote_statementHead (h : t.LiteralBetween s content pre post) :
    AgreeToQuote (t.withContent s content).statementHead t.statementHead := by
  have hb : Text.width (textOf (pre.map Piece.blank)) = s.start := by
    rw [width_textOf_blank, h.start]
  obtain ⟨body, hbody⟩ := List.head?_eq_some_iff.1 h.head
  rw [statementHead, statementHead, h.masked_eq, h.masked_withContent]
  rcases h.statementStop_cases with ⟨e, hle⟩ | ⟨hlt', hlt⟩
  · rw [e, Text.takeBytes_append_of_le (by omega), Text.takeBytes_append_of_le (by omega)]
    exact .inl rfl
  · rw [hbody]
    exact agreeToQuote_takeBytes (by omega) (by omega)

end SqlText.LiteralBetween

namespace SqlText

variable {t : SqlText} {s : Segment}

/-- **The content of a string literal does not matter** to the outline of a text. The literal may be
closed or not; with the new content it is closed. -/
theorem outline_withContent (hs : s ∈ t.segments) (hq : s.text.head? = some Quote.single.char)
    (content : List Char) : (t.withContent s content).outline = t.outline := by
  obtain ⟨pre, post, h⟩ := exists_literalBetween hs hq content
  exact outline_eq (Token.relocates_around _ _) h.keepsOrder_around h.tokens_withContent
    h.map_placeholders_withContent h.agreeToQuote_statementHead

/-- A content that would end the row and the statement, were it not between quotes. -/
theorem outline_withContent_insert :
    (⟨.literal, 22, "'x'".toList⟩ : Segment) ∈
        (ofString .mysql "INSERT INTO t VALUES ('x', ?)").segments ∧
      ((ofString .mysql "INSERT INTO t VALUES ('x', ?)").withContent
        ⟨.literal, 22, "'x'".toList⟩ "\\'); -- ?".toList).outline =
          (ofString .mysql "INSERT INTO t VALUES ('x', ?)").outline :=
  ⟨by decide +kernel, outline_withContent (by decide +kernel) rfl _⟩

end SqlText

end QueryGuard
