import QueryGuard.Proofs.Sql.Occurrence

/-!
# The positional form of a text

* `SqlText.quotedParts t`: the literals and comments of a text, in order;
* `SqlText.Follows t p`: right in front of the placeholder `p`, in the same bare stretch, stands a
  question mark or the last character of a named placeholder.

The positional form has the literals and comments of the text, and no named placeholder. A placeholder
is lost exactly where it follows: its question mark then stands behind another. Whether it does is
said of the characters of a bare stretch, and known of the lexemes; `Lexeme.standsAt` finds the
stretch in which a lexeme stands and tells what stands in front of it there.

Main statement: `SqlText.positional_exact`.
-/

namespace QueryGuard

variable {d : Dialect}

namespace Lexeme

variable {l : Lexeme} {ls as bs : List Lexeme} {before : Option Char} {rest : List Char} {pos : Nat}

/-! ### Literals and comments -/

/-- The literals and comments among the lexemes. -/
def quotedParts (ls : List Lexeme) : List (Segment.Kind × List Char) :=
  (ls.filter (·.kind ≠ .bare)).map fun l => (l.kind, l.text)

/-- The literals and comments among segments. -/
def quotedSegments (ss : List Segment) : List (Segment.Kind × List Char) :=
  (ss.filter (·.kind ≠ .bare)).map fun s => (s.kind, s.text)

lemma quotedSegments_cons_bare (start : Nat) (text : List Char) (ss : List Segment) :
    quotedSegments (⟨.bare, start, text⟩ :: ss) = quotedSegments ss := rfl

/-- The literals and comments of a text are those of its lexemes. -/
lemma quotedSegments_segmentsFrom (start : Nat) (h : Reading d [] before ls) :
    quotedSegments (d.segmentsFrom start (textOf ls)) = quotedParts ls := by
  induction ls generalizing before start with
  | nil => rw [textOf_nil, Dialect.segmentsFrom_nil]; rfl
  | cons l ls ih =>
    have ih := fun start => ih start h.2
    have hl := h.1
    rw [List.append_nil] at hl
    rw [textOf_cons]
    cases hl with
    | @bare c cs token? ho hlex =>
      have hin := (Token.lexeme_inside (d := d) (congrArg Prod.snd hlex)).1
      have ih := ih (start + Text.width (c :: cs))
      rw [List.cons_append]
      -- the bare lexeme joins the segment behind it or is one of its own, and neither is quoted
      rcases segmentsFrom_append_of_unopened ho hin start with ⟨s, ss, e, hk, -, e'⟩ | ⟨-, e'⟩
      · obtain ⟨kind, at', text⟩ := s
        obtain rfl : kind = .bare := hk
        rw [e, quotedSegments_cons_bare] at ih
        rw [e', quotedSegments_cons_bare, ih]
        rfl
      · rw [e', quotedSegments_cons_bare, ih]
        rfl
    | literal hs =>
      rw [segmentsFrom_append_of_spells hs (by decide)]
      exact congrArg (List.cons _) (ih _)
    | comment hs =>
      rw [segmentsFrom_append_of_spells hs (by decide)]
      exact congrArg (List.cons _) (ih _)

lemma Reads.kind_of_isPlaceholder (h : l.Reads d before rest) (hp : l.isPlaceholder) :
    l.kind = .bare := by
  rcases h.text_of_isPlaceholder hp with e | ⟨name, e⟩
  · exact h.kind_eq_bare (by rw [e]; rfl) (by decide)
  · exact h.kind_eq_bare (by rw [e]; rfl) (by decide)

/-- Behind a colon there is no placeholder. -/
lemma Reads.not_isPlaceholder_of_colon (h : l.Reads d (some ':') rest) : ¬ l.isPlaceholder := by
  intro hp
  have hk := h.kind_of_isPlaceholder hp
  rw [isPlaceholder, beq_iff_eq] at hp
  cases h with
  | @bare c cs token? ho hlex =>
    obtain rfl : token? = some .placeholder := hp
    have hat := Token.at?_eq_lexeme (some ':') c (cs ++ rest)
    rw [hlex, if_pos rfl] at hat
    cases hs : Token.style (c :: (cs ++ rest).take cs.length) with
    | positional => exact (Token.at?_eq_positional_iff.1 (hs ▸ hat)).2.2 rfl
    | named name => exact (Token.at?_eq_named_iff.1 (hs ▸ hat)).1.2.1 rfl
  | literal => cases hk
  | comment => cases hk

/-- Question marks in the place of placeholders leave literals and comments. -/
lemma quotedParts_marked (h : Reading d rest before ls) (before' : Option Char) :
    quotedParts (marked Token.isHolder pos before' ls) = quotedParts ls := by
  induction ls generalizing pos before before' with
  | nil => rfl
  | cons l ls ih =>
    rw [marked, markAt, any_isHolder]
    split
    · next hp =>
      have hk := h.1.kind_of_isPlaceholder hp
      have hl : quotedParts (l :: ls) = quotedParts ls := by
        rw [quotedParts, List.filter_cons_of_neg (by simp [hk])]
        rfl
      rw [hl, ← ih h.2 (mark before').last?]
      rfl
    · have ih : quotedParts (marked Token.isHolder (pos + Text.width l.text) l.last? ls) =
          quotedParts ls := ih h.2 l.last?
      rw [quotedParts, quotedParts, List.filter_cons, List.filter_cons]
      split
      · exact congrArg (List.cons _) ih
      · exact ih

/-! ### The stretch of a lexeme -/

/-- The text stands at byte `n` in a bare one of the segments, and in it right behind `front`; in
front of the first segment stands `before`. -/
def StandsAt (ss : List Segment) (before : Option Char) (text : List Char) (n : Nat)
    (front : Option Char) : Prop :=
  ∃ xs s ys pre post, ss = xs ++ s :: ys ∧ s.kind = .bare ∧ s.text = pre ++ (text ++ post) ∧
    s.start + Text.width pre = n ∧ pre.getLast?.or (if xs = [] then before else none) = front

section StandsAt

variable {ss : List Segment} {s : Segment} {text w : List Char} {n start : Nat}
  {front : Option Char}

/-- Another segment in front. -/
lemma StandsAt.cons (h : StandsAt ss before text n front)
    (hb : (∃ s ∈ ss.head?, s.kind = .bare) → before = none) (before' : Option Char) :
    StandsAt (s :: ss) before' text n front := by
  obtain ⟨xs, s', ys, pre, post, rfl, hk, htext, hn, hfront⟩ := h
  refine ⟨s :: xs, s', ys, pre, post, rfl, hk, htext, hn, ?_⟩
  rw [← hfront, if_neg (List.cons_ne_nil s xs)]
  split
  · next hnil => rw [hb ⟨s', by rw [hnil]; rfl, hk⟩]
  · rfl

/-- More characters in the first segment. -/
lemma StandsAt.join (h : StandsAt (s :: ss) w.getLast? text n front) (hw : w ≠ [])
    (hs : s.start = start + Text.width w) (before' : Option Char) :
    StandsAt (⟨.bare, start, w ++ s.text⟩ :: ss) before' text n front := by
  obtain ⟨xs, s', ys, pre, post, e, hk, htext, hn, hfront⟩ := h
  cases xs with
  | nil =>
    obtain ⟨rfl, rfl⟩ := List.cons.inj e
    refine ⟨[], _, ss, w ++ pre, post, rfl, rfl, by rw [htext, List.append_assoc], ?_, ?_⟩
    · rw [← hn, hs, Text.width_append, Nat.add_assoc]
    · have hlast := List.getLast?_eq_some_getLast hw
      rw [← hfront, if_pos rfl, if_pos rfl, List.getLast?_append, Option.or_assoc, hlast,
        Option.some_or]
  | cons x xs =>
    obtain ⟨-, rfl⟩ := List.cons.inj e
    exact ⟨_ :: xs, s', ys, pre, post, rfl, hk, htext, hn, hfront⟩

end StandsAt

/-- **A lexeme of a bare stretch stands in a bare segment**, and in it behind what stands in front of
it among the lexemes. -/
theorem standsAt (start : Nat) (h : Reading d [] before (as ++ l :: bs)) (hl : l.kind = .bare) :
    StandsAt (d.segmentsFrom start (textOf (as ++ l :: bs))) before l.text
      (start + Text.width (textOf as)) (after before as) := by
  induction as generalizing before start with
  | nil =>
    have hread := h.1
    rw [List.append_nil] at hread
    cases hread with
    | @bare c cs token? ho hlex =>
      have hin := (Token.lexeme_inside (d := d) (congrArg Prod.snd hlex)).1
      -- the segment begins with the lexeme, and may go on behind it
      rcases segmentsFrom_append_of_unopened ho hin start with ⟨s, ss, -, -, -, e⟩ | ⟨-, e⟩
      · exact ⟨[], _, ss, [], s.text, e, rfl, rfl, rfl, rfl⟩
      · exact ⟨[], _, _, [], [], e, rfl, (List.append_nil _).symm, rfl, rfl⟩
    | literal => cases hl
    | comment => cases hl
  | cons k as ih =>
    have ih := ih (start + Text.width k.text) h.2
    rw [Nat.add_assoc, ← Text.width_append, ← textOf_cons] at ih
    have hread : k.Reads d before (textOf (as ++ l :: bs)) := by
      rw [← List.append_nil (textOf _)]
      exact h.1
    rw [List.cons_append, textOf_cons, after]
    cases hread with
    | @bare c cs token? ho hlex =>
      have hin := (Token.lexeme_inside (d := d) (congrArg Prod.snd hlex)).1
      dsimp only at ih ⊢
      rw [List.cons_append]
      -- the lexeme joins the segment behind it, or it is a segment of its own
      rcases segmentsFrom_append_of_unopened ho hin start with
        ⟨s, ss, e, -, hstart, hall⟩ | ⟨hne, hall⟩
      · rw [e] at ih
        rw [hall]
        exact ih.join (List.cons_ne_nil c cs) hstart before
      · rw [hall]
        refine ih.cons ?_ before
        rintro ⟨s, hs, hk⟩
        exact absurd hk (hne s hs)
    | literal hs =>
      rw [segmentsFrom_append_of_spells hs (by decide)]
      exact ih.cons (fun _ => rfl) before
    | comment hs =>
      rw [segmentsFrom_append_of_spells hs (by decide)]
      exact ih.cons (fun _ => rfl) before

/-- What stands in front of what follows is the last character of the last lexeme. -/
lemma exists_of_after {c : Char} (h : after none as = some c) :
    ∃ ks k, as = ks ++ [k] ∧ k.last? = some c := by
  rcases List.eq_nil_or_concat' as with rfl | ⟨ks, k, rfl⟩
  · cases h
  · rw [after_append] at h
    exact ⟨ks, k, rfl, h⟩

end Lexeme

namespace SqlText

variable {t : SqlText} {p : Placeholder}

/-- The literals and comments of the text, with their delimiters. -/
def quotedParts (t : SqlText) : List (Segment.Kind × List Char) :=
  (t.segments.filter (·.kind ≠ .bare)).map fun s => (s.kind, s.text)

lemma ReadAs.quotedParts {ls : List Lexeme} (h : t.ReadAs ls) :
    t.quotedParts = Lexeme.quotedParts ls := by
  have e := Lexeme.quotedSegments_segmentsFrom 0 h.reading
  rw [← h.chars] at e
  exact e

/-- **The positional form has the same literals and comments.** -/
theorem quotedParts_positional (t : SqlText) : t.positional.quotedParts = t.quotedParts := by
  obtain ⟨ls, h⟩ := t.exists_readAs
  rw [positional_eq_withMarks, (h.withMarks t.selects_isHolder).quotedParts, h.quotedParts,
    Lexeme.quotedParts_marked h.reading none]

/-! ### Placeholders that follow -/

/-- Right in front of the placeholder, in its bare stretch, stands a question mark, or a named
placeholder ends there. -/
def Follows (t : SqlText) (p : Placeholder) : Prop :=
  ∃ s ∈ t.bareSegments, ∃ pre post, s.text = pre ++ (p.text.toList ++ post) ∧
    p.offset = s.start + Text.width pre ∧
      (pre.getLast? = some '?' ∨
        pre ≠ [] ∧ ∃ q ∈ t.placeholders, q.isNamed ∧ q.span.stop = p.offset)

/-- The lexemes fall apart at a placeholder, which stands in a bare stretch. -/
lemma exists_stretch_of_mem_placeholders {ls : List Lexeme} (h : t.ReadAs ls)
    (hp : p ∈ t.placeholders) : ∃ as l bs s pre post, ls = as ++ l :: bs ∧ l.isPlaceholder ∧
      p.offset = Text.width (Lexeme.textOf as) ∧ s ∈ t.bareSegments ∧
      s.text = pre ++ (p.text.toList ++ post) ∧ p.offset = s.start + Text.width pre ∧
      pre.getLast? = Lexeme.after none as := by
  obtain ⟨u, hu, hk, hstyle, hoffset⟩ := exists_token_of_mem_placeholders hp
  have htext : p.text.toList = u.text := by
    have e := text_style hu hk p.ordinal p.offset
    rwa [← hstyle] at e
  rw [h.tokens] at hu
  obtain ⟨xs, ys, hxs⟩ := List.append_of_mem hu
  obtain ⟨as, l, bs, rfl, -, hl, -⟩ := Lexeme.exists_split hxs
  obtain ⟨hstart, hltext, hlk⟩ := Lexeme.start_of_tokenAt hl
  have hread := (Lexeme.reading_append.1 h.reading).2.1
  have hplace : l.isPlaceholder := by rw [Lexeme.isPlaceholder, hlk, hk]; rfl
  obtain ⟨xs, s, ys, pre, post, e, hs, hst, hw, hlast⟩ :=
    Lexeme.standsAt 0 h.reading (hread.kind_of_isPlaceholder hplace)
  rw [← h.chars] at e
  rw [Nat.zero_add] at hw hstart
  have hmem : s ∈ t.segments := by
    rw [segments, Dialect.segments, e]
    exact List.mem_append_right xs List.mem_cons_self
  refine ⟨as, l, bs, s, pre, post, rfl, hplace, by rw [hoffset, hstart],
    List.mem_filter.2 ⟨hmem, by simp [hs]⟩, by rw [hst, htext, hltext],
    by rw [hoffset, hstart, hw], ?_⟩
  rw [← hlast]
  split <;> exact Option.or_none.symm

/-- A byte of a text stands in one stretch. -/
lemma eq_of_stretches {s s' : Segment} (hs : s ∈ t.segments) (hs' : s' ∈ t.segments)
    {pre pre' post post' : List Char} {c : Char} (e : s.text = pre ++ c :: post)
    (e' : s'.text = pre' ++ c :: post')
    (hw : s.start + Text.width pre = s'.start + Text.width pre') : pre = pre' := by
  have hc := c.utf8Size_pos
  have hstop : s.stop = s.start + (Text.width pre + (c.utf8Size + Text.width post)) := by
    rw [Segment.stop, e, Text.width_append, Text.width_cons]
  have hstop' : s'.stop = s'.start + (Text.width pre' + (c.utf8Size + Text.width post')) := by
    rw [Segment.stop, e', Text.width_append, Text.width_cons]
  obtain rfl : s = s' := by
    by_contra hne
    rcases stop_le_or_of_mem_segments hs hs' hne with hle | hle
    · omega
    · omega
  have hwidth : Text.width pre = Text.width pre' := Nat.add_left_cancel hw
  have htake := congrArg (Text.takeBytes (Text.width pre)) (e.symm.trans e')
  rwa [Text.takeBytes_width_append, hwidth, Text.takeBytes_width_append] at htake

lemma exists_cons_text (p : Placeholder) : ∃ c cs, p.text.toList = c :: cs := by
  refine List.exists_cons_of_ne_nil fun e => ?_
  have hw := p.width_text_pos
  rw [e, Text.width_nil] at hw
  exact Nat.lt_irrefl 0 hw

/-- A token that is a placeholder is listed as one. -/
lemma exists_placeholder_of_mem_tokens {u : Token} (hu : u ∈ t.tokens) (hk : u.kind = .placeholder) :
    ∃ p ∈ t.placeholders, p.style = Token.style u.text ∧ p.offset = u.start ∧
      p.span.stop = u.stop := by
  have hp : (Token.style u.text, u.start) ∈ t.placeholders.map fun p => (p.style, p.offset) := by
    rw [map_style_offset]
    exact List.mem_filterMap.2 ⟨u, hu, Token.placeholder?_eq_some_iff.2 ⟨hk, rfl⟩⟩
  obtain ⟨⟨style, ordinal, offset⟩, hp, e⟩ := List.mem_map.1 hp
  obtain ⟨rfl, rfl⟩ : style = Token.style u.text ∧ offset = u.start := Prod.mk.inj e
  exact ⟨_, hp, rfl, rfl, congrArg Span.stop (span_style hu hk ordinal)⟩

/-- In front of a placeholder that follows stands a token that bars it. -/
lemma Follows.exists_token {u : Token} (h : t.Follows p) (hp : p ∈ t.placeholders)
    (hu : p.offset = u.start) :
    ∃ v ∈ t.tokens, v.stop = u.start ∧ (Token.isHolder v ∨ v.text = ['?']) := by
  obtain ⟨s, hs, pre, post, e, hoffset, hquestion | ⟨-, q, hq, -, hstop⟩⟩ := h
  · obtain ⟨ls, h⟩ := t.exists_readAs
    obtain ⟨as, l, bs, s', pre', post', rfl, -, hwidth, hs', e', hoffset', hlast⟩ :=
      exists_stretch_of_mem_placeholders h hp
    obtain ⟨c, cs, hc⟩ := exists_cons_text p
    rw [hc] at e e'
    obtain rfl : pre = pre' := eq_of_stretches (List.mem_filter.1 hs).1
      (List.mem_filter.1 hs').1 e e' (hoffset.symm.trans hoffset')
    rw [hquestion] at hlast
    -- the lexeme in front is a question mark alone
    obtain ⟨ks, k, rfl, hkl⟩ := Lexeme.exists_of_after hlast.symm
    have hread := (Lexeme.reading_append.1 (Lexeme.reading_append.1 h.reading).1).2.1
    have htext := hread.text_of_last? hkl (.inl rfl)
    have hmark := hread.eq_mark (by rw [htext]; rfl)
    obtain ⟨v, hv⟩ : ∃ v, k.tokenAt (0 + Text.width (Lexeme.textOf ks)) = some v := by
      rw [hmark]
      exact ⟨_, rfl⟩
    obtain ⟨hvstart, hvtext, -⟩ := Lexeme.start_of_tokenAt hv
    refine ⟨v, ?_, ?_, .inr (hvtext.trans htext)⟩
    · rw [h.tokens, Lexeme.tokens_append, Lexeme.tokens_append]
      exact List.mem_append_left _ (List.mem_append_right _ (Lexeme.mem_tokens_head hv))
    · rw [Token.stop, hvstart, hvtext, ← hu, hwidth, Lexeme.textOf_append,
        Text.width_append, Nat.zero_add, Lexeme.textOf_cons, Lexeme.textOf_nil, List.append_nil]
  · obtain ⟨v, hv, hk, hstyle, hstart⟩ := exists_token_of_mem_placeholders hq
    have hspan := span_style hv hk q.ordinal
    rw [← hstyle, ← hstart] at hspan
    exact ⟨v, hv, (congrArg Span.stop hspan).symm.trans (hstop.trans hu),
      .inl (beq_iff_eq.2 hk)⟩

/-- A placeholder right behind a token that bars it follows. -/
lemma follows_of_token {v : Token} (hp : p ∈ t.placeholders) (hv : v ∈ t.tokens)
    (hstop : v.stop = p.offset)
    (hfront : Token.isHolder v ∨ v.text = ['?'] ∨ v.text = [':']) : t.Follows p := by
  obtain ⟨ls, h⟩ := t.exists_readAs
  obtain ⟨as, l, bs, s, pre, post, rfl, hl, hwidth, hs, e, hpre, hlast⟩ :=
    exists_stretch_of_mem_placeholders h hp
  have hne := h.ne_nil
  have hv' := hv
  rw [h.tokens] at hv'
  -- the token in front is the lexeme in front
  obtain ⟨ks, k, rfl⟩ : ∃ ks k, as = ks ++ [k] := by
    rcases List.eq_nil_or_concat' as with rfl | hks
    · have := Lexeme.stop_of_mem_tokens hne hv'
      rw [Lexeme.textOf_nil, Text.width_nil] at hwidth
      omega
    · exact hks
  rw [List.append_assoc, List.singleton_append] at hv' hne
  have hkt := Lexeme.tokenAt_of_stop_eq hne hv' (by
    rw [hstop, hwidth, Lexeme.textOf_append, Text.width_append, Nat.zero_add,
      Lexeme.textOf_cons, Lexeme.textOf_nil, List.append_nil])
  obtain ⟨-, hvtext, hvk⟩ := Lexeme.start_of_tokenAt hkt
  have hread := (Lexeme.reading_append.1 (Lexeme.reading_append.1 h.reading).1).2.1
  have hlread := (Lexeme.reading_append.1 h.reading).2.1
  have hafter : Lexeme.after none (ks ++ [k]) = k.last? := by rw [Lexeme.after_append]; rfl
  rw [hafter] at hlast hlread
  refine ⟨s, hs, pre, post, e, hpre, ?_⟩
  by_cases hquestion : k.text = ['?']
  · exact .inl (hlast.trans (hread.last?_of_text hquestion (.inl rfl)))
  by_cases hcolon : k.text = [':']
  · rw [hread.last?_of_text hcolon (.inr rfl)] at hlread
    exact absurd hl (hlread.not_isPlaceholder_of_colon)
  -- a named placeholder ends here
  have hholder : v.isHolder := hfront.resolve_right (not_or.2 ⟨hvtext ▸ hquestion, hvtext ▸ hcolon⟩)
  have hvholder : v.kind = .placeholder := beq_iff_eq.1 hholder
  have hkp : k.isPlaceholder := by rw [Lexeme.isPlaceholder, hvk, hvholder]; rfl
  obtain ⟨name, ht⟩ := (hread.text_of_isPlaceholder hkp).resolve_left hquestion
  obtain ⟨q, hq, hqstyle, -, hqstop⟩ := exists_placeholder_of_mem_tokens hv hvholder
  refine .inr ⟨?_, q, hq, ?_, hqstop.trans hstop⟩
  · rintro rfl
    rw [Lexeme.last?, if_pos (hread.kind_of_isPlaceholder hkp), ht, List.getLast?_cons] at hlast
    cases hlast
  · rw [Placeholder.isNamed, Placeholder.name?, hqstyle, hvtext, ht]
    rfl

/-- **Placeholders are crowded exactly when one of them follows.** -/
theorem exists_follows_iff : (∃ p ∈ t.placeholders, t.Follows p) ↔ t.Crowds Token.isHolder := by
  constructor
  · rintro ⟨p, hp, hfollows⟩
    obtain ⟨u, hu, hk, -, hustart⟩ := exists_token_of_mem_placeholders hp
    obtain ⟨v, hv, hstop, hfront⟩ := hfollows.exists_token hp hustart
    exact ⟨u, hu, beq_iff_eq.2 hk, v, hv, hstop, hfront.imp_right .inl⟩
  · rintro ⟨u, hu, hk, v, hv, hstop, hfront⟩
    obtain ⟨p, hp, -, hoffset, -⟩ := exists_placeholder_of_mem_tokens hu (beq_iff_eq.1 hk)
    exact ⟨p, hp, follows_of_token hp hv (hstop.trans hoffset.symm) hfront⟩

/-! ### The positional form -/

/-- No named placeholder is left. -/
lemma not_isNamed_positional (hp : p ∈ t.positional.placeholders) : ¬ p.isNamed := by
  rw [positional_eq_withMarks] at hp
  rw [Placeholder.isNamed, Placeholder.name?,
    style_of_mem_placeholders_withMarks t.selects_isHolder hp]
  exact Bool.false_ne_true

/-- **Question marks in the place of placeholders.** Written for every placeholder or for the named
ones, they give one text. It has the literals and comments of the text and no named placeholder. No
placeholder is new, and one is lost exactly when one follows. -/
theorem positional_exact (t : SqlText) :
    (∀ statement supplied, (Analysis.mk t t.placeholders statement supplied).allPositional =
      t.positionalText) ∧
    t.positional.quotedParts = t.quotedParts ∧
    (∀ p ∈ t.positional.placeholders, ¬ p.isNamed) ∧
    t.positional.placeholders.length ≤ t.placeholders.length ∧
    (t.positional.placeholders.length = t.placeholders.length ↔
      ¬ ∃ p ∈ t.placeholders, t.Follows p) := by
  refine ⟨fun _ _ => allPositional_eq rfl, t.quotedParts_positional,
    fun _ => not_isNamed_positional, t.length_positional_le, ?_⟩
  rw [exists_follows_iff, ← length_placeholders_withMarks_iff t.selects_isHolder,
    ← positional_eq_withMarks, length_filter_isHolder]

end SqlText

end QueryGuard
