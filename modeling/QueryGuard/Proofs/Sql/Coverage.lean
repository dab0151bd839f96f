import QueryGuard.Proofs.Sql.Occurrence

/-!
What of a text its tokens cover. A bare stretch is read as white space and tokens, one behind the
other, so each of its characters is white space or stands in a token. Main statement: the tokens
cover the literals, one by one, and the characters of bare stretches that are no white space, and no
others.
-/

namespace QueryGuard

/-! ### Ranges in one another -/

/-- The range lies in the other. -/
def Span.Within (a b : Span) : Prop := b.start ≤ a.start ∧ a.stop ≤ b.stop

/-- The ranges have a byte in common. -/
def Span.Meets (a b : Span) : Prop := ∃ n, (a.start ≤ n ∧ n < a.stop) ∧ (b.start ≤ n ∧ n < b.stop)

namespace Span

variable {a a' b b' : Span}

/-- Ranges one behind the other have no byte in common. -/
lemma not_meets_of_stop_le (h : a.stop ≤ b.start ∨ b.stop ≤ a.start) : ¬ a.Meets b := by
  rintro ⟨n, ⟨han, hna⟩, hbn, hnb⟩
  omega

lemma Meets.mono (h : a.Meets b) (ha : a.Within a') (hb : b.Within b') : a'.Meets b' := by
  obtain ⟨n, ⟨han, hna⟩, hbn, hnb⟩ := h
  exact ⟨n, ⟨ha.1.trans han, hna.trans_le ha.2⟩, hb.1.trans hbn, hnb.trans_le hb.2⟩

lemma Within.refl (a : Span) : a.Within a := ⟨Nat.le_refl _, Nat.le_refl _⟩

end Span

/-- The bytes of the segment. -/
def Segment.span (s : Segment) : Span := ⟨s.start, s.stop⟩

/-- The bytes of the character `c` of the segment, which stands behind `pre`. -/
def Segment.charSpan (s : Segment) (pre : List Char) (c : Char) : Span :=
  ⟨s.start + Text.width pre, s.start + Text.width pre + c.utf8Size⟩

/-- A character stands in front of a cut of the text, or behind it. -/
lemma Text.mem_or_of_append_eq {x : Char} {as bs pre post : List Char}
    (e : as ++ bs = pre ++ x :: post) : (∃ mid, as = pre ++ x :: mid) ∨
      ∃ pre', pre = as ++ pre' ∧ bs = pre' ++ x :: post := by
  rcases List.append_eq_append_iff.1 e with ⟨pre', rfl, hbs⟩ | ⟨_ | ⟨y, mid⟩, has, hpost⟩
  · exact .inr ⟨pre', rfl, hbs⟩
  · rw [List.append_nil] at has
    exact .inr ⟨[], by rw [has, List.append_nil], hpost.symm⟩
  · obtain ⟨rfl, -⟩ := List.cons.inj hpost
    exact .inl ⟨mid, has⟩

/-! ### White space in lexemes -/

namespace Token

variable {before : Option Char} {c x : Char} {cs : List Char} {kind : Kind}

/-- A class of characters that has no white space in it. -/
lemma isBlank_of_class {p : Char → Bool}
    (hp : Lexeme.blankCodes.all fun n => !p (Char.ofNat n)) (h : p c) : Text.isBlank c = false := by
  by_contra hb
  have hc := List.all_eq_true.1 hp _ (Lexeme.toNat_mem_blankCodes (by simpa using hb))
  rw [Char.ofNat_toNat, h] at hc
  cases hc

lemma isBlank_of_continuesWord (h : continuesWord c) : Text.isBlank c = false :=
  isBlank_of_class (p := continuesWord) (by decide +kernel) h

lemma isBlank_of_continuesName (h : Placeholder.continuesName c) : Text.isBlank c = false :=
  isBlank_of_continuesWord <| by
    rw [continuesWord, ← Placeholder.continuesName, h, Bool.true_or]

lemma isBlank_of_joinsMarks (h : joinsMarks c) : Text.isBlank c = false :=
  isBlank_of_class (p := joinsMarks) (by decide +kernel) h

/-- What a number goes on with is no white space. -/
lemma isBlank_of_mem_number (h : x ∈ cs.take (numberLength cs)) : Text.isBlank x = false := by
  refine isBlank_of_joinsMarks ?_
  rw [numberLength, List.take_add, Text.take_length_takeWhile] at h
  rcases List.mem_append.1 h with h | h
  · exact joinsMarks_of_isDigitOrPoint (List.mem_takeWhile_imp h)
  · rcases take_exponentLength (cs.drop (cs.takeWhile isDigitOrPoint).length) with
      e | ⟨e, sign, digits, hx, he, hs, -, hd⟩
    · rw [e] at h
      cases h
    · rw [hx] at h
      rcases List.mem_cons.1 h with rfl | h
      · rcases he with rfl | rfl <;> decide
      · rcases List.mem_append.1 h with h | h
        · rcases hs with rfl | rfl | rfl
          · cases h
          · obtain rfl := List.mem_singleton.1 h
            decide
          · obtain rfl := List.mem_singleton.1 h
            decide
        · exact joinsMarks_of_isDigit (hd x h)

/-- What a lexeme can be: white space, or a token that begins with none. -/
lemma lexeme_cases (before : Option Char) (c : Char) (cs : List Char) :
    (Text.isBlank c ∧ lexeme before c cs = (none, 0)) ∨
    Text.isBlank c = false ∧ ∃ kind n, lexeme before c cs = (some kind, n) ∧
      (n = 0 ∨ n = (cs.takeWhile Placeholder.continuesName).length ∨
        n = (cs.takeWhile continuesWord).length ∨ n = numberLength cs) := by
  unfold lexeme
  split
  · next hat =>
    obtain ⟨rfl, -, -⟩ := at?_eq_positional_iff.1 hat
    exact .inr ⟨by decide, _, _, rfl, .inl rfl⟩
  · next name hat =>
    obtain ⟨⟨rfl, -, -⟩, -⟩ := at?_eq_named_iff.1 hat
    exact .inr ⟨by decide, _, _, rfl, .inr (.inl rfl)⟩
  · split
    · next hb => exact .inl ⟨hb, rfl⟩
    · next hb =>
      refine .inr ⟨by simpa using hb, ?_⟩
      split
      · exact ⟨_, _, rfl, .inr (.inr (.inl rfl))⟩
      · split
        · exact ⟨_, _, rfl, .inr (.inr (.inr rfl))⟩
        · exact ⟨_, _, rfl, .inl rfl⟩

/-- A lexeme is one character of white space, or a token without any. -/
lemma lexeme_isBlank (before : Option Char) (c : Char) (cs : List Char) :
    (Text.isBlank c ∧ lexeme before c cs = (none, 0)) ∨
      ∃ kind n, lexeme before c cs = (some kind, n) ∧
        ∀ x ∈ c :: cs.take n, Text.isBlank x = false := by
  rcases lexeme_cases before c cs with h | ⟨hc, kind, n, e, hn⟩
  · exact .inl h
  · refine .inr ⟨kind, n, e, List.forall_mem_cons.2 ⟨hc, fun x hx => ?_⟩⟩
    rcases hn with rfl | rfl | rfl | rfl
    · rw [List.take_zero] at hx
      cases hx
    · rw [Text.take_length_takeWhile] at hx
      exact isBlank_of_continuesName (List.mem_takeWhile_imp hx)
    · rw [Text.take_length_takeWhile] at hx
      exact isBlank_of_continuesWord (List.mem_takeWhile_imp hx)
    · exact isBlank_of_mem_number hx

/-! ### Tokens of a stretch -/

/-- A token of a stretch is a part of it, without white space. -/
theorem exists_parts_of_mem_inStretch {u : Token} (pos : Nat) (before : Option Char) :
    ∀ cs : List Char, u ∈ inStretch pos before cs →
      (∃ pre post, cs = pre ++ (u.text ++ post) ∧ u.start = pos + Text.width pre) ∧
        ∀ x ∈ u.text, Text.isBlank x = false
  | [], h => by rw [inStretch_nil] at h; exact absurd h List.not_mem_nil
  | c :: cs, h => by
    rw [inStretch_cons] at h
    rcases List.mem_append.1 h with h | h
    · obtain ⟨kind, hk, rfl⟩ := Option.map_eq_some_iff.1 (Option.mem_toList.1 h)
      refine ⟨⟨[], cs.drop (lexeme before c cs).2, ?_, rfl⟩, ?_⟩
      · rw [List.nil_append, List.cons_append, List.take_append_drop]
      · rcases lexeme_isBlank before c cs with ⟨-, e⟩ | ⟨kind', n, e, hblank⟩
        · rw [e] at hk
          cases hk
        · rw [e]
          exact hblank
    · obtain ⟨⟨pre, post, e, hstart⟩, hblank⟩ :=
        exists_parts_of_mem_inStretch _ _ (cs.drop (lexeme before c cs).2) h
      refine ⟨⟨c :: cs.take (lexeme before c cs).2 ++ pre, post, ?_, ?_⟩, hblank⟩
      · rw [List.append_assoc, ← e, List.cons_append, List.take_append_drop]
      · rw [hstart, Text.width_append, Nat.add_assoc]
  termination_by cs => cs.length
  decreasing_by simp only [List.length_drop, List.length_cons]; omega

/-- **Every character of a stretch that is no white space stands in a token.** -/
theorem exists_mem_inStretch {x : Char} (hx : Text.isBlank x = false) (pos : Nat)
    (before : Option Char) : ∀ cs pre post : List Char, cs = pre ++ x :: post →
      ∃ u ∈ inStretch pos before cs,
        u.start ≤ pos + Text.width pre ∧ pos + Text.width pre + x.utf8Size ≤ u.stop
  | [], pre, post, e => by simp at e
  | c :: cs, pre, post, e => by
    have hcut : c :: cs.take (lexeme before c cs).2 ++ cs.drop (lexeme before c cs).2 =
        c :: cs := by
      rw [List.cons_append, List.take_append_drop]
    rw [inStretch_cons]
    rcases Text.mem_or_of_append_eq (hcut.trans e) with ⟨mid, htext⟩ | ⟨pre', rfl, hdrop⟩
    · -- the character stands in the first lexeme, which is then no white space
      rcases lexeme_isBlank before c cs with ⟨hb, hlex⟩ | ⟨kind, n, hlex, -⟩
      · have hmem : x ∈ c :: cs.take (lexeme before c cs).2 := by
          rw [htext]
          exact List.mem_append_right pre List.mem_cons_self
        rw [hlex] at hmem
        obtain rfl := List.mem_singleton.1 hmem
        rw [hx] at hb
        cases hb
      · refine ⟨⟨kind, pos, c :: cs.take (lexeme before c cs).2⟩, ?_, Nat.le_add_right _ _, ?_⟩
        · rw [hlex]
          exact List.mem_append_left _ (List.mem_singleton.2 rfl)
        · rw [stop, htext, Text.width_append, Text.width_cons]
          dsimp only
          omega
    -- it stands in the rest, which is read on from its first byte
    · obtain ⟨u, hu, hstart, hstop⟩ := exists_mem_inStretch hx
        (pos + Text.width (c :: cs.take (lexeme before c cs).2)) _
        (cs.drop (lexeme before c cs).2) pre' post hdrop
      refine ⟨u, List.mem_append_right _ hu, ?_, ?_⟩
      · rwa [Text.width_append, ← Nat.add_assoc]
      · rwa [Text.width_append, ← Nat.add_assoc]
  termination_by cs => cs.length
  decreasing_by simp only [List.length_drop, List.length_cons]; omega

end Token

/-- A token of a segment is a part of it. Of a comment there is none, and a token of a bare stretch
has no white space. -/
lemma Token.exists_parts_of_mem_ofSegment {d : Dialect} {s : Segment} {u : Token}
    (h : u ∈ ofSegment d s) : ∃ pre post, s.text = pre ++ (u.text ++ post) ∧
      u.start = s.start + Text.width pre ∧
        (s.kind = .bare → ∀ x ∈ u.text, Text.isBlank x = false) := by
  obtain ⟨kind, start, text⟩ := s
  cases kind with
  | bare =>
    obtain ⟨⟨pre, post, e, hstart⟩, hblank⟩ := exists_parts_of_mem_inStretch start none text h
    exact ⟨pre, post, e, hstart, fun _ => hblank⟩
  | literal =>
    obtain rfl := List.mem_singleton.1 h
    exact ⟨[], [], by simp, rfl, nofun⟩
  | comment => exact absurd h List.not_mem_nil

lemma Token.within_of_mem_ofSegment {d : Dialect} {s : Segment} {u : Token}
    (h : u ∈ ofSegment d s) : u.span.Within s.span := by
  obtain ⟨pre, post, e, hstart, -⟩ := exists_parts_of_mem_ofSegment h
  refine ⟨?_, ?_⟩
  · rw [Token.span, hstart]
    exact Nat.le_add_right _ _
  · rw [Token.span, Token.stop, hstart, Segment.span, Segment.stop, e, Text.width_append,
      Text.width_append]
    dsimp only
    omega

/-- A token of a bare stretch has no byte of its white space. -/
lemma Token.not_meets_blank {d : Dialect} {s : Segment} {u : Token} (h : u ∈ ofSegment d s)
    (hs : s.kind = .bare) {pre post : List Char} {c : Char} (e : s.text = pre ++ c :: post)
    (hc : Text.isBlank c) : ¬ u.span.Meets (s.charSpan pre c) := by
  obtain ⟨front, back, hparts, hstart, hblank⟩ := exists_parts_of_mem_ofSegment h
  rcases Text.mem_or_of_append_eq (hparts.symm.trans e) with ⟨mid, rfl⟩ | ⟨pre', rfl, hrest⟩
  · -- the character stands in front of the token
    refine Span.not_meets_of_stop_le (.inr ?_)
    rw [Text.width_append, Text.width_cons] at hstart
    rw [Segment.charSpan, Token.span, hstart]
    dsimp only
    omega
  · rcases Text.mem_or_of_append_eq hrest with ⟨mid, htext⟩ | ⟨later, rfl, -⟩
    · have hmem : c ∈ u.text := htext ▸ List.mem_append_right pre' List.mem_cons_self
      rw [hblank hs c hmem] at hc
      cases hc
    · refine Span.not_meets_of_stop_le (.inl ?_)
      rw [Segment.charSpan, Token.span, Token.stop, hstart, Text.width_append, Text.width_append]
      dsimp only
      omega

/-! ### Tokens of a text -/

namespace SqlText

variable {t : SqlText} {u : Token} {s : Segment}

/-- Tokens that have a byte in common are one. -/
lemma eq_of_meets {v : Token} (hu : u ∈ t.tokens) (hv : v ∈ t.tokens)
    (h : u.span.Meets v.span) : u = v := by
  have hsymm : t.tokens.Pairwise fun a b => a.stop ≤ b.start ∨ b.stop ≤ a.start :=
    t.pairwise_stop_tokens.imp .inl
  have : Std.Symm fun a b : Token => a.stop ≤ b.start ∨ b.stop ≤ a.start := ⟨fun _ _ => Or.symm⟩
  by_contra hne
  exact Span.not_meets_of_stop_le (hsymm.forall hu hv hne) h

/-- A token that has a byte of a segment is one of the tokens of the segment. -/
lemma mem_ofSegment_of_meets {r : Span} (hu : u ∈ t.tokens) (hs : s ∈ t.segments)
    (hr : r.Within s.span) (h : u.span.Meets r) : u ∈ Token.ofSegment t.dialect s := by
  obtain ⟨s', hs', hus⟩ := List.mem_flatMap.1 hu
  obtain rfl : s' = s := by
    by_contra hne
    have hmeets : s'.span.Meets s.span := h.mono (Token.within_of_mem_ofSegment hus) hr
    exact Span.not_meets_of_stop_le (stop_le_or_of_mem_segments hs' hs hne) hmeets
  exact hus

lemma charSpan_within {pre post : List Char} {c : Char} (e : s.text = pre ++ c :: post) :
    (s.charSpan pre c).Within s.span := by
  refine ⟨Nat.le_add_right _ _, ?_⟩
  rw [Segment.charSpan, Segment.span, Segment.stop, e, Text.width_append, Text.width_cons]
  dsimp only
  omega

/-- What the tokens `us` of a text cover: each literal is one of them, in a bare stretch all but the
white space stands in them, and nothing of a comment does. -/
structure Covers (t : SqlText) (us : List Token) : Prop where
  nonempty : ∀ u ∈ us, u.start < u.stop
  ordered : us.Pairwise fun u v => u.start < v.start ∧ u.stop ≤ v.start
  /-- The text may be cut around a token, which lies in one segment. -/
  inside : ∀ u ∈ us, u.span.Fits t.chars ∧ t.slice u.start u.stop = u.text ∧
    ∃ s ∈ t.segments, u.span.Within s.span
  literal : ∀ s ∈ t.segments, s.kind = .literal →
    ∃ u ∈ us, u.span = s.span ∧ ∀ v ∈ us, v.span.Meets s.span → v = u
  bare : ∀ s ∈ t.segments, s.kind = .bare → ∀ pre c post, s.text = pre ++ c :: post →
    Text.isBlank c = false → ∃ u ∈ us, (s.charSpan pre c).Within u.span ∧
      ∀ v ∈ us, v.span.Meets (s.charSpan pre c) → v = u
  blank : ∀ s ∈ t.segments, s.kind = .bare → ∀ pre c post, s.text = pre ++ c :: post →
    Text.isBlank c → ∀ u ∈ us, ¬ u.span.Meets (s.charSpan pre c)
  comment : ∀ s ∈ t.segments, s.kind = .comment → ∀ u ∈ us, ¬ u.span.Meets s.span

/-- **The tokens of a text lose nothing of it.** -/
theorem covers_tokens (t : SqlText) : t.Covers t.tokens where
  nonempty u hu := start_lt_stop hu
  ordered := t.pairwise_lt_tokens.and t.pairwise_stop_tokens
  inside u hu := by
    obtain ⟨s, hs, hus⟩ := List.mem_flatMap.1 hu
    exact ⟨fits_span hu, slice_span hu, s, hs, Token.within_of_mem_ofSegment hus⟩
  literal s hs hk := by
    have htokens : Token.ofSegment t.dialect s =
        [⟨Token.literalKind t.dialect s.text.head?, s.start, s.text⟩] := by
      rw [Token.ofSegment, hk]
    refine ⟨⟨Token.literalKind t.dialect s.text.head?, s.start, s.text⟩, ?_, rfl, fun v hv h => ?_⟩
    · exact List.mem_flatMap.2 ⟨s, hs, htokens ▸ List.mem_singleton.2 rfl⟩
    · have hvs := mem_ofSegment_of_meets hv hs (.refl _) h
      rw [htokens] at hvs
      exact List.mem_singleton.1 hvs
  bare s hs hk pre c post e hc := by
    obtain ⟨u, hus, hstart, hstop⟩ := Token.exists_mem_inStretch hc s.start none s.text pre post e
    have hu : u ∈ t.tokens := List.mem_flatMap.2 ⟨s, hs, by rwa [Token.ofSegment, hk]⟩
    exact ⟨u, hu, ⟨hstart, hstop⟩, fun v hv h =>
      eq_of_meets hv hu (h.mono (.refl _) ⟨hstart, hstop⟩)⟩
  blank s hs hk pre c post e hc u hu h :=
    Token.not_meets_blank (mem_ofSegment_of_meets hu hs (charSpan_within e) h) hk e hc h
  comment s hs hk u hu h := by
    have hus := mem_ofSegment_of_meets hu hs (.refl _) h
    rw [Token.ofSegment, hk] at hus
    cases hus

end SqlText

end QueryGuard
