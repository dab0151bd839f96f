import QueryGuard.Proofs.Sql.Stretch
import QueryGuard.Review

/-!
Comments. A text in which every comment is blanked out is cut into the same literals, and into bare
stretches that are parted by blanks where comments stood. Main statement: nothing that is found in
a text depends on its comments.
-/

namespace QueryGuard

open Grammar

variable {d : Dialect} {β : Type}

/-! ### Blanked pieces -/

/-- The piece, where a comment is as many blanks as it has bytes. -/
def Grammar.Piece.blank (p : Piece Char) : Piece Char :=
  if p.kind = .comment then ⟨.bare, List.replicate (Text.width p.text) ' '⟩ else p

lemma blank_of_comment {p : Piece Char} (h : p.kind = .comment) :
    p.blank = ⟨.bare, List.replicate (Text.width p.text) ' '⟩ := if_pos h

lemma blank_of_ne {p : Piece Char} (h : p.kind ≠ .comment) : p.blank = p := if_neg h

lemma width_replicate_blank (n : Nat) : Text.width (List.replicate n ' ') = n := by
  have hw : ' '.utf8Size = 1 := by decide
  induction n with
  | zero => rfl
  | succ n ih => rw [List.replicate_succ, Text.width_cons, ih, hw, Nat.add_comm]

lemma width_blank (p : Piece Char) : Text.width p.blank.text = Text.width p.text := by
  by_cases h : p.kind = .comment
  · rw [blank_of_comment h, width_replicate_blank]
  · rw [blank_of_ne h]

lemma kind_blank_ne (p : Piece Char) : p.blank.kind ≠ .comment := by
  by_cases h : p.kind = .comment
  · simp [blank_of_comment h]
  · rwa [blank_of_ne h]

lemma blank_ne_nil {p : Piece Char} (h : p.text ≠ []) : p.blank.text ≠ [] := by
  intro hn
  have hw := Text.width_pos h
  rw [← width_blank, hn] at hw
  exact Nat.lt_irrefl _ hw

/-- A blanked text begins as the text does, or with a blank. -/
lemma head?_textOf_blank {ps : List (Piece Char)} (hne : ∀ p ∈ ps, p.text ≠ []) :
    (textOf (ps.map Piece.blank)).head? = (textOf ps).head? ∨
      textOf ps ≠ [] ∧ (textOf (ps.map Piece.blank)).head? = some ' ' := by
  cases ps with
  | nil => exact .inl rfl
  | cons p ps =>
    have hp := hne p List.mem_cons_self
    by_cases h : p.kind = .comment
    · have hw := Text.width_pos hp
      refine .inr ⟨by simp [hp], ?_⟩
      obtain ⟨n, hn⟩ := Nat.exists_eq_succ_of_ne_zero hw.ne'
      rw [List.map_cons, textOf_cons, blank_of_comment h, hn]
      rfl
    · left
      obtain ⟨c, cs, hc⟩ := List.exists_cons_of_ne_nil hp
      rw [List.map_cons, textOf_cons, textOf_cons, blank_of_ne h, hc]
      rfl

/-! ### A blanked text is cut as the text is -/

lemma not_opens_blank (o : Opener) (cs : List Char) : ¬ Opens id d o (' ' :: cs) := by
  generalize hs : ' ' :: cs = s
  intro h
  cases h with
  | quote q => cases q <;> cases hs
  | _ => cases hs

/-- A blank behind a text makes no opener. -/
lemma opens_append_blank {o : Opener} {s : List Char} (hs : s ≠ []) :
    Opens id d o (s ++ [' ']) → Opens id d o s := by
  rcases s with _ | ⟨a, _ | ⟨b, s⟩⟩
  · exact absurd rfl hs
  · intro h
    cases h with
    | quote q => exact .quote q _
    | hash _ hd => exact .hash _ hd
  · intro h
    cases h with
    | quote q => exact .quote q _
    | dashes => exact .dashes _
    | hash _ hd => exact .hash _ hd
    | block => exact .block _

lemma spells_blanks {n : Nat} (hn : n ≠ 0) (next : Option Char) :
    Spells id d .bare (List.replicate n ' ') next := by
  refine .bare (by simpa using hn) fun a b o e hb => ?_
  obtain ⟨c, b, rfl⟩ := List.exists_cons_of_ne_nil hb
  have hc : c ∈ List.replicate n ' ' := by rw [e]; simp
  obtain rfl := List.eq_of_mem_replicate hc
  exact not_opens_blank o _

/-- What is spelled in front of a text is spelled in front of a blank. -/
lemma Grammar.Spells.before_blank {k : Segment.Kind} {a : List Char} {c : Char}
    (h : Spells id d k a (some c)) (hk : k ≠ .comment) : Spells id d k a (some ' ') := by
  cases h with
  | bare hne hno =>
    refine .bare hne fun x y o e hy ho => hno x y o e hy ?_
    exact (opens_append_blank hy ho).append _
  | closedLiteral hb _ => exact .closedLiteral hb (by cases ‹Quote› <;> decide)
  | line => exact absurd rfl hk
  | closedBlock => exact absurd rfl hk

/-- **A blanked text is put together from the blanked pieces.** -/
theorem Grammar.Lexes.blank {ps : List (Piece Char)} (h : Lexes id d ps) :
    Lexes id d (ps.map Piece.blank) := by
  induction ps with
  | nil => trivial
  | cons p ps ih =>
    refine ⟨?_, ih h.2⟩
    by_cases hk : p.kind = .comment
    · rw [blank_of_comment hk]
      exact spells_blanks (Text.width_pos h.1.ne_nil).ne' _
    · rw [blank_of_ne hk]
      have hp := h.1
      rcases head?_textOf_blank h.2.text_ne_nil with e | ⟨hne, e⟩
      · rwa [e]
      · obtain ⟨c, cs, hc⟩ := List.exists_cons_of_ne_nil hne
        rw [hc] at hp
        rw [e]
        exact hp.before_blank hk

lemma exists_blanks_of_comment {p : Piece Char} (h : p.kind = .comment) (hne : p.text ≠ []) :
    ∃ n, p.blank = ⟨.bare, List.replicate (n + 1) ' '⟩ := by
  obtain ⟨n, hn⟩ := Nat.exists_eq_succ_of_ne_zero (Text.width_pos hne).ne'
  exact ⟨n, by rw [blank_of_comment h, hn]⟩

/-- Where a comment was blanked out there is a blank between bare pieces. -/
lemma seamed_blank {ps : List (Piece Char)} (hne : ∀ p ∈ ps, p.text ≠ []) (hs : Separated ps) :
    Seamed (ps.map Piece.blank) := by
  induction ps with
  | nil => exact .nil
  | cons p ps ih =>
    cases ps with
    | nil => exact .singleton _
    | cons q ps =>
      refine List.isChain_cons_cons.2
        ⟨fun hpk hqk => ?_, ih (fun r hr => hne r (List.mem_cons_of_mem _ hr)) hs.tail⟩
      -- two bare pieces were not side by side before, so one of these was a comment
      by_cases hp : p.kind = .comment
      · obtain ⟨n, hn⟩ := exists_blanks_of_comment hp (hne p (by simp))
        exact .inl (by rw [hn, List.replicate_succ']; simp)
      · by_cases hq : q.kind = .comment
        · obtain ⟨n, hn⟩ := exists_blanks_of_comment hq (hne q (by simp))
          exact .inr (by rw [hn]; rfl)
        · rw [blank_of_ne hp] at hpk
          rw [blank_of_ne hq] at hqk
          exact absurd ⟨hpk, hqk⟩ (List.isChain_cons_cons.1 hs).1

/-- Of blanked pieces the same is read, when nothing is read of comments. -/
lemma flatMap_place_blank {read : Segment → List β}
    (h : PartsAtBlanks fun pos x => read ⟨.bare, pos, x⟩)
    (hc : ∀ pos x, read ⟨.comment, pos, x⟩ = []) (ps : List (Piece Char)) (start : Nat) :
    (Segment.place start (ps.map Piece.blank)).flatMap read =
      (Segment.place start ps).flatMap read := by
  induction ps generalizing start with
  | nil => rfl
  | cons p ps ih =>
    rw [List.map_cons, Segment.place_cons, Segment.place_cons, List.flatMap_cons,
      List.flatMap_cons, width_blank, ih]
    by_cases hk : p.kind = .comment
    · rw [blank_of_comment hk, hk, hc, h.blanks]
    · rw [blank_of_ne hk]

lemma kind_of_mem_join {q : Piece Char} {ps : List (Piece Char)} (h : q ∈ join ps) :
    ∃ p ∈ ps, p.kind = q.kind := by
  induction ps generalizing q with
  | nil => exact absurd h List.not_mem_nil
  | cons p ps ih =>
    have hrest : ∀ r ∈ join ps, ∃ s ∈ p :: ps, s.kind = r.kind := fun r hr => by
      obtain ⟨s, hs, hk⟩ := ih hr
      exact ⟨s, List.mem_cons_of_mem _ hs, hk⟩
    rw [join] at h
    split at h
    · obtain rfl := List.mem_singleton.1 h
      exact ⟨q, List.mem_cons_self, rfl⟩
    · next r rs hj =>
      split at h
      · next hk =>
        rcases List.mem_cons.1 h with rfl | h
        · exact ⟨p, List.mem_cons_self, hk.1⟩
        · exact hrest q (by rw [hj]; exact List.mem_cons_of_mem _ h)
      · rcases List.mem_cons.1 h with rfl | h
        · exact ⟨q, List.mem_cons_self, rfl⟩
        · exact hrest q (by rw [hj]; exact h)

lemma width_textOf_blank (ps : List (Piece Char)) :
    Text.width (textOf (ps.map Piece.blank)) = Text.width (textOf ps) := by
  induction ps with
  | nil => rfl
  | cons p ps ih =>
    rw [List.map_cons, textOf_cons, textOf_cons, Text.width_append, Text.width_append, ih,
      width_blank]

/-- The text of the segment, where a comment is as many blanks as it has bytes. -/
def Segment.mask (s : Segment) : List Char :=
  match s.kind with
  | .comment => List.replicate (Text.width s.text) ' '
  | _ => s.text

lemma SqlText.masked_eq (t : SqlText) : t.masked = t.segments.flatMap Segment.mask := rfl

lemma flatMap_mask_place (start : Nat) (ps : List (Piece Char)) :
    (Segment.place start ps).flatMap Segment.mask = textOf (ps.map Piece.blank) := by
  induction ps generalizing start with
  | nil => rfl
  | cons p ps ih =>
    rw [Segment.place_cons, List.flatMap_cons, ih, List.map_cons, textOf_cons]
    obtain ⟨k, a⟩ := p
    cases k <;> rfl

lemma kind_of_mem_place {s : Segment} {ps : List (Piece Char)} {start : Nat}
    (h : s ∈ Segment.place start ps) : ∃ p ∈ ps, p.kind = s.kind := by
  induction ps generalizing start with
  | nil => exact absurd h List.not_mem_nil
  | cons p ps ih =>
    rcases List.mem_cons.1 h with rfl | h
    · exact ⟨p, List.mem_cons_self, rfl⟩
    · obtain ⟨q, hq, hk⟩ := ih h
      exact ⟨q, List.mem_cons_of_mem _ hq, hk⟩

/-! ### A text without its comments -/

namespace SqlText

/-- The text with its comments blanked out, in the same dialect. -/
def blanked (t : SqlText) : SqlText := ⟨t.dialect, t.masked⟩

variable (t : SqlText)

lemma CutInto.masked {t : SqlText} {ps : List (Piece Char)} (h : t.CutInto ps) :
    t.masked = textOf (ps.map Piece.blank) := by
  rw [masked_eq, h.segments, flatMap_mask_place]

lemma CutInto.segments_blanked {t : SqlText} {ps : List (Piece Char)} (h : t.CutInto ps) :
    t.blanked.segments = Segment.place 0 (join (ps.map Piece.blank)) := by
  rw [SqlText.segments, Dialect.segments, blanked, h.masked]
  exact segmentsFrom_textOf_join h.lexes.blank 0

lemma width_blanked : t.blanked.width = t.width := by
  obtain ⟨ps, h⟩ := t.exists_cutInto
  rw [width, width, blanked, h.masked, h.chars, width_textOf_blank]

lemma kind_ne_comment_of_mem_blanked {s : Segment} (hs : s ∈ t.blanked.segments) :
    s.kind ≠ .comment := by
  obtain ⟨ps, h⟩ := t.exists_cutInto
  rw [h.segments_blanked] at hs
  obtain ⟨q, hq, hk⟩ := kind_of_mem_place hs
  obtain ⟨r, hr, hk'⟩ := kind_of_mem_join hq
  obtain ⟨p, -, rfl⟩ := List.mem_map.1 hr
  rw [← hk, ← hk']
  exact kind_blank_ne p

/-- **What is read of bare stretches and literals** does not depend on the comments. -/
lemma flatMap_segments_blanked {read : Segment → List β}
    (hr : PartsAtBlanks fun pos x => read ⟨.bare, pos, x⟩)
    (hc : ∀ pos x, read ⟨.comment, pos, x⟩ = []) :
    t.blanked.segments.flatMap read = t.segments.flatMap read := by
  obtain ⟨ps, h⟩ := t.exists_cutInto
  have hne := h.lexes.text_ne_nil
  have hne' : ∀ p ∈ ps.map Piece.blank, p.text ≠ [] := by
    intro p hp
    obtain ⟨q, hq, rfl⟩ := List.mem_map.1 hp
    exact blank_ne_nil (hne q hq)
  rw [h.segments_blanked, h.segments, flatMap_place_join hr hne' (seamed_blank hne h.separated),
    flatMap_place_blank hr hc]

lemma tokens_blanked : t.blanked.tokens = t.tokens :=
  t.flatMap_segments_blanked .tokens fun _ _ => rfl

lemma placeholders_blanked : t.blanked.placeholders = t.placeholders := by
  have h : t.blanked.segments.flatMap Placeholder.inSegment =
      t.segments.flatMap Placeholder.inSegment :=
    t.flatMap_segments_blanked .placeholders fun _ _ => rfl
  rw [placeholders_eq, placeholders_eq, h]

lemma masked_blanked : t.blanked.masked = t.masked := by
  have h : t.blanked.masked = t.blanked.segments.flatMap Segment.text := by
    refine List.flatMap_congr fun s hs => ?_
    have hk := t.kind_ne_comment_of_mem_blanked hs
    split
    · next e => exact absurd e hk
    · rfl
  rw [h]
  exact Dialect.flatMap_text_segments _ _

lemma statementTokens_blanked : t.blanked.statementTokens = t.statementTokens := by
  rw [statementTokens, tokens_blanked, statementTokens]

lemma parenLists_blanked : t.blanked.parenLists = t.parenLists := by
  rw [parenLists, statementTokens_blanked, parenLists]

lemma statement_blanked : t.blanked.statement = t.statement := by
  have hstop : t.blanked.statementStop = t.statementStop := by
    rw [statementStop, tokens_blanked, width_blanked, statementStop]
  have hhead : t.blanked.statementHead = t.statementHead := by
    rw [statementHead, hstop, masked_blanked, statementHead]
  simp only [statement, statementTokens_blanked, hstop, parenLists_blanked, hhead]

lemma map_review : t.review.map (fun f => (f.code, f.span)) =
    (t.statement.whereFinding?.toList ++ t.statement.starFinding?.toList).map
        (fun f => (f.code, f.span)) ++
      (t.listsByOpening.flatMap ParenList.hardcoded).map
        fun span => (FindingCode.hardcodedValue, some span) := by
  rw [review, List.map_append, List.map_map]
  rfl

/-- The findings differ at most in what a literal with a comment inside is called. -/
lemma review_blanked : t.blanked.review.map (fun f => (f.code, f.span)) =
    t.review.map fun f => (f.code, f.span) := by
  rw [map_review, map_review, statement_blanked, listsByOpening, parenLists_blanked,
    ← listsByOpening]

/-- **Comments are invisible**: without them a text has the same width, and the same is found in it
at the same places. -/
theorem analysis_blanked : t.blanked.width = t.width ∧
    (∀ s ∈ t.blanked.segments, s.kind ≠ .comment) ∧
    t.blanked.placeholders = t.placeholders ∧ t.blanked.statement = t.statement ∧
    t.blanked.review.map (fun f => (f.code, f.span)) =
      t.review.map fun f => (f.code, f.span) :=
  ⟨t.width_blanked, fun _ => t.kind_ne_comment_of_mem_blanked, t.placeholders_blanked,
    t.statement_blanked, t.review_blanked⟩

end SqlText

end QueryGuard
