import QueryGuard.Proofs.Sql.Anchor
import QueryGuard.Proofs.Sql.Marks

/-!
A clause at the anchor. A text that goes in at the anchor with the word `WHERE` in front gives the
first statement a `WHERE` clause, and its placeholders stand between those in front of the anchor
and those behind it.
-/

namespace QueryGuard

open Grammar

variable {d : Dialect}

/-! ### Closed literals -/

/-- Every literal of the text is closed. -/
def SqlText.ClosesLiterals (t : SqlText) : Prop :=
  ∀ s ∈ t.segments, s.kind = .literal →
    ∃ q body, Body id t.dialect q body ∧ s.text = q.char :: (body ++ [q.char])

/-- The anchor is the end of a literal that is not closed. -/
def SqlText.OpensAtAnchor (t : SqlText) : Prop :=
  ¬ t.ClosesLiterals ∧ t.statement.whereAnchor = t.width

lemma Grammar.Spells.closed_of_some {text : List Char} {x : Char}
    (h : Spells id d .literal text (some x)) :
    ∃ q body, Body id d q body ∧ text = q.char :: (body ++ [q.char]) := by
  cases h with
  | @closedLiteral q body _ hb _ => exact ⟨q, body, hb, rfl⟩

namespace Lexeme

variable {l : Lexeme} {ls : List Lexeme} {before : Option Char} {rest : List Char}

lemma ends_of_closed (hk : l.kind = .literal)
    (h : ∃ q body, Body id d q body ∧ l.text = q.char :: (body ++ [q.char])) : l.Ends d := by
  obtain ⟨q, body, hb, e⟩ := h
  refine .inr ?_
  rw [hk, e]
  refine .closedLiteral hb fun e => ?_
  cases q <;> cases e

/-- A literal among the lexemes of a text is one of its segments. -/
lemma exists_segment_of_literal (start : Nat) (h : Reading d [] before ls) (hl : l ∈ ls)
    (hk : l.kind = .literal) :
    ∃ s ∈ d.segmentsFrom start (textOf ls), s.kind = .literal ∧ s.text = l.text := by
  induction ls generalizing before start with
  | nil => exact absurd hl List.not_mem_nil
  | cons k ls ih =>
    have hread := h.1
    rw [List.append_nil] at hread
    rw [textOf_cons]
    cases hread with
    | @bare c cs token? ho hlex =>
      have hin := (Token.lexeme_inside (d := d) (congrArg Prod.snd hlex)).1
      have hl : l ∈ ls := by
        rcases List.mem_cons.1 hl with rfl | hl
        · cases hk
        · exact hl
      obtain ⟨s, hs, hsk, hst⟩ := ih (start + Text.width (c :: cs)) h.2 hl
      refine ⟨s, ?_, hsk, hst⟩
      rw [List.cons_append]
      -- the bare lexeme joins the segment behind it, which is no literal, or stands alone
      rcases segmentsFrom_append_of_unopened ho hin start with ⟨b, ss, e, hb, -, e'⟩ | ⟨-, e'⟩
      · rw [e] at hs
        rcases List.mem_cons.1 hs with rfl | hs
        · rw [hb] at hsk
          cases hsk
        · rw [e']
          exact List.mem_cons_of_mem _ hs
      · rw [e']
        exact List.mem_cons_of_mem _ hs
    | literal hs =>
      rw [segmentsFrom_append_of_spells hs (by decide)]
      rcases List.mem_cons.1 hl with rfl | hl
      · exact ⟨_, List.mem_cons_self, rfl, rfl⟩
      · obtain ⟨s, hm, hs⟩ := ih _ h.2 hl
        exact ⟨s, List.mem_cons_of_mem _ hm, hs⟩
    | comment hs =>
      rw [segmentsFrom_append_of_spells hs (by decide)]
      rcases List.mem_cons.1 hl with rfl | hl
      · cases hk
      · obtain ⟨s, hm, hs⟩ := ih _ h.2 hl
        exact ⟨s, List.mem_cons_of_mem _ hm, hs⟩

end Lexeme

namespace SqlText

variable {t : SqlText} {as cs ls : List Lexeme}

/-! ### Where the anchor stands -/

lemma isAlphabetic_of_opensTailWord {l : Lexeme} {before : Option Char} {rest : List Char}
    (h : l.Reads d before rest) (ht : l.token? = some .word) (hw : opensTailWord l.text) :
    ∃ c s, l.text = c :: s ∧ Text.isAlphabetic c := by
  obtain ⟨c, s, hc⟩ := List.exists_cons_of_ne_nil h.text_ne_nil
  refine ⟨c, s, hc, ?_⟩
  have hb := (h.word_cases ht).2.1 c (by rw [hc]; rfl)
  rw [Token.beginsWord, Bool.or_eq_true, beq_iff_eq] at hb
  refine hb.resolve_right ?_
  rintro rfl
  rw [hc] at hw
  have hne : ∀ y ∈ ["order", "limit", "returning"], y.toList.head? ≠ some ('_'.toLower) := by
    decide +kernel
  have hhead : ∀ {y : String}, Text.lower ('_' :: s) = y.toList →
      y.toList.head? = some ('_'.toLower) := fun e => by rw [← e]; rfl
  rcases hw with e | e | e
  · exact hne "order" (by simp) (hhead e)
  · exact hne "limit" (by simp) (hhead e)
  · exact hne "returning" (by simp) (hhead e)

/-- A later clause begins with a letter, and nothing goes on over the end of a statement. -/
lemma AnchorSplit.cases (h : t.AnchorSplit as cs) :
    (Lexeme.textOf cs).head?.any Text.isAlphabetic = true ∧
        DeepToken.depthAfter 0 (Lexeme.tokens 0 as) = 0 ∨
      (Lexeme.textOf cs).head?.any Text.isAlphabetic = false ∧
        (∀ c ∈ (Lexeme.textOf cs).head?, Lexeme.parts c) ∧ (∀ l ∈ as.getLast?, l.token?.isSome) ∧
          Lexeme.tokens 0 as = t.statementTokens.map (·.token) := by
  rcases h.cut with ⟨l, ls, rfl, hl, hw, hdepth⟩ | ⟨hall, hlast, hnext⟩
  · have hread := (Lexeme.reading_append.1 h.readAs.reading).2.1
    obtain ⟨c, s, hc, ha⟩ := isAlphabetic_of_opensTailWord hread hl hw
    refine .inl ⟨?_, hdepth⟩
    rw [Lexeme.textOf_cons, hc]
    exact ha
  · refine .inr ⟨?_, hnext, hlast, hall⟩
    rw [← Bool.not_eq_true]
    intro ha
    obtain ⟨c, hc, ha⟩ := (Option.any_eq_true _ _).1 ha
    have hn := (Lexeme.parts_iff.1 (hnext c hc)).1
    simp [Token.continuesWord, Text.isAlphanumeric_of_isAlphabetic ha] at hn

/-! ### A clause put in -/

/-- The blank in front of a clause: none is put in where a later clause begins. -/
def gapBefore (cs : List Lexeme) : List Lexeme :=
  if (Lexeme.textOf cs).head?.any Text.isAlphabetic then [] else [Lexeme.blank]

/-- The lexemes in front of a clause and those of the text behind its first word. -/
def withWhere (as cs ms : List Lexeme) : List Lexeme :=
  as ++ (gapBefore cs ++ Lexeme.word "WHERE".toList :: ms)

/-- A literal in front of the anchor is closed, unless it goes on over it. -/
lemma AnchorSplit.ends_of_literal (h : t.AnchorSplit as cs) (ho : ¬ t.OpensAtAnchor) {l : Lexeme}
    (hl : l ∈ as.getLast?) (hk : l.kind = .literal) : l.Ends t.dialect := by
  by_cases hcs : Lexeme.textOf cs = []
  · have hwidth : t.statement.whereAnchor = t.width := by
      rw [h.anchor, width, h.readAs.chars, Lexeme.textOf_append, hcs, List.append_nil]
    have hcl : t.ClosesLiterals := Classical.not_not.1 fun hno => ho ⟨hno, hwidth⟩
    obtain ⟨s, hs, hsk, hst⟩ := Lexeme.exists_segment_of_literal 0 h.readAs.reading
      (List.mem_append_left _ (List.mem_of_getLast? hl)) hk
    rw [← h.readAs.chars] at hs
    exact Lexeme.ends_of_closed hk (hst ▸ hcl s hs hsk)
  · -- more text stands behind a literal only where it is closed
    obtain ⟨xs, rfl⟩ := List.getLast?_eq_some_iff.1 hl
    have hread := (Lexeme.reading_append.1 (Lexeme.reading_append.1 h.readAs.reading).1).2.1
    rw [List.append_nil, Lexeme.textOf_nil, List.nil_append] at hread
    obtain ⟨x, s, hx⟩ := List.exists_cons_of_ne_nil hcs
    rw [hx] at hread
    cases hread with
    | bare => cases hk
    | literal hs => exact Lexeme.ends_of_closed rfl hs.closed_of_some
    | comment => cases hk

lemma AnchorSplit.reading_front (h : t.AnchorSplit as cs) (ho : ¬ t.OpensAtAnchor)
    (rest : List Char) :
    Lexeme.Reading t.dialect (Lexeme.textOf (gapBefore cs) ++ 'W' :: rest) none as := by
  have hread := (Lexeme.reading_append.1 h.readAs.reading).1
  rw [List.append_nil] at hread
  rcases h.cases with ⟨hb, -⟩ | ⟨hb, -, hlast, -⟩
  -- the word joins what stands behind it, or it gets a blank of its own
  · have hgap : gapBefore cs = [] := if_pos hb
    obtain ⟨c, hc, ha⟩ := (Option.any_eq_true _ _).1 hb
    obtain ⟨s, hc⟩ := List.head?_eq_some_iff.1 hc
    rw [hc] at hread
    rw [hgap, Lexeme.textOf_nil, List.nil_append]
    refine hread.of_noLonger ⟨fun _ => ?_, fun _ => ?_, fun _ => ?_, by decide⟩
      (hread.ends_getLast? ?_)
    · simp [Token.continuesWord, Text.isAlphanumeric_of_isAlphabetic ha]
    · simp [Placeholder.continuesName, Text.isAlphanumeric_of_isAlphabetic ha]
    · simp [Placeholder.beginsName, ha]
    · rintro rfl
      exact absurd ha (by decide)
  · have hgap : gapBefore cs = [Lexeme.blank] := by rw [gapBefore, hb]; rfl
    rw [hgap]
    refine hread.of_noLonger (Token.noLonger_of_mark (by decide) (by decide) (by decide) _)
      fun l hl => ?_
    -- the last lexeme is a token, so it is bare or a closed literal
    have hmem := List.mem_of_getLast? hl
    by_cases hk : l.kind = .literal
    · exact h.ends_of_literal ho hl hk
    · refine .inl ?_
      obtain ⟨as', bs', e⟩ := List.append_of_mem hmem
      rw [e] at hread
      have hl' := (Lexeme.reading_append.1 hread).2.1
      have ht := hlast l hl
      cases hl' with
      | bare => rfl
      | literal => exact absurd rfl hk
      | comment => cases ht

/-- **The text with the clause is read as its lexemes.** -/
theorem AnchorSplit.readAs_withWhere (h : t.AnchorSplit as cs) (ho : ¬ t.OpensAtAnchor)
    {ms : List Lexeme} (hm : Lexeme.Reading t.dialect [] (some 'E') ms)
    (hnext : ∀ c ∈ (Lexeme.textOf ms).head?, Token.continuesWord c = false) :
    SqlText.ReadAs ⟨t.dialect, Lexeme.textOf (withWhere as cs ms)⟩ (withWhere as cs ms) := by
  have hword : ∀ before, (Lexeme.word "WHERE".toList).Reads t.dialect before
      (Lexeme.textOf ms ++ []) := by
    intro before
    rw [List.append_nil]
    exact Lexeme.reads_word (by decide) (List.all_eq_true.1 (by decide +kernel)) hnext before
  refine ⟨rfl, Lexeme.reading_append.2 ⟨?_, Lexeme.reading_append.2 ⟨?_, hword _, hm⟩⟩⟩
  · rw [List.append_nil, Lexeme.textOf_append, Lexeme.textOf_cons]
    exact h.reading_front ho _
  · unfold gapBefore
    split
    · trivial
    · exact ⟨Lexeme.reads_blank _ _, trivial⟩

/-- **The clause is one of the first statement**, whose kind stays. -/
theorem AnchorSplit.statement_withWhere (h : t.AnchorSplit as cs)
    (hdepth : DeepToken.depthAfter 0 (t.statementTokens.map (·.token)) = 0)
    (hkind : t.statement.kind = .update ∨ t.statement.kind = .delete) {t' : SqlText}
    {ms : List Lexeme} (h' : t'.ReadAs (withWhere as cs ms)) :
    t'.statement.kind = t.statement.kind ∧ t'.statement.hasWhere = true := by
  constructor
  · obtain ⟨gs, k, rs, rfl, hm, hg, hk⟩ := h.exists_first hkind
    have hread := h.readAs
    rw [List.append_assoc, List.cons_append] at hread
    rw [withWhere, List.append_assoc, List.cons_append] at h'
    rw [kind_eq_of_first h' hm hg hk, kind_eq_of_first hread hm hg hk]
  -- the word is put in outside parentheses, and the first statement goes on up to it
  · have hdepth : DeepToken.depthAfter 0 (Lexeme.tokens 0 as) = 0 := by
      rcases h.cases with ⟨-, hd⟩ | ⟨-, -, -, hall⟩
      · exact hd
      · rw [hall]
        exact hdepth
    have hgap : ∀ pos, Lexeme.tokens pos (gapBefore cs) = [] := by
      intro pos
      unfold gapBefore
      split
      · rfl
      · rfl
    obtain ⟨pos, us, htok⟩ : ∃ pos us,
        t'.tokens = Lexeme.tokens 0 as ++ ⟨.word, pos, "WHERE".toList⟩ :: us := by
      rw [h'.tokens, withWhere, Lexeme.tokens_append, Lexeme.tokens_append, hgap, List.nil_append]
      exact ⟨_, _, rfl⟩
    have hword : DeepToken.isTopWord "where" ⟨⟨.word, pos, "WHERE".toList⟩, 0⟩ = true := by
      have hw : Text.sameWord "WHERE".toList "where".toList = true := by decide +kernel
      simpa [DeepToken.isTopWord, DeepToken.isTop, Token.isWord] using hw
    have hfront : ∀ u ∈ DeepToken.ofTokens 0 (Lexeme.tokens 0 as), (!u.endsStatement) = true := by
      intro u hu
      rw [endsStatement_eq_false h.within u hu, Bool.not_false]
    rw [hasWhere_statement, statementTokens, Statement.tokens, htok, DeepToken.ofTokens_append,
      hdepth, List.takeWhile_append_of_pos hfront, DeepToken.ofTokens, List.takeWhile_cons,
      if_pos (by rfl), List.any_append, List.any_cons, hword, Bool.true_or, Bool.or_true]

end SqlText

end QueryGuard
