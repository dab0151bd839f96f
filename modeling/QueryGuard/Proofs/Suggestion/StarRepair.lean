import QueryGuard.Proofs.Sql.Keyword
import QueryGuard.Proofs.Sql.Written
import QueryGuard.Proofs.Suggestion.Gains

/-!
The suggestion for a `SELECT *`. The columns go in where the star stood, with nothing put in front of
them. Main statement: the suggestion has the placeholders of the text and no star, and it is a
`SELECT` exactly when the star does not stand right behind the first token; there the keyword and the
first column are read as one word.
-/

namespace QueryGuard

variable {d : Dialect}

/-! ### The first word -/

/-- Letters with a column right behind them are no keyword. -/
lemma Statement.Kind.ofKeyword_append_columnWord {cs : List Char}
    (hs : Head.skipGap (cs ++ Lexeme.columnWord) = cs ++ Lexeme.columnWord)
    (hcs : ∀ c ∈ cs, Text.isAlphabetic c) :
    ofKeyword (Head.leadingWord? (cs ++ Lexeme.columnWord)) = .other := by
  have hcolumn : Lexeme.columnWord.takeWhile Text.isAlphabetic = "column".toList := by
    decide +kernel
  have hlead : Head.leadingWord? (cs ++ Lexeme.columnWord) =
      some (String.ofList (cs ++ "column".toList)) := by
    rw [Head.leadingWord?, hs, List.takeWhile_append_of_pos hcs, hcolumn]
    cases cs <;> rfl
  -- no keyword has an `m` in it
  have hletter : ∀ x ∈ keywords, 'm' ∉ Text.lower x.toList := by decide +kernel
  rw [hlead]
  refine ofKeyword_eq_other fun x hx => ?_
  rw [String.toList_ofList, ← Bool.not_eq_true, Text.sameWord_iff]
  intro he
  refine hletter x hx (he ▸ ?_)
  rw [Text.lower, List.map_append]
  exact List.mem_append_right _ (by decide +kernel)

namespace Lexeme

variable {ls rs : List Lexeme}

/-- Behind words and blanks the same token is the first that is no word. -/
lemma find?_kinds_append (h : ∀ l ∈ ls, l.Leads) :
    (kinds (ls ++ rs)).find? (· != .word) = (kinds rs).find? (· != .word) := by
  rw [kinds, kinds, List.filterMap_append, List.find?_append, List.find?_eq_none.2, Option.none_or]
  intro k hk
  obtain ⟨l, hl, ht⟩ := List.mem_filterMap.1 hk
  rcases h l hl with hn | hw
  · rw [hn] at ht
    cases ht
  · rw [hw] at ht
    obtain rfl := Option.some.inj ht
    exact Bool.false_ne_true

end Lexeme

/-! ### The text with the columns -/

namespace SqlText

variable {t : SqlText} {star : Span} {as cs : List Lexeme}

/-- The star stands right behind the first token. -/
def JoinsStar (t : SqlText) : Prop :=
  ∃ u ∈ t.firstToken?, ∃ star ∈ t.statement.star, u.stop = star.start

instance (t : SqlText) : Decidable t.JoinsStar := by
  unfold JoinsStar
  infer_instance

lemma joinsStar_iff {u : Token} (hu : t.firstToken? = some u) (hs : t.statement.star = some star) :
    t.JoinsStar ↔ u.stop = star.start := by
  rw [JoinsStar, hu, hs]
  simp

/-- The first word stands in front of the star. -/
lemma StarCut.exists_first (h : t.StarCut star as cs) (hk : t.statement.kind = .select) :
    ∃ gs k rs, as = gs ++ k :: rs ∧ (∀ c ∈ Lexeme.maskOf gs, Head.isGap c) ∧
      (∀ g ∈ gs, g.token? = none) ∧ k.token? = some .word := by
  obtain ⟨w, hw⟩ : ∃ w, Head.leadingWord? t.statementHead = some w := by
    rw [← Option.isSome_iff_exists, ← Option.ne_none_iff_isSome]
    intro hn
    rw [kind_statement, hn] at hk
    cases hk
  rw [statementHead, h.readAs.masked] at hw
  obtain ⟨gs, k, rs, e, hm, hg, hk⟩ := Lexeme.exists_first h.readAs.reading hw
  -- the star is a token and no word
  rcases List.append_eq_append_iff.1 e with ⟨xs, rfl, hxs⟩ | ⟨xs, rfl, hxs⟩
  · cases xs with
    | nil =>
      obtain ⟨rfl, -⟩ := List.cons.inj hxs
      cases hk
    | cons x xs =>
      obtain ⟨rfl, -⟩ := List.cons.inj hxs
      cases hg _ (List.mem_append_right _ List.mem_cons_self)
  · cases xs with
    | nil =>
      obtain ⟨rfl, -⟩ := List.cons.inj hxs
      cases hk
    | cons x xs =>
      obtain ⟨rfl, -⟩ := List.cons.inj hxs
      exact ⟨gs, k, xs, rfl, hm, hg, hk⟩

/-- A word in front of the star is made of letters. -/
lemma StarCut.isAlphabetic_of_mem {gs rs : List Lexeme} {k : Lexeme}
    (h : t.StarCut star (gs ++ k :: rs) cs) (hk : k.token? = some .word) :
    ∀ c ∈ k.text, Text.isAlphabetic c := by
  intro c hc
  have hread := h.readAs.reading
  rw [List.append_assoc] at hread
  have hword := (Lexeme.reading_append.1 hread).2.1
  have hmask : k.mask = k.text := if_neg (by rw [(hword.word_cases hk).1]; decide)
  have hleads := h.mask c (by
    rw [Lexeme.maskOf_append, Lexeme.maskOf_cons, hmask]
    exact List.mem_append_right _ (List.mem_append_left _ hc))
  have hcont := hword.continuesWord_of_mem hk hc
  rw [Head.leads, Bool.or_eq_true] at hleads
  refine hleads.resolve_left fun hgap => ?_
  rw [Lexeme.continuesWord_of_isGap hgap] at hcont
  cases hcont

lemma kind_of_star (h : t.statement.star = some star) : t.statement.kind = .select := by
  have hs := isSome_star_statement t
  rw [h, Option.isSome_some, eq_comm, Bool.and_eq_true, beq_iff_eq] at hs
  exact hs.1

/-- **The text with the columns is a `SELECT`** unless the star stands right behind the first
token. -/
theorem kind_withColumns_iff (hs : t.statement.star = some star) :
    (t.withColumns star).statement.kind = .select ↔ ¬ t.JoinsStar := by
  obtain ⟨as, cs, h⟩ := exists_starCut hs
  obtain ⟨gs, k, rs, rfl, hm, hg, hk⟩ := h.exists_first (kind_of_star hs)
  have hread := h.readAs
  have hnew := h.readAs_withColumns
  rw [List.append_assoc, List.cons_append] at hread
  rw [Lexeme.withColumnWord_append_cons, List.append_assoc, List.append_assoc] at hnew
  have hjoins : t.JoinsStar ↔ rs = [] := by
    have hstart : star.start = Text.width (Lexeme.textOf gs) + Text.width k.text +
        Text.width (Lexeme.textOf rs) := by
      have e := congrArg Span.start h.span
      rw [Lexeme.textOf_append, Lexeme.textOf_cons, Text.width_append, Text.width_append,
        ← Nat.add_assoc] at e
      exact e
    rw [joinsStar_iff (firstToken?_of_readAs hread hg hk) hs, Token.stop, hstart, Nat.left_eq_add]
    constructor
    · intro hwidth
      by_contra hne
      obtain ⟨r, rs, rfl⟩ := List.exists_cons_of_ne_nil hne
      have hpos := Text.width_pos (h.readAs.ne_nil r (by simp))
      rw [Lexeme.textOf_cons, Text.width_append] at hwidth
      omega
    · rintro rfl
      rfl
  rw [hjoins]
  cases rs with
  | nil =>
    -- the first column belongs to the first word
    rw [Lexeme.withColumnWord_of_word hk] at hnew
    have hword := (Lexeme.reading_append.1 hnew.reading).2.1
    have hskip := hword.skipGap_append rfl []
    rw [List.append_nil] at hskip
    have hother :=
      Statement.Kind.ofKeyword_append_columnWord hskip (h.isAlphabetic_of_mem hk)
    rw [(kind_eq_of_first hnew hm hg rfl).trans hother]
    exact iff_of_false (by decide) (not_not.2 rfl)
  | cons r rs =>
    rw [Lexeme.withColumnWord_cons_cons] at hnew
    rw [kind_eq_of_first hnew hm hg hk, ← kind_eq_of_first hread hm hg hk]
    exact iff_of_true (kind_of_star hs) (List.cons_ne_nil r rs)

/-- **No star is left**: a comma is the first token behind the words. -/
theorem star_withColumns (hs : t.statement.star = some star) :
    (t.withColumns star).statement.star = none := by
  obtain ⟨as, cs, h⟩ := exists_starCut hs
  by_contra hn
  obtain ⟨star', hs'⟩ := Option.ne_none_iff_exists'.1 hn
  obtain ⟨as', cs', h'⟩ := exists_starCut hs'
  have hkinds : Lexeme.kinds (as' ++ Lexeme.single '*' :: cs') =
      Lexeme.kinds (Lexeme.withColumnWord as ++ (Lexeme.columnTail ++ cs)) := by
    rw [← Lexeme.map_kind_tokens 0, ← Lexeme.map_kind_tokens 0, ← h'.readAs.tokens,
      ← List.append_assoc, ← h.readAs_withColumns.tokens]
  have hfind := congrArg (List.find? (· != .word)) hkinds
  rw [Lexeme.find?_kinds_append h'.leads,
    Lexeme.find?_kinds_append (Lexeme.leads_withColumnWord h.leads)] at hfind
  exact absurd (Option.some.inj hfind) (by decide)

/-- Placeholders of the same styles are the same up to their places. -/
lemma map_style_ordinal_eq {t t' : SqlText}
    (h : t'.placeholders.map (·.style) = t.placeholders.map (·.style)) :
    t'.placeholders.map (fun p => (p.style, p.ordinal)) =
      t.placeholders.map fun p => (p.style, p.ordinal) := by
  have hstyle : ∀ u : SqlText, u.placeholders.map (fun p => (p.style, p.ordinal)) =
      (u.placeholders.map (·.style)).mapIdx fun i style => (style, i + 1) := by
    intro u
    rw [placeholders_eq]
    exact List.ext_getElem? fun i => by simp [Function.comp_def]
  rw [hstyle, hstyle, h]

/-- **The placeholders stay.** -/
theorem placeholders_withColumns (hs : t.statement.star = some star) :
    (t.withColumns star).placeholders.map (fun p => (p.style, p.ordinal)) =
      t.placeholders.map fun p => (p.style, p.ordinal) := by
  obtain ⟨as, bs, cs, hold, hnew, ha, hb⟩ := exists_readAs_star hs
  refine map_style_ordinal_eq ?_
  rw [hnew.styles, hold.styles, Lexeme.styles_append, Lexeme.styles_append,
    Lexeme.styles_eq_nil ha.none, Lexeme.styles_eq_nil hb.none]

/-- Where there is no star, none is found. -/
lemma code_ne_selectStar {f : Finding} (hs : t.statement.star = none) (hf : f ∈ t.review) :
    f.code ≠ .selectStar := by
  intro hc
  obtain ⟨he, -⟩ := explains_of_mem_review (a := ⟨t, [], t.statement, .raw⟩) rfl hf
  rw [Analysis.Explains, hc] at he
  obtain ⟨star, hstar⟩ := he
  rw [hs] at hstar
  cases hstar

end SqlText

/-! ### The suggestion -/

namespace Query

variable {q : Query} {f : Finding}

/-- **What is suggested for a star**: a text without one and with the same placeholders. It is a
`SELECT` exactly when the star does not stand right behind the first token. -/
theorem selectStar_suggestion_iff (hf : f ∈ (q.analysis d).text.review)
    (hc : f.code = .selectStar) :
    let t := (q.analysis d).text
    let t' := SqlText.ofString d (Suggestion.ofFinding (q.analysis d) f).query
    (t'.statement.kind = .select ↔ ¬ t.JoinsStar) ∧ (∀ g ∈ t'.review, g.code ≠ .selectStar) ∧
      t'.placeholders.map (fun p => (p.style, p.ordinal)) =
        t.placeholders.map fun p => (p.style, p.ordinal) := by
  intro t t'
  obtain ⟨he, -⟩ := explains_of_mem_review (a := q.analysis d) rfl hf
  rw [Analysis.Explains, hc] at he
  obtain ⟨star, hs⟩ := he
  have hchars : ((q.analysis d).template f).chars = (t.withColumns star).chars := by
    rw [Analysis.template, hc]
    exact Analysis.chars_selectStar hs
  have ht : t' = t.withColumns star := by
    show SqlText.ofString (q.analysis d).text.dialect _ = _
    rw [Analysis.ofString_query, Analysis.rewritten, hchars]
    rfl
  have hstar : t.statement.star = some star := hs
  rw [ht]
  exact ⟨SqlText.kind_withColumns_iff hstar,
    fun g hg => SqlText.code_ne_selectStar (SqlText.star_withColumns hstar) hg,
    SqlText.placeholders_withColumns hstar⟩

/-- A star behind `DISTINCT`, with nothing between them. -/
theorem selectStar_suggestion_distinct :
    let q : Query := .raw "SELECT DISTINCT*FROM t WHERE a = :a"
    ∃ f ∈ (q.analysis .mysql).text.review, f.code = .selectStar ∧
      (SqlText.ofString .mysql (Suggestion.ofFinding (q.analysis .mysql) f).query).statement.kind =
        .select := by
  intro q
  obtain ⟨f, hf, hc⟩ : ∃ f ∈ (q.analysis .mysql).text.review, f.code = .selectStar := by
    decide +kernel
  have hjoins : ¬ (q.analysis .mysql).text.JoinsStar := by decide +kernel
  exact ⟨f, hf, hc, (selectStar_suggestion_iff hf hc).1.2 hjoins⟩

/-- **The keyword and the first column become one word** where nothing parts the star from the
keyword. -/
theorem kind_suggestion_eq_other :
    let q : Query := .raw "SELECT*FROM t"
    ∃ f ∈ (q.analysis .standard).text.review, f.code = .selectStar ∧
      (SqlText.ofString .standard
        (Suggestion.ofFinding (q.analysis .standard) f).query).statement.kind = .other := by
  decide +kernel

end Query

end QueryGuard
