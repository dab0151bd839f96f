import QueryGuard.Proofs.Sql.Cut
import QueryGuard.Proofs.Sql.OpenLiteral
import QueryGuard.Proofs.Sql.Star
import QueryGuard.Proofs.Suggestion.MissingWhere

/-!
What the templates do to the placeholders of a text. All but a rebuilt row leave every placeholder
where it is, and put in at most one.
-/

namespace QueryGuard

variable {d : Dialect}

/-! ### Placeholders put in -/

/-- The placeholders of `t'` are those of `t` and new ones of the given styles between two of them,
and all of the new ones are kept. -/
structure SqlText.Gains (t t' : SqlText) (new : List Placeholder.Style) : Prop where
  styles : ∃ xs ys, t.placeholders.map (·.style) = xs ++ ys ∧
    t'.placeholders.map (·.style) = xs ++ (new ++ ys)
  kept : (t'.kept Token.isHolder).length = (t.kept Token.isHolder).length + new.length

namespace Lexeme

variable {ls : List Lexeme} {before : Option Char} {rest : List Char}

lemma styles_eq_nil (h : ∀ l ∈ ls, l.isPlaceholder = false) : styles ls = [] := by
  rw [styles, List.filter_eq_nil_iff.2 fun l hl => by simp [h l hl]]
  rfl

/-- A placeholder begins with a question mark or a colon. -/
lemma Reading.isPlaceholder_head? (h : Reading d rest before ls)
    (hc : ∀ c ∈ (textOf ls).head?, c ≠ '?' ∧ c ≠ ':') :
    ∀ l ∈ ls.head?, l.isPlaceholder = false := by
  intro l hl
  obtain ⟨ks, rfl⟩ := List.head?_eq_some_iff.1 hl
  obtain ⟨c, cs, hlc⟩ := List.exists_cons_of_ne_nil h.1.text_ne_nil
  have hc := hc c (by rw [textOf_cons, hlc]; rfl)
  rw [← Bool.not_eq_true]
  intro hp
  rcases h.1.text_of_isPlaceholder hp with e | ⟨name, e⟩
  · rw [hlc] at e
    exact hc.1 (List.cons.inj e).1
  · rw [hlc] at e
    exact hc.2 (List.cons.inj e).1

end Lexeme

namespace SqlText

variable {t t' : SqlText} {cs ns : List Lexeme}

/-- Lexemes without placeholders that make place for others. -/
lemma gains_of_readAs (as bs : List Lexeme) (h : t.ReadAs (as ++ (bs ++ cs)))
    (h' : t'.ReadAs (as ++ (ns ++ cs))) (hb : ∀ l ∈ bs, l.isPlaceholder = false)
    (hn : Lexeme.loose (Lexeme.barsAfter false as) ns = (Lexeme.styles ns).length)
    (hc : Lexeme.loose (Lexeme.barsAfter (Lexeme.barsAfter false as) ns) cs =
      Lexeme.loose (Lexeme.barsAfter (Lexeme.barsAfter false as) bs) cs) :
    t.Gains t' (Lexeme.styles ns) := by
  constructor
  · refine ⟨Lexeme.styles as, Lexeme.styles cs, ?_, ?_⟩
    · rw [h.styles, Lexeme.styles_append, Lexeme.styles_append, Lexeme.styles_eq_nil hb]
      rfl
    · rw [h'.styles, Lexeme.styles_append, Lexeme.styles_append]
  · rw [h.length_kept, h'.length_kept, Lexeme.loose_append, Lexeme.loose_append,
      Lexeme.loose_append, Lexeme.loose_append, Lexeme.loose_eq_zero hb, hn, hc]
    omega

end SqlText

/-! ### The templates -/

namespace Analysis

variable {a : Analysis} {f : Finding}

/-- The text that is suggested for a finding. -/
def rewritten (a : Analysis) (f : Finding) : SqlText := ⟨a.text.dialect, (a.template f).chars⟩

lemma ofString_query (a : Analysis) (f : Finding) :
    SqlText.ofString a.text.dialect (Suggestion.ofFinding a f).query = a.rewritten f := by
  rw [Suggestion.ofFinding, SqlText.ofString, String.toList_ofList]
  rfl

lemma chars_selectStar {star : Span} (h : a.statement.star = some star) :
    a.selectStar.chars = (a.text.withColumns star).chars := by
  rw [selectStar, h]
  rfl

lemma gains_selectStar (hs : a.statement = a.text.statement)
    (h : ∃ star, a.statement.star = some star) :
    a.text.Gains ⟨a.text.dialect, a.selectStar.chars⟩ [] := by
  obtain ⟨star, hstar⟩ := h
  rw [chars_selectStar hstar]
  rw [hs] at hstar
  obtain ⟨bs, ns, cs, hold, hnew, hb, hn⟩ := SqlText.exists_readAs_star hstar
  have hstyles := Lexeme.styles_eq_nil hn.none
  rw [← hstyles]
  refine SqlText.gains_of_readAs [] bs hold hnew hb.none ?_ ?_
  · rw [hstyles, Lexeme.loose_eq_zero hn.none]
    rfl
  · show Lexeme.loose (Lexeme.barsAfter false ns) cs = Lexeme.loose (Lexeme.barsAfter false bs) cs
    rw [hb.clear, hn.clear]

lemma gains_hardcoded (h : ∃ l ∈ a.text.parenLists, ∃ span ∈ l.hardcoded, f.span = some span) :
    a.text.Gains ⟨a.text.dialect, (a.hardcoded f).chars⟩ [.positional] := by
  obtain ⟨l, hl, span, hspan, hf⟩ := h
  obtain ⟨i, hstands, hi, v, hv, htok⟩ := SqlText.stands_of_mem_hardcoded hl hspan
  obtain ⟨as, bs, cs, hcut⟩ := SqlText.exists_literalCut hstands hi hv htok
  have hchars : (a.hardcoded f).chars = Lexeme.textOf (as ++ ([Lexeme.mark none] ++ cs)) := by
    have hq : "?".toList = ['?'] := by decide +kernel
    rw [hardcoded, hf, Lexeme.textOf_append, Lexeme.textOf_append]
    refine (hcut.apply_replace "?").trans ?_
    rw [hq]
    rfl
  rw [hchars]
  have hback := (Lexeme.reading_append.1 (Lexeme.reading_append.1 hcut.readAs.reading).2).2
  refine SqlText.gains_of_readAs as bs hcut.readAs hcut.readAs_mark hcut.inside ?_ ?_
  · rw [hcut.front]
    rfl
  · exact Lexeme.loose_congr (hback.isPlaceholder_head? fun c hc =>
      (Lexeme.parts_iff.1 (hcut.back c hc)).2) _ _

/-- The clause up to its placeholder. -/
def clauseFront (a : Analysis) (cs : List Lexeme) : List Lexeme :=
  SqlText.gapBefore cs ++ [Lexeme.word "WHERE".toList, Lexeme.blank,
    Lexeme.word a.idColumn.toList, Lexeme.blank, Lexeme.single '=', Lexeme.blank]

lemma withWhere_eq (a : Analysis) (as cs : List Lexeme) :
    SqlText.withWhere as cs (a.condition cs) =
      as ++ ((a.clauseFront cs ++ a.holder :: gapAfter cs) ++ cs) := by
  simp [SqlText.withWhere, condition, clauseFront]

lemma isPlaceholder_clauseFront (a : Analysis) (cs : List Lexeme) :
    ∀ l ∈ a.clauseFront cs, l.isPlaceholder = false := by
  intro l hl
  rcases List.mem_append.1 hl with hl | hl
  · unfold SqlText.gapBefore at hl
    split at hl
    · exact absurd hl List.not_mem_nil
    · obtain rfl := List.mem_singleton.1 hl
      rfl
  · simp only [List.mem_cons, List.not_mem_nil, or_false] at hl
    rcases hl with rfl | rfl | rfl | rfl | rfl | rfl <;> rfl

lemma isPlaceholder_gapAfter (cs : List Lexeme) : ∀ l ∈ gapAfter cs, l.isPlaceholder = false := by
  intro l hl
  unfold gapAfter at hl
  split at hl
  · obtain rfl := List.mem_singleton.1 hl
    rfl
  · exact absurd hl List.not_mem_nil

lemma isPlaceholder_holder (a : Analysis) : a.holder.isPlaceholder := by
  unfold holder
  split
  · rfl
  · rfl

lemma styles_clause (a : Analysis) (cs : List Lexeme) :
    Lexeme.styles (a.clauseFront cs ++ a.holder :: gapAfter cs) = [a.whereStyle] := by
  rw [List.append_cons, Lexeme.styles_append, Lexeme.styles_append, styles_holder,
    Lexeme.styles_eq_nil (a.isPlaceholder_clauseFront cs),
    Lexeme.styles_eq_nil (isPlaceholder_gapAfter cs)]
  rfl

lemma loose_clause (a : Analysis) (cs : List Lexeme) (b : Bool) :
    Lexeme.loose b (a.clauseFront cs ++ a.holder :: gapAfter cs) = 1 := by
  have hclear : Lexeme.barsAfter b (a.clauseFront cs) = false := by
    rw [clauseFront, Lexeme.barsAfter, List.getLast?_append]
    rfl
  rw [Lexeme.loose_append, Lexeme.loose_eq_zero (a.isPlaceholder_clauseFront cs), hclear,
    Lexeme.loose, isPlaceholder_holder, Lexeme.loose_eq_zero (isPlaceholder_gapAfter cs)]
  rfl

/-- The clause has one placeholder. -/
theorem gains_missingWhere (hs : a.statement = a.text.statement) (ho : ¬ a.text.OpensAtAnchor)
    (hname : IsPlainName a.idColumn) :
    a.text.Gains ⟨a.text.dialect, a.missingWhere.chars⟩ [a.whereStyle] := by
  obtain ⟨as, cs, h⟩ := a.text.exists_anchorSplit
  have hnew := readAs_missingWhere hs h ho hname
  rw [withWhere_eq] at hnew
  have hread := (Lexeme.reading_append.1 h.readAs.reading).2
  -- no placeholder stands behind the anchor
  have hhead : ∀ c ∈ (Lexeme.textOf cs).head?, c ≠ '?' ∧ c ≠ ':' := by
    intro c hc
    rcases h.cases with ⟨ha, -⟩ | ⟨-, hnext, -⟩
    · rw [hc, Option.any_some] at ha
      exact (Token.isPlain_iff.1 (Token.isPlain_of_continuesWord
        (by simp [Token.continuesWord, Text.isAlphanumeric_of_isAlphabetic ha]))).2
    · exact (Lexeme.parts_iff.1 (hnext c hc)).2
  have hgains := SqlText.gains_of_readAs as [] h.readAs hnew
    (fun _ hm => absurd hm List.not_mem_nil)
    (by rw [loose_clause, styles_clause]; rfl)
    (Lexeme.loose_congr (hread.isPlaceholder_head? hhead) _ _)
  rwa [styles_clause] at hgains

/-! ### A clause in an open literal -/

lemma goesOn_of_continuesName {c : Char} (h : Placeholder.continuesName c) : Quote.goesOn c := by
  have hp := (Token.isPlain_iff.1 (Token.isPlain_of_continuesName h)).1
  simp only [Token.opensNothing, Bool.and_eq_true] at hp
  have hb : c ≠ '\\' := by
    rintro rfl
    exact absurd h (by decide)
  simp [Quote.goesOn, hp.1.1.1, hb]

lemma goesOn_of_mem_whereClause (hname : IsPlainName a.idColumn) :
    ∀ c ∈ a.whereClause.toList, Quote.goesOn c := by
  have hword : ∀ c ∈ "WHERE ".toList, Quote.goesOn c := List.all_eq_true.1 (by decide +kernel)
  have heq : ∀ c ∈ " = ".toList, Quote.goesOn c := List.all_eq_true.1 (by decide +kernel)
  have hcol : ∀ c ∈ a.idColumn.toList, Quote.goesOn c :=
    fun c hc => goesOn_of_continuesName (hname.2 c hc)
  have hblank : ∀ c ∈ " ".toList, Quote.goesOn c := List.all_eq_true.1 (by decide +kernel)
  have hmark : ∀ c ∈ "?".toList, Quote.goesOn c := List.all_eq_true.1 (by decide +kernel)
  have hcolon : ∀ c ∈ ":".toList, Quote.goesOn c := List.all_eq_true.1 (by decide +kernel)
  have hholder : ∀ c ∈ (if Placeholder.protocol a.placeholders = .named then ":" ++ a.idColumn
      else "?").toList, Quote.goesOn c := by
    split
    · rw [String.toList_append, List.forall_mem_append]
      exact ⟨hcolon, hcol⟩
    · exact hmark
  unfold whereClause
  dsimp only
  generalize (if Placeholder.protocol a.placeholders = .named then ":" ++ a.idColumn else "?") =
    holder at hholder
  split
  · simp only [String.toList_append, List.forall_mem_append]
    exact ⟨⟨⟨⟨hword, hcol⟩, heq⟩, hholder⟩, hblank⟩
  · simp only [String.toList_append, List.forall_mem_append]
    exact ⟨hblank, ⟨⟨hword, hcol⟩, heq⟩, hholder⟩

/-- What goes in behind a literal that is not closed is no clause. -/
theorem placeholders_missingWhere_of_open (hs : a.statement = a.text.statement)
    (ho : a.text.OpensAtAnchor) (hname : IsPlainName a.idColumn) :
    SqlText.placeholders ⟨a.text.dialect, a.missingWhere.chars⟩ = a.text.placeholders := by
  have htake := Text.takeBytes_width_append a.text.chars []
  have hdrop := Text.dropBytes_width_append a.text.chars []
  rw [List.append_nil] at htake hdrop
  have hanchor : a.statement.whereAnchor = Text.width a.text.chars := by
    rw [hs]
    exact ho.2
  rw [chars_missingWhere, hanchor, htake, hdrop, List.append_nil]
  exact SqlText.placeholders_append_of_open ho.1 (goesOn_of_mem_whereClause hname)

end Analysis

end QueryGuard
