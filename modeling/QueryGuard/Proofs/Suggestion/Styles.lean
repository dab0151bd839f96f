import QueryGuard.Proofs.Suggestion.Gains
import QueryGuard.Proofs.Suggestion.NotPrepared
import QueryGuard.Proofs.Suggestion.RebuiltRow

/-!
The styles of the placeholders in a suggestion. Main statement: a suggestion for a text that does
not mix the two styles mixes them exactly when it puts a question mark next to a named placeholder,
as the templates for a literal among placeholders and for a row do.
-/

namespace QueryGuard

variable {d : Dialect}

/-! ### Mixed styles -/

/-- There are both styles. -/
def Placeholder.Style.AreMixed (ss : List Placeholder.Style) : Prop :=
  (∃ name, .named name ∈ ss) ∧ .positional ∈ ss

namespace Placeholder

lemma exists_isNamed_iff {ps : List Placeholder} :
    (∃ p ∈ ps, p.isNamed) ↔ ∃ name, Style.named name ∈ ps.map (·.style) := by
  constructor
  · rintro ⟨p, hp, hn⟩
    obtain ⟨name, hs⟩ := isNamed_iff.1 hn
    exact ⟨name, List.mem_map.2 ⟨p, hp, hs⟩⟩
  · rintro ⟨name, hn⟩
    obtain ⟨p, hp, hs⟩ := List.mem_map.1 hn
    exact ⟨p, hp, isNamed_iff.2 ⟨name, hs⟩⟩

lemma isMixed_iff {ps : List Placeholder} : IsMixed ps ↔ Style.AreMixed (ps.map (·.style)) := by
  have hpos : (∃ p ∈ ps, ¬ p.isNamed) ↔ Style.positional ∈ ps.map (·.style) := by
    simp only [not_isNamed_iff, List.mem_map]
  rw [IsMixed, exists_isNamed_iff, hpos, Style.AreMixed]

end Placeholder

namespace SqlText

variable {t t' : SqlText} {new : List Placeholder.Style}

/-- New placeholders mix with those that were there. -/
lemma Gains.isMixed_iff (h : t.Gains t' new) : Placeholder.IsMixed t'.placeholders ↔
    Placeholder.Style.AreMixed (new ++ t.placeholders.map (·.style)) := by
  obtain ⟨xs, ys, hold, hnew⟩ := h.styles
  have hmem : ∀ s, s ∈ xs ++ (new ++ ys) ↔ s ∈ new ++ (xs ++ ys) := by
    intro s
    simp only [List.mem_append]
    tauto
  rw [Placeholder.isMixed_iff, hold, hnew, Placeholder.Style.AreMixed, Placeholder.Style.AreMixed]
  simp only [hmem]

/-- A question mark mixes with named placeholders. -/
lemma Gains.isMixed_positional_iff (h : t.Gains t' [.positional]) :
    Placeholder.IsMixed t'.placeholders ↔ ∃ p ∈ t.placeholders, p.isNamed := by
  rw [h.isMixed_iff, Placeholder.exists_isNamed_iff]
  constructor
  · rintro ⟨⟨name, hn⟩, -⟩
    rcases List.mem_append.1 hn with hn | hn
    · cases List.mem_singleton.1 hn
    · exact ⟨name, hn⟩
  · rintro ⟨name, hn⟩
    exact ⟨⟨name, List.mem_append_right _ hn⟩, List.mem_append_left _ (List.mem_singleton_self _)⟩

lemma Gains.isMixed_nil_iff (h : t.Gains t' []) :
    Placeholder.IsMixed t'.placeholders ↔ Placeholder.IsMixed t.placeholders := by
  rw [h.isMixed_iff, List.nil_append, Placeholder.isMixed_iff]

/-- Only question marks are left in the positional form. -/
lemma not_isMixed_positional (t : SqlText) : ¬ Placeholder.IsMixed t.positional.placeholders := by
  rw [positional_eq_withMarks]
  exact Placeholder.not_isMixed_of_forall fun _ =>
    style_of_mem_placeholders_withMarks t.selects_isHolder

/-- An `INSERT` that lists columns lists at least one. -/
lemma columns_ne_nil {columns : List String} (h : t.statement.columns = some columns) :
    columns ≠ [] := by
  have hlist : ∀ {cs : List Char}, Head.columnList? cs = some columns → columns ≠ [] := by
    intro cs h
    unfold Head.columnList? guard at h
    simp only [Option.bind_eq_bind, Option.bind_eq_some_iff, Option.pure_def,
      Option.some.injEq] at h
    obtain ⟨-, -, x, -, -, -, rfl⟩ := h
    exact List.cons_ne_nil _ _
  dsimp only [statement] at h
  split at h
  · obtain ⟨read, hread, h⟩ := Option.bind_eq_some_iff.1 h
    simp only [Head.insert?, Option.bind_eq_bind, Option.bind_eq_some_iff, Option.pure_def,
      Option.some.injEq] at hread
    obtain ⟨-, -, -, -, x, -, rfl⟩ := hread
    exact hlist h
  · cases h
  · cases h
  · cases h
  · cases h

end SqlText

/-! ### The templates -/

namespace Analysis

variable {a : Analysis} {f : Finding}

/-- The template puts a question mark next to a named placeholder. -/
def Mixes (a : Analysis) (f : Finding) : Prop :=
  match f.code with
  | .hardcodedValue => ∃ p ∈ a.placeholders, p.isNamed
  | .fieldCountMismatch => ∃ p ∈ a.placeholders, p.isNamed ∧ ¬ f.Covers p.offset
  | _ => False

/-- The new clause has the style of the text. -/
lemma not_isMixed_missingWhere (hs : a.statement = a.text.statement)
    (hp : a.placeholders = a.text.placeholders) (hm : ¬ Placeholder.IsMixed a.placeholders)
    (hname : IsPlainName a.idColumn) :
    ¬ Placeholder.IsMixed (SqlText.placeholders ⟨a.text.dialect, a.missingWhere.chars⟩) := by
  by_cases ho : a.text.OpensAtAnchor
  · rwa [placeholders_missingWhere_of_open hs ho hname, ← hp]
  · have hgains := gains_missingWhere hs ho hname
    -- the clause has a name exactly where all placeholders have one
    by_cases hnamed : Placeholder.protocol a.placeholders = .named
    · have hstyle : a.whereStyle = .named a.idColumn := if_pos hnamed
      rw [hstyle] at hgains
      rw [hgains.isMixed_iff, ← hp]
      rintro ⟨-, hpos⟩
      obtain ⟨p, hmem, hpos⟩ := List.mem_map.1 ((List.mem_cons.1 hpos).resolve_left nofun)
      rcases Placeholder.protocol_cases a.placeholders with ⟨e, -⟩ | ⟨e, -⟩ | ⟨-, -, hall⟩ | ⟨e, -⟩
      · rw [hnamed] at e
        cases e
      · rw [hnamed] at e
        cases e
      · exact Placeholder.not_isNamed_iff.2 hpos (hall p hmem)
      · rw [hnamed] at e
        cases e
    · have hstyle : a.whereStyle = .positional := if_neg hnamed
      rw [hstyle] at hgains
      rw [hgains.isMixed_positional_iff, ← hp]
      rintro ⟨p, hmem, hn⟩
      rcases Placeholder.protocol_cases a.placeholders with ⟨-, e⟩ | ⟨-, -, hall⟩ | ⟨e, -⟩ | ⟨-, e⟩
      · rw [e] at hmem
        exact List.not_mem_nil hmem
      · exact hall p hmem hn
      · exact hnamed e
      · exact hm e

/-- The columns of a rebuilt row mix with named placeholders around it. -/
lemma isMixed_fieldCount_iff (hs : a.statement = a.text.statement)
    (hp : a.placeholders = a.text.placeholders) (h : ∃ columns, a.statement.columns = some columns ∧
      ∃ r ∈ a.statement.valueRows, f.span = some r.span) :
    Placeholder.IsMixed (SqlText.placeholders ⟨a.text.dialect, (a.fieldCount f).chars⟩) ↔
      ∃ p ∈ a.placeholders, p.isNamed ∧ ¬ f.Covers p.offset := by
  obtain ⟨columns, hcolumns, hr⟩ := h
  obtain ⟨span, as, bs, cs, hspan, hcut, -, hread⟩ := rebuilds_fieldCount hs hr
  have hlen : a.columns.length ≠ 0 := by
    rw [Analysis.columns, hcolumns, Option.getD_some, ne_eq, List.length_eq_zero_iff]
    exact SqlText.columns_ne_nil (hs ▸ hcolumns)
  have hout := hcut.exists_outside fun s => ∃ name, s = .named name
  simp only [← Placeholder.isNamed_iff, ← hp, ← Finding.covers_iff hspan] at hout
  rw [hout, Placeholder.isMixed_iff, hread.styles, Lexeme.styles_append, Lexeme.styles_append,
    Lexeme.styles_row]
  have hmem : ∀ {name}, Placeholder.Style.named name ∈ Lexeme.styles as ++
      (List.replicate a.columns.length .positional ++ Lexeme.styles cs) ↔
        Placeholder.Style.named name ∈ Lexeme.styles as ++ Lexeme.styles cs := by
    simp [List.mem_replicate]
  constructor
  · rintro ⟨⟨name, hn⟩, -⟩
    exact ⟨_, hmem.1 hn, name, rfl⟩
  · rintro ⟨_, hn, name, rfl⟩
    refine ⟨⟨name, hmem.2 hn⟩, List.mem_append_right _ (List.mem_append_left _ ?_)⟩
    exact List.mem_replicate.2 ⟨hlen, rfl⟩

theorem isMixed_rewritten_iff (hs : a.statement = a.text.statement)
    (hp : a.placeholders = a.text.placeholders) (hex : a.Explains f)
    (hm : ¬ Placeholder.IsMixed a.placeholders)
    (hname : f.code = .missingWhere → IsPlainName a.idColumn) :
    Placeholder.IsMixed (a.rewritten f).placeholders ↔ a.Mixes f := by
  -- the text stays, or all of it becomes positional
  have hsame : ¬ Placeholder.IsMixed (SqlText.placeholders ⟨a.text.dialect, a.text.chars⟩) :=
    hp ▸ hm
  have hpositional :
      ¬ Placeholder.IsMixed (SqlText.placeholders ⟨a.text.dialect, a.allPositional⟩) := by
    rw [SqlText.allPositional_eq hp]
    exact a.text.not_isMixed_positional
  unfold Explains at hex
  unfold rewritten template Mixes
  cases hc : f.code with
  | notPrepared =>
    rw [hc] at hex
    have hsel := selects_isLiteral (hp ▸ hex.2)
    exact iff_of_false (Placeholder.not_isMixed_of_forall fun _ hx =>
      SqlText.style_of_mem_placeholders_withMarks hsel hx) id
  | paramCountMismatch => exact iff_of_false hsame id
  | paramNameMismatch => exact iff_of_false hpositional id
  | fieldCountMismatch =>
    rw [hc] at hex
    exact isMixed_fieldCount_iff hs hp hex.2
  | mixedPlaceholders => exact iff_of_false hpositional id
  | malformedBindings => exact iff_of_false hpositional id
  | missingWhere => exact iff_of_false (not_isMixed_missingWhere hs hp hm (hname hc)) id
  | selectStar =>
    rw [hc] at hex
    refine iff_of_false ?_ id
    have hgains := gains_selectStar hs hex
    rwa [hgains.isMixed_nil_iff, ← hp]
  | hardcodedValue =>
    rw [hc] at hex
    have hgains := gains_hardcoded hex
    rw [hp]
    exact hgains.isMixed_positional_iff
  | injectionSuspected => exact iff_of_false hsame id

end Analysis

/-- **When a suggestion mixes the styles of placeholders.** Where the text does not mix them and the
column of a new clause is a plain name, it does so exactly when a literal becomes a question mark in
a text with named placeholders, or when a row becomes question marks with a named placeholder around
it. -/
theorem Query.isMixed_suggestion_iff {q : Query} {f : Finding} (hf : f ∈ q.findings d)
    (hm : ¬ Placeholder.IsMixed (q.analysis d).placeholders)
    (hname : f.code = .missingWhere → IsPlainName (q.analysis d).idColumn) :
    Placeholder.IsMixed (SqlText.ofString d
        (Suggestion.ofFinding (q.analysis d) f).query).placeholders ↔ (q.analysis d).Mixes f := by
  have hquery : SqlText.ofString d (Suggestion.ofFinding (q.analysis d) f).query =
      (q.analysis d).rewritten f := (q.analysis d).ofString_query f
  rw [hquery]
  exact Analysis.isMixed_rewritten_iff rfl rfl (Query.explains_of_mem_findings hf) hm hname

/-- A named placeholder and a new clause. -/
theorem Query.isMixed_suggestion_update :
    (Finding.ofCode .missingWhere "UPDATE without a WHERE clause modifies every row in t" ∈
        (Query.raw "UPDATE t SET a = :a").findings .standard ∧
      ¬ Placeholder.IsMixed ((Query.raw "UPDATE t SET a = :a").analysis .standard).placeholders ∧
      IsPlainName ((Query.raw "UPDATE t SET a = :a").analysis .standard).idColumn) ∧
      ¬ Placeholder.IsMixed (SqlText.ofString .standard (Suggestion.ofFinding
        ((Query.raw "UPDATE t SET a = :a").analysis .standard) (.ofCode .missingWhere
          "UPDATE without a WHERE clause modifies every row in t")).query).placeholders := by
  have hf : Finding.ofCode .missingWhere "UPDATE without a WHERE clause modifies every row in t" ∈
      (Query.raw "UPDATE t SET a = :a").findings .standard := by decide +kernel
  have hm : ¬ Placeholder.IsMixed
      ((Query.raw "UPDATE t SET a = :a").analysis .standard).placeholders := by
    unfold Placeholder.IsMixed
    decide +kernel
  have hname : IsPlainName ((Query.raw "UPDATE t SET a = :a").analysis .standard).idColumn :=
    ⟨by decide +kernel, List.all_eq_true.1 (by decide +kernel)⟩
  exact ⟨⟨hf, hm, hname⟩, fun h => (Query.isMixed_suggestion_iff hf hm fun _ => hname).1 h⟩

/-- A literal in a list with a named placeholder becomes a question mark. -/
theorem Query.isMixed_suggestion_in : ∃ f ∈ (Query.prepared "SELECT b FROM t WHERE a IN (:a, 'x')"
      (.named [("a", .int 1)])).findings .standard,
    ¬ Placeholder.IsMixed ((Query.prepared "SELECT b FROM t WHERE a IN (:a, 'x')"
        (.named [("a", .int 1)])).analysis .standard).placeholders ∧
      Placeholder.IsMixed (SqlText.ofString .standard (Suggestion.ofFinding
        ((Query.prepared "SELECT b FROM t WHERE a IN (:a, 'x')"
          (.named [("a", .int 1)])).analysis .standard) f).query).placeholders := by
  unfold Placeholder.IsMixed
  refine ⟨.withSpan (.ofCode .hardcodedValue
    "Hardcoded value 'x' next to bound placeholders; bind it as a parameter instead") ⟨32, 35⟩, ?_⟩
  decide +kernel

end QueryGuard
