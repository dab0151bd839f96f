import QueryGuard.Proofs.Binding.Resolution
import QueryGuard.Proofs.Guard.Origin
import QueryGuard.Proofs.Sql.Marks

/-!
What is suggested for a text that is not prepared. Its strings and numbers become question marks.
Main statement: the suggested text goes together with the values of the literals exactly when no
literal stands right behind another, or behind a question mark or a colon.
-/

namespace QueryGuard

variable {d : Dialect}

/-! ### Validations -/

lemma mem_findings_validate {c : Config} (he : c.enabled) {q : Query} {context : Option Json}
    {f : Finding} (h : f ∈ (c.validate q context).findings) : f ∈ q.findings c.dialect := by
  unfold Config.validate at h
  rw [if_pos he] at h
  exact Report.mem_of_mem_ofFindings h

lemma exists_code_validate {c : Config} (he : c.enabled) {q : Query} (context : Option Json)
    {f : Finding} (h : f ∈ q.findings c.dialect) :
    ∃ g ∈ (c.validate q context).findings, g.code = f.code := by
  unfold Config.validate
  rw [if_pos he]
  obtain ⟨g, hg, hc, -⟩ := Report.exists_mem_ofFindings h
  exact ⟨g, hg, hc⟩

/-! ### The findings on placeholders and values -/

/-- The finding is one on whether the query is prepared and its values fit its placeholders. -/
def Finding.IsOnValues (f : Finding) : Prop :=
  f.code = .notPrepared ∨ f.code = .paramCountMismatch ∨ f.code = .paramNameMismatch ∨
    f.code = .mixedPlaceholders

/-- A report has a finding on values exactly when one was found. -/
lemma exists_isOnValues_validate_iff {c : Config} (he : c.enabled) {q : Query}
    {context : Option Json} :
    (∃ g ∈ (c.validate q context).findings, g.IsOnValues) ↔
      ∃ g ∈ q.findings c.dialect, g.IsOnValues := by
  constructor
  · rintro ⟨g, hg, hv⟩
    exact ⟨g, mem_findings_validate he hg, hv⟩
  · rintro ⟨g, hg, hv⟩
    obtain ⟨g', hg', hcode⟩ := exists_code_validate he context hg
    refine ⟨g', hg', ?_⟩
    unfold Finding.IsOnValues at hv ⊢
    rwa [hcode]

lemma not_isOnValues_of_review {t : SqlText} {f : Finding} (h : f ∈ t.review) :
    ¬ f.IsOnValues := by
  have hc := (explains_of_mem_review (a := ⟨t, t.placeholders, t.statement, .raw⟩) rfl h).2
  unfold Finding.IsOnValues
  rcases hc with hc | hc | hc <;> simp [hc]

/-- Values that are bound in order fit question marks when they are as many. -/
lemma Bindings.fits_positional_iff {ps : List Placeholder} {values : List Value}
    (hp : ∀ p ∈ ps, p.style = .positional) :
    Bindings.Fits ps (.positional values) ↔ ps.length = values.length := by
  constructor
  · rintro (⟨_, rfl, hb⟩ | ⟨_, -, hb⟩)
    · exact hb.symm
    · exact hb.symm
  · exact fun h => .positional values (fun p hm => Placeholder.not_isNamed_iff.2 (hp p hm)) h.symm

/-- Values that are bound in order are found fault with exactly when they are too many or too few
for question marks. -/
theorem Query.exists_isOnValues_iff {sql : String} {values : List Value}
    (hp : ∀ p ∈ (SqlText.ofString d sql).placeholders, p.style = .positional) :
    (∃ f ∈ (Query.prepared sql (.positional values)).findings d, f.IsOnValues) ↔
      (SqlText.ofString d sql).placeholders.length ≠ values.length := by
  have hres := Params.resolve_positional values
  have hs : (Query.prepared sql (.positional values)).supplied = .bound (.positional values) := by
    simp only [supplied, params?, hres]
  have hmal : (Query.prepared sql (.positional values)).malformedFinding? = none := by
    simp only [malformedFinding?, params?, hres]
  have hmixed := Placeholder.not_isMixed_of_forall hp
  have hbind : Reconciliation.bindings (SqlText.ofString d sql).placeholders
      (.bound (.positional values)) = [] ↔
        (SqlText.ofString d sql).placeholders.length = values.length :=
    (Reconciliation.bindings_eq_nil_iff hmixed).trans (Bindings.fits_positional_iff hp)
  constructor
  · rintro ⟨f, hf, hv⟩ he
    -- no finding on the bindings is left, and no other finding is on the values
    rw [findings, hmal, Option.toList_none, List.nil_append] at hf
    rcases List.mem_append.1 hf with hf | hf
    · rcases List.mem_append.1 hf with hf | hf
      · have hf : f ∈ reconcile (SqlText.ofString d sql).placeholders
            (Query.prepared sql (.positional values)).supplied
              (SqlText.ofString d sql).statement := hf
        rw [hs, reconcile, Placeholder.mixedFinding?_eq_none_iff.2 hmixed, hbind.2 he,
          Option.toList_none, List.nil_append, List.nil_append] at hf
        have hc := (Reconciliation.mem_of_mem_rows hf).1
        simp [Finding.IsOnValues, hc] at hv
      · exact not_isOnValues_of_review hf hv
    · simp [Finding.IsOnValues, code_of_mem_injection hf] at hv
  · intro hne
    -- whatever is found on the bindings is on the values
    obtain ⟨f, hf⟩ := List.exists_mem_of_ne_nil _ (mt hbind.1 hne)
    refine ⟨f, ?_, ?_⟩
    · have hm : f ∈ reconcile (SqlText.ofString d sql).placeholders
          (Query.prepared sql (.positional values)).supplied
            (SqlText.ofString d sql).statement := by
        rw [hs]
        exact List.mem_append_left _ (List.mem_append_right _ hf)
      exact List.mem_append_left _ (List.mem_append_left _ (List.mem_append_right _ hm))
    · rcases Reconciliation.code_of_mem_bindings hf with ⟨hc, -⟩ | hc | hc
      · exact .inl hc
      · exact .inr (.inl hc)
      · exact .inr (.inr (.inl hc))

/-! ### Literals as question marks -/

namespace Analysis

/-- The token is a string or a number of the first statement. -/
def isLiteral (a : Analysis) (t : Token) : Bool :=
  t.start < a.statement.stop && (t.kind == .string || t.kind == .number)

/-- The values that the literals of the first statement write. -/
def literalValues (a : Analysis) : List Value := a.literals.map fun t => .ofLiteral t.text

lemma notPrepared_chars (a : Analysis) :
    a.notPrepared.chars = (a.text.withMarks a.isLiteral).chars := rfl

/-- Where there are no placeholders, the literals may all be marked. -/
lemma selects_isLiteral {a : Analysis} (h : a.text.placeholders = []) :
    a.text.Selects a.isLiteral := by
  constructor
  · intro t ht hk
    have hn := a.text.length_placeholders
    rw [h, List.length_nil, eq_comm, List.countP_eq_zero] at hn
    exact absurd (beq_iff_eq.2 hk) (hn t ht)
  · intro t _ hk
    rw [isLiteral, hk]
    simp

end Analysis

lemma SqlText.ofString_ofList (d : Dialect) (cs : List Char) :
    SqlText.ofString d (String.ofList cs) = ⟨d, cs⟩ := by
  rw [ofString, String.toList_ofList]

lemma query_ofFinding_notPrepared {a : Analysis} {f : Finding} (hc : f.code = .notPrepared) :
    (Suggestion.ofFinding a f).query =
      String.ofList (a.text.withMarks a.isLiteral).chars := by
  rw [Suggestion.ofFinding, Analysis.template, hc]
  exact congrArg String.ofList a.notPrepared_chars

/-- The suggestion for a text that is not prepared goes together with the values of its literals
unless they are crowded. -/
lemma Query.exists_isOnValues_notPrepared_iff {sql : String} {f : Finding}
    (hf : f ∈ (Query.raw sql).findings d) (hc : f.code = .notPrepared) :
    (∃ g ∈ (Query.prepared (Suggestion.ofFinding ((raw sql).analysis d) f).query
        (.positional ((raw sql).analysis d).literalValues)).findings d, g.IsOnValues) ↔
      ((raw sql).analysis d).text.Crowds ((raw sql).analysis d).isLiteral := by
  have hex := Query.explains_of_mem_findings hf
  rw [Analysis.Explains, hc] at hex
  have hsel := Analysis.selects_isLiteral (a := (raw sql).analysis d) hex.2
  have htext : SqlText.ofString d (Suggestion.ofFinding ((raw sql).analysis d) f).query =
      ((raw sql).analysis d).text.withMarks ((raw sql).analysis d).isLiteral := by
    rw [query_ofFinding_notPrepared hc, SqlText.ofString_ofList]
    rfl
  rw [Query.exists_isOnValues_iff, htext, Analysis.literalValues, List.length_map]
  · exact (SqlText.length_placeholders_withMarks_iff hsel).not.trans Classical.not_not
  · rw [htext]
    exact fun p hp => SqlText.style_of_mem_placeholders_withMarks hsel hp

/-! ### The verdict -/

/-- The text that is suggested goes together with the values of the literals that it had. -/
def Config.LiteralsFit (c : Config) (sql : String) (context : Option Json) (f : Finding) : Prop :=
  ∀ g ∈ (c.validate (.prepared (Suggestion.ofFinding ((Query.raw sql).analysis c.dialect) f).query
    (.positional ((Query.raw sql).analysis c.dialect).literalValues)) context).findings,
      ¬ g.IsOnValues

/-- **The suggestion for a text that is not prepared is accepted exactly when no literal is
crowded**: when none stands right behind another, or behind a question mark or a colon. -/
theorem Config.literalsFit_iff {c : Config} (he : c.enabled) {sql : String} {f : Finding}
    {context : Option Json} (hf : f ∈ (c.validate (.raw sql) context).findings)
    (hc : f.code = .notPrepared) (context' : Option Json) :
    c.LiteralsFit sql context' f ↔
      ¬ (SqlText.ofString c.dialect sql).Crowds ((Query.raw sql).analysis c.dialect).isLiteral := by
  have hiff := Query.exists_isOnValues_notPrepared_iff (mem_findings_validate he hf) hc
  show c.LiteralsFit sql context' f ↔ ¬ ((Query.raw sql).analysis c.dialect).text.Crowds _
  rw [← hiff, ← exists_isOnValues_validate_iff he, not_exists]
  exact forall_congr' fun g => not_and.symm

/-- Two literals with words between them. -/
theorem Config.literalsFit_select :
    Reconciliation.notPrepared ∈ ((Config.mk true true .mysql .lenient).validate
        (.raw "SELECT a FROM t WHERE id = 1 AND b = 'x'") none).findings ∧
      (Config.mk true true .mysql .lenient).LiteralsFit
        "SELECT a FROM t WHERE id = 1 AND b = 'x'" none Reconciliation.notPrepared := by
  have h : Reconciliation.notPrepared ∈ ((Config.mk true true .mysql .lenient).validate
      (.raw "SELECT a FROM t WHERE id = 1 AND b = 'x'") none).findings := by decide +kernel
  exact ⟨h, (Config.literalsFit_iff rfl h rfl none).2 (by decide +kernel)⟩

/-- A bound of a slice stands right behind its colon: two values are to be bound, and the text that
is suggested has one placeholder. -/
theorem Config.not_literalsFit_slice :
    Reconciliation.notPrepared ∈ ((Config.mk true true .standard .lenient).validate
        (.raw "SELECT x[1:2]") none).findings ∧
      ¬ (Config.mk true true .standard .lenient).LiteralsFit "SELECT x[1:2]" none
        Reconciliation.notPrepared := by
  have hm : Reconciliation.notPrepared ∈ ((Config.mk true true .standard .lenient).validate
      (.raw "SELECT x[1:2]") none).findings := by decide +kernel
  refine ⟨hm, fun h => ?_⟩
  have hcrowds : (SqlText.ofString .standard "SELECT x[1:2]").Crowds
      ((Query.raw "SELECT x[1:2]").analysis .standard).isLiteral := by decide +kernel
  obtain ⟨g, hg, hv⟩ := (exists_isOnValues_validate_iff rfl).2
    ((Query.exists_isOnValues_notPrepared_iff (mem_findings_validate rfl hm) rfl).2 hcrowds)
  exact h g hg hv

end QueryGuard
