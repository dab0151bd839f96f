import QueryGuard.Proofs.Suggestion.Gains
import QueryGuard.Proofs.Suggestion.NotPrepared
import QueryGuard.Proofs.Suggestion.RebuiltRow

/-!
The snippet of a suggestion. Its SQL is the positional form of the suggested text, and it binds what
the template binds. Main statement: when the two go together, template by template.
-/

namespace QueryGuard

variable {d : Dialect}

/-! ### Texts in positional form -/

namespace SqlText

variable {t t' : SqlText} {new : List Placeholder.Style}

/-- A text without named placeholders is its own positional form. -/
lemma positional_of_forall (h : ∀ p ∈ t.placeholders, p.style = .positional) :
    t.positional = t := by
  have hnone : t.placeholders.filter (·.isNamed) = [] :=
    List.filter_eq_nil_iff.2 fun p hp => Placeholder.not_isNamed_iff.2 (h p hp)
  rw [positional, positionalText, hnone, List.map_nil, Edit.apply_nil]

lemma style_of_mem_positional {p : Placeholder} (hp : p ∈ t.positional.placeholders) :
    p.style = .positional := by
  rw [positional_eq_withMarks] at hp
  exact style_of_mem_placeholders_withMarks t.selects_isHolder hp

/-- A form that is positional stays. -/
lemma positional_positional (t : SqlText) : t.positional.positional = t.positional :=
  positional_of_forall fun _ => style_of_mem_positional

/-- The positional form has all placeholders exactly when none is crowded. -/
lemma length_positional_iff (t : SqlText) :
    t.positional.placeholders.length = t.placeholders.length ↔ ¬ t.Crowds Token.isHolder := by
  rw [length_placeholders_positional, ← length_filter_isHolder, length_kept_iff]

/-- Placeholders that are put in do not crowd others. -/
lemma Gains.length_positional_iff (h : t.Gains t' new) :
    t'.positional.placeholders.length = t.placeholders.length + new.length ↔
      ¬ t.Crowds Token.isHolder := by
  rw [length_placeholders_positional, h.kept, Nat.add_right_cancel_iff, ← length_filter_isHolder,
    length_kept_iff]

end SqlText

/-! ### The templates -/

namespace Analysis

variable {a : Analysis} {f : Finding}

/-- The snippet binds as many values as its SQL has placeholders. -/
def BindsAll (a : Analysis) (f : Finding) : Prop :=
  (a.template f).binds.length = (SqlText.positional
    (SqlText.ofString a.text.dialect (Suggestion.ofFinding a f).query)).placeholders.length

/-- What keeps a snippet from binding as many values as its SQL has placeholders. -/
def Misbinds (a : Analysis) (f : Finding) : Prop :=
  match f.code with
  | .notPrepared => a.text.Crowds a.isLiteral
  | .fieldCountMismatch => ∃ u ∈ a.text.kept Token.isHolder, ¬ f.Covers u.start
  | .missingWhere => a.text.Crowds Token.isHolder ∨ a.text.OpensAtAnchor
  | _ => a.text.Crowds Token.isHolder

lemma length_binds (a : Analysis) : a.binds.length = a.placeholders.length :=
  Bind.length_ofPlaceholders _ _

lemma length_binds_missingWhere (a : Analysis) :
    a.missingWhere.binds.length = a.placeholders.length + 1 := by
  have hle : a.bindsBeforeWhere ≤ a.binds.length := by
    rw [length_binds]
    exact List.countP_le_length
  rw [missingWhere, List.length_insertIdx_of_le_length hle, length_binds]

lemma length_binds_hardcoded {span : Span} (h : f.span = some span) :
    (a.hardcoded f).binds.length = a.placeholders.length + 1 := by
  simp [hardcoded, h, length_binds]

lemma length_fieldCount_iff (hs : a.statement = a.text.statement)
    (h : ∃ r ∈ a.statement.valueRows, f.span = some r.span) :
    (a.fieldCount f).binds.length =
        (SqlText.positional ⟨a.text.dialect, (a.fieldCount f).chars⟩).placeholders.length ↔
      ∀ u ∈ a.text.kept Token.isHolder, f.Covers u.start := by
  obtain ⟨span, as, bs, cs, hspan, hcut, hb, hread⟩ := rebuilds_fieldCount hs h
  have hbinds : (a.fieldCount f).binds.length = a.columns.length := List.length_map _
  have hrow : Lexeme.barsAfter (Lexeme.barsAfter false as) (Lexeme.row a.columns.length) = false :=
    Lexeme.barsAfter_parens _ _
  have hiff := hcut.forall_kept_iff
  rw [hb] at hiff
  simp only [Finding.covers_iff hspan]
  rw [hbinds, hiff, SqlText.length_placeholders_positional, hread.length_kept, Lexeme.loose_append,
    Lexeme.loose_append, Lexeme.loose_row, hrow]
  omega

lemma bindsAll_missingWhere_iff (hs : a.statement = a.text.statement)
    (hp : a.placeholders = a.text.placeholders) (hname : IsPlainName a.idColumn) :
    a.missingWhere.binds.length =
        (SqlText.positional ⟨a.text.dialect, a.missingWhere.chars⟩).placeholders.length ↔
      ¬ (a.text.Crowds Token.isHolder ∨ a.text.OpensAtAnchor) := by
  rw [length_binds_missingWhere, hp]
  by_cases ho : a.text.OpensAtAnchor
  · -- the clause is part of a literal, and its bind is one too many
    have hsame := placeholders_missingWhere_of_open hs ho hname
    refine iff_of_false (fun e => ?_) (fun h => h (.inr ho))
    have hle := SqlText.length_positional_le ⟨a.text.dialect, a.missingWhere.chars⟩
    rw [hsame, ← e] at hle
    omega
  · have hgains := gains_missingWhere hs ho hname
    rw [eq_comm, or_iff_left ho, ← hgains.length_positional_iff]
    rfl

lemma bindsAll_notPrepared_iff (hp : a.text.placeholders = []) :
    a.notPrepared.binds.length =
        (SqlText.positional ⟨a.text.dialect, a.notPrepared.chars⟩).placeholders.length ↔
      ¬ a.text.Crowds a.isLiteral := by
  have hsel := selects_isLiteral hp
  have hbinds : a.notPrepared.binds.length = (a.text.tokens.filter a.isLiteral).length :=
    List.length_map _
  have hform : SqlText.positional ⟨a.text.dialect, a.notPrepared.chars⟩ =
      a.text.withMarks a.isLiteral :=
    SqlText.positional_of_forall fun _ => SqlText.style_of_mem_placeholders_withMarks hsel
  rw [hbinds, hform, eq_comm, SqlText.length_placeholders_withMarks_iff hsel]

/-- **When a snippet binds what its SQL asks for**, template by template. -/
theorem bindsAll_iff (hs : a.statement = a.text.statement)
    (hp : a.placeholders = a.text.placeholders) (hex : a.Explains f)
    (hname : f.code = .missingWhere → IsPlainName a.idColumn) :
    a.BindsAll f ↔ ¬ a.Misbinds f := by
  -- the text stays, or all of it becomes positional
  have hsame : a.binds.length = (SqlText.positional
      ⟨a.text.dialect, a.text.chars⟩).placeholders.length ↔ ¬ a.text.Crowds Token.isHolder := by
    rw [length_binds, hp, eq_comm]
    exact a.text.length_positional_iff
  have hpositional : a.binds.length = (SqlText.positional
      ⟨a.text.dialect, a.allPositional⟩).placeholders.length ↔ ¬ a.text.Crowds Token.isHolder := by
    have hform : SqlText.positional ⟨a.text.dialect, a.allPositional⟩ = a.text.positional := by
      rw [SqlText.allPositional_eq hp]
      exact a.text.positional_positional
    rw [hform]
    exact hsame
  unfold Explains at hex
  rw [BindsAll, ofString_query]
  unfold rewritten template Misbinds
  cases hc : f.code with
  | notPrepared =>
    rw [hc] at hex
    exact bindsAll_notPrepared_iff (hp ▸ hex.2)
  | paramCountMismatch => exact hsame
  | paramNameMismatch => exact hpositional
  | fieldCountMismatch =>
    rw [hc] at hex
    obtain ⟨-, columns, -, hr⟩ := hex
    simpa using length_fieldCount_iff hs hr
  | mixedPlaceholders => exact hpositional
  | malformedBindings => exact hpositional
  | missingWhere => exact bindsAll_missingWhere_iff hs hp (hname hc)
  | selectStar =>
    rw [hc] at hex
    have hgains := (gains_selectStar hs hex).length_positional_iff
    have hbinds : a.selectStar.binds.length = a.text.placeholders.length := hp ▸ length_binds a
    show a.selectStar.binds.length = _ ↔ _
    rw [hbinds, ← hgains, eq_comm]
    rfl
  | hardcodedValue =>
    rw [hc] at hex
    have hgains := (gains_hardcoded hex).length_positional_iff
    obtain ⟨-, -, span, -, hspan⟩ := hex
    show (a.hardcoded f).binds.length = _ ↔ _
    rw [length_binds_hardcoded hspan, hp, ← hgains, eq_comm]
    rfl
  | injectionSuspected => exact hsame

/-! ### The column of a new clause -/

/-- Where everything that is bound has a placeholder, a new clause has the column `id`. -/
lemma idColumn_of_fits {b : Bindings} (hb : a.supplied = .bound b) (hf : b.Fits a.placeholders) :
    a.idColumn = "id" := by
  have hused : ∀ n ∈ b.names, n ∈ a.placeholders.filterMap Placeholder.name? := by
    intro n hn
    cases hf with
    | none b _ hz =>
      have hnil : b.names = [] := by
        cases b with
        | positional => rfl
        | named pairs => rw [Bindings.names, List.length_eq_zero_iff.1 hz, List.map_nil]
      rw [hnil] at hn
      exact absurd hn List.not_mem_nil
    | positional => exact absurd hn List.not_mem_nil
    | named pairs _ hnames =>
      obtain ⟨p, hp, hs⟩ := (hnames n).1 hn
      exact List.mem_filterMap.2 ⟨p, hp, by rw [Placeholder.name?, hs]⟩
  -- so no bound name is left over that the column could take
  have hnone : b.sortedNames.find? (fun n => isIdName n &&
      !(a.placeholders.filterMap Placeholder.name?).contains n) = none := by
    refine List.find?_eq_none.2 fun n hn => ?_
    have hmem := hused n ((List.mergeSort_perm _ _).mem_iff.1 hn)
    rw [List.contains_iff_mem.2 hmem, Bool.not_true, Bool.and_false]
    exact Bool.false_ne_true
  have hnames : (a.supplied.bindings?.map Bindings.sortedNames).getD [] = b.sortedNames := by
    rw [hb]
    rfl
  rw [idColumn, hnames, hnone]
  rfl

lemma isPlainName_id : IsPlainName "id" :=
  ⟨by decide +kernel, List.all_eq_true.1 (by decide +kernel)⟩

end Analysis

/-! ### Suggestions of a validation -/

/-- Without an error, what is bound fits the placeholders. -/
lemma Query.exists_fits {q : Query} (h : ∀ f ∈ q.findings d, ¬ f.isError) :
    ∃ b, (q.analysis d).supplied = .bound b ∧ b.Fits (q.analysis d).placeholders := by
  have hno := mt (exists_isError_iff q d).2 fun ⟨f, hf, he⟩ => h f hf he
  rw [not_or, Classical.not_not, Classical.not_not, reconcile_eq_nil_iff] at hno
  obtain ⟨hmal, hm, hb, -⟩ := hno
  cases q with
  | raw sql => exact absurd hb (Reconciliation.bindings_raw_ne_nil hm)
  | prepared sql params =>
    obtain ⟨b, hr⟩ := malformedFinding?_prepared.1 hmal
    have hs : (prepared sql params).supplied = .bound b := by simp [supplied, params?, hr]
    have hs : ((prepared sql params).analysis d).supplied = .bound b := hs
    rw [hs] at hb
    exact ⟨b, hs, (Reconciliation.bindings_eq_nil_iff hm).1 hb⟩

lemma Finding.mem_of_primary? {fs : List Finding} {f : Finding} (h : primary? fs = some f) :
    f ∈ fs := by
  unfold primary? at h
  rcases Option.or_eq_some_iff.1 h with h | ⟨-, h⟩
  · exact List.mem_of_find?_eq_some h
  · rcases Option.or_eq_some_iff.1 h with h | ⟨-, h⟩
    · exact List.mem_of_find?_eq_some h
    · exact List.mem_of_find?_eq_some h

/-- A finding that is no error comes first only where there is none. -/
lemma Finding.not_isError_of_primary? {fs : List Finding} {f : Finding}
    (h : primary? fs = some f) (hf : ¬ f.isError) : ∀ g ∈ fs, ¬ g.isError := by
  unfold primary? at h
  rcases Option.or_eq_some_iff.1 h with h | ⟨h, -⟩
  · exact absurd (List.find?_some h) hf
  · exact List.find?_eq_none.1 h

/-- The column of a clause that is suggested first. -/
lemma Query.isPlainName_idColumn {q : Query} {f : Finding}
    (h : Finding.primary? (Report.ofFindings (q.findings d)).findings = some f)
    (hc : f.code = .missingWhere) : IsPlainName (q.analysis d).idColumn := by
  have hgraded : ∀ g ∈ q.findings d, g.IsGraded := fun _ => isGraded_of_mem_findings
  have hf := hgraded f (Report.mem_of_mem_ofFindings (Finding.mem_of_primary? h))
  have hwarning : ¬ f.isError := by
    rw [Finding.isError, hf, hc]
    decide
  have hno := Finding.not_isError_of_primary? h hwarning
  obtain ⟨b, hb, hfits⟩ := q.exists_fits fun g hg he => by
    obtain ⟨e, hm, he⟩ := (exists_isError_ofFindings_iff hgraded).2 ⟨g, hg, he⟩
    exact hno e hm he
  rw [Analysis.idColumn_of_fits hb hfits]
  exact Analysis.isPlainName_id

/-- **When the snippet of a suggestion binds what its SQL asks for.** -/
theorem Config.bindsAll_suggestion_iff {c : Config} {q : Query} {context : Option Json}
    {s : Suggestion} (h : (c.validate q context).suggestion = some s) :
    ∃ f, Finding.primary? (c.validate q context).findings = some f ∧
      s = Suggestion.ofFinding (q.analysis c.dialect) f ∧
      s.code = Suggestion.snippet
        (SqlText.positional (SqlText.ofString c.dialect s.query)).chars
        ((q.analysis c.dialect).template f).binds (q.analysis c.dialect).statement.kind ∧
      ((q.analysis c.dialect).BindsAll f ↔ ¬ (q.analysis c.dialect).Misbinds f) := by
  unfold validate at h ⊢
  split at h
  · next he =>
    rw [if_pos he]
    dsimp only at h ⊢
    split at h
    · obtain ⟨f, hf, rfl⟩ := Option.map_eq_some_iff.1 h
      have hmem := Report.mem_of_mem_ofFindings (Finding.mem_of_primary? hf)
      refine ⟨f, hf, rfl, ?_, ?_⟩
      · have hquery : SqlText.ofString c.dialect
            (Suggestion.ofFinding (q.analysis c.dialect) f).query =
              (q.analysis c.dialect).rewritten f := (q.analysis c.dialect).ofString_query f
        rw [hquery]
        rfl
      · exact Analysis.bindsAll_iff rfl rfl (Query.explains_of_mem_findings hmem)
          (Query.isPlainName_idColumn hf)
    · cases h
  · cases h

/-- One placeholder without a value. -/
theorem Config.bindsAll_suggestion_select : ∃ s f,
    ((Config.mk true true .standard .lenient).validate
      (.raw "SELECT a FROM t WHERE b = ?") none).suggestion = some s ∧
    s = Suggestion.ofFinding ((Query.raw "SELECT a FROM t WHERE b = ?").analysis .standard) f ∧
    ((Query.raw "SELECT a FROM t WHERE b = ?").analysis .standard).BindsAll f := by
  have hsome : ((Config.mk true true .standard .lenient).validate
      (.raw "SELECT a FROM t WHERE b = ?") none).suggestion.isSome := by decide +kernel
  have hcode : (Finding.primary? ((Config.mk true true .standard .lenient).validate
      (.raw "SELECT a FROM t WHERE b = ?") none).findings).map (·.code) =
        some .paramCountMismatch := by decide +kernel
  have hcrowds : ¬ ((Query.raw "SELECT a FROM t WHERE b = ?").analysis .standard).text.Crowds
      Token.isHolder := by decide +kernel
  obtain ⟨s, hs⟩ := Option.isSome_iff_exists.1 hsome
  obtain ⟨f, hf, hsf, -, hiff⟩ := Config.bindsAll_suggestion_iff hs
  rw [hf] at hcode
  have hc : f.code = .paramCountMismatch := Option.some.inj hcode
  refine ⟨s, f, hs, hsf, hiff.2 ?_⟩
  rw [Analysis.Misbinds, hc]
  exact hcrowds

/-! ### A row among others -/

lemma Report.findings_prefix (r : Report) (fs : List Finding) :
    r.findings <+: (fs.foldl push r).findings := by
  induction fs generalizing r with
  | nil => exact List.prefix_refl _
  | cons f fs ih =>
    refine List.IsPrefix.trans ?_ (ih (r.push f))
    rw [push]
    split
    · exact List.prefix_refl _
    · exact List.prefix_append _ _

/-- The first error is one of the parameters, or of comparing them with the text. -/
lemma Query.primary?_of_error {q : Query} {f : Finding}
    (h : (Report.ofFindings (q.malformedFinding?.toList ++ reconcile (q.analysis d).placeholders
      (q.analysis d).supplied (q.analysis d).statement)).findings.find? (·.severity == .error) =
        some f) :
    Finding.primary? (Report.ofFindings (q.findings d)).findings = some f := by
  have hpre := Report.findings_prefix (Report.ofFindings (q.malformedFinding?.toList ++
    reconcile (q.analysis d).placeholders (q.analysis d).supplied (q.analysis d).statement))
      ((q.analysis d).text.review ++ (q.params?.map Injection.findings).getD [])
  rw [Report.ofFindings, ← List.foldl_append, ← List.append_assoc] at hpre
  have hfirst := hpre.find?_eq_some h
  exact congrArg (Option.or · _) hfirst

/-- A row is rebuilt next to one that has a placeholder: the text that is suggested has three, and
two values are bound. -/
theorem Config.not_bindsAll_suggestion_insert : ∃ s f,
    ((Config.mk true true .standard .lenient).validate
      (.prepared "INSERT INTO t (a, b) VALUES (?, 2), (3)" (.positional [.int 1])) none).suggestion =
        some s ∧
    s = Suggestion.ofFinding ((Query.prepared "INSERT INTO t (a, b) VALUES (?, 2), (3)"
      (.positional [.int 1])).analysis .standard) f ∧
    ¬ ((Query.prepared "INSERT INTO t (a, b) VALUES (?, 2), (3)"
      (.positional [.int 1])).analysis .standard).BindsAll f := by
  have hfirst := Query.primary?_of_error (d := .standard)
    (q := .prepared "INSERT INTO t (a, b) VALUES (?, 2), (3)" (.positional [.int 1]))
    (f := .withSpan (.ofCode .fieldCountMismatch
      "INSERT into t lists 2 columns but VALUES row 2 has 1 value") ⟨36, 39⟩) (by decide +kernel)
  refine ⟨_, _, congrArg (Option.map _) hfirst, rfl, ?_⟩
  unfold Analysis.BindsAll
  decide +kernel

end QueryGuard
