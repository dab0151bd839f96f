import QueryGuard.Proofs.Guard.Acceptance

/-!
Where findings come from. The code of a finding tells which rule found it, so it tells something of
the query: what is not prepared has no placeholders, what lacks a `WHERE` is an `UPDATE` or a
`DELETE`, and so on.
-/

namespace QueryGuard

/-- What the code of a finding tells of the query. -/
def Analysis.Explains (a : Analysis) (f : Finding) : Prop :=
  match f.code with
  | .notPrepared => a.supplied = .raw ∧ a.placeholders = []
  | .fieldCountMismatch =>
    a.statement.kind = .insert ∧ ∃ columns, a.statement.columns = some columns ∧
      ∃ r ∈ a.statement.valueRows, f.span = some r.span
  | .missingWhere =>
    a.statement.hasWhere = false ∧ (a.statement.kind = .update ∨ a.statement.kind = .delete)
  | .selectStar => ∃ star, a.statement.star = some star
  | .hardcodedValue =>
    ∃ l ∈ a.text.parenLists, ∃ span ∈ l.hardcoded, f.span = some span
  | _ => True

namespace Reconciliation

lemma mem_of_mem_rows {s : Statement} {f : Finding} (h : f ∈ rows s) :
    f.code = .fieldCountMismatch ∧ s.kind = .insert ∧ ∃ columns, s.columns = some columns ∧
      ∃ r ∈ s.valueRows, f.span = some r.span := by
  unfold rows at h
  split at h
  · next columns hk hc =>
    simp only [List.mem_filterMap, List.mem_mapIdx, id] at h
    obtain ⟨_, ⟨i, hi, h⟩, rfl⟩ := h
    split at h
    · obtain rfl := Option.some.inj h
      exact ⟨rfl, hk, columns, hc, s.valueRows[i], List.getElem_mem hi, rfl⟩
    · cases h
  · cases h

/-- Only a text alone is called not prepared, and only one without placeholders. -/
lemma code_of_mem_bindings {ps : List Placeholder} {supplied : Supplied} {f : Finding}
    (h : f ∈ bindings ps supplied) :
    f.code = .notPrepared ∧ supplied = .raw ∧ ps = [] ∨ f.code = .paramCountMismatch ∨
      f.code = .paramNameMismatch := by
  have hcount : ∀ {e g : Nat}, f ∈ (count? e g).toList → f.code = .paramCountMismatch := by
    intro e g h
    obtain ⟨message, rfl⟩ := count?_eq (Option.mem_toList.1 h)
    rfl
  have hnames : ∀ {b : Bindings}, f ∈ names ps b → f.code = .paramNameMismatch := by
    intro b h
    obtain ⟨message, rfl⟩ := eq_of_mem_names h
    rfl
  have hnil : Placeholder.protocol ps = .none → ps = [] := by
    intro hp
    rcases Placeholder.protocol_cases ps with ⟨-, e⟩ | ⟨hp', -⟩ | ⟨hp', -⟩ | ⟨hp', -⟩
    · exact e
    · rw [hp] at hp'
      cases hp'
    · rw [hp] at hp'
      cases hp'
    · rw [hp] at hp'
      cases hp'
  -- the parameters are malformed, or there is a text alone, or values are bound
  dsimp only [bindings] at h
  split at h
  · cases h
  · split at h
    · next hp =>
      obtain rfl := List.mem_singleton.1 h
      exact .inl ⟨rfl, rfl, hnil hp⟩
    · exact .inr (.inl (hcount h))
    · exact .inr (.inr (hnames h))
    · cases h
  · split at h
    · exact .inr (.inl (hcount h))
    · exact .inr (.inl (hcount h))
    · obtain rfl := List.mem_singleton.1 h
      exact .inr (.inr rfl)
    · exact .inr (.inr (hnames h))
    · cases h

end Reconciliation

variable {q : Query} {d : Dialect} {f : Finding}

lemma code_of_mem_malformedFinding? (h : f ∈ q.malformedFinding?) :
    f.code = .malformedBindings := by
  unfold Query.malformedFinding? at h
  split at h
  · cases h
  · split at h
    · cases h
    · obtain rfl := Option.some.inj h
      rfl

lemma code_of_mem_injection {params : Params} (h : f ∈ Injection.findings params) :
    f.code = .injectionSuspected := by
  obtain ⟨⟨key, v⟩, -, h⟩ := List.mem_flatMap.1 h
  dsimp only at h
  split at h
  · obtain ⟨check, -, rfl⟩ := List.mem_map.1 h
    rfl
  · cases h

/-- What is found in a text alone is explained by it. -/
lemma explains_of_mem_review {a : Analysis} (ha : a.statement = a.text.statement)
    (h : f ∈ a.text.review) : a.Explains f ∧
      (f.code = .missingWhere ∨ f.code = .selectStar ∨ f.code = .hardcodedValue) := by
  rcases List.mem_append.1 h with h | h
  · rcases List.mem_append.1 h with h | h
    · obtain ⟨⟨message, rfl⟩, hw, hk⟩ :=
        Statement.eq_of_mem_whereFinding? (Option.mem_toList.1 h)
      refine ⟨?_, .inl rfl⟩
      rw [Analysis.Explains, ha]
      exact ⟨hw, hk⟩
    · obtain ⟨star, hs, rfl⟩ := Option.map_eq_some_iff.1 (Option.mem_toList.1 h)
      refine ⟨?_, .inr (.inl rfl)⟩
      show ∃ star, a.statement.star = some star
      rw [ha]
      exact ⟨star, hs⟩
  · obtain ⟨span, hm, rfl⟩ := List.mem_map.1 h
    obtain ⟨l, hl, hspan⟩ := List.mem_flatMap.1 hm
    exact ⟨⟨l, (List.mergeSort_perm _ _).mem_iff.1 hl, span, hspan, rfl⟩, .inr (.inr rfl)⟩

lemma explains_of_mem_reconcile {a : Analysis}
    (h : f ∈ reconcile a.placeholders a.supplied a.statement) : a.Explains f := by
  rcases List.mem_append.1 h with h | h
  · rcases List.mem_append.1 h with h | h
    · obtain ⟨message, rfl⟩ := Placeholder.eq_of_mem_mixedFinding? (Option.mem_toList.1 h)
      trivial
    · rcases Reconciliation.code_of_mem_bindings h with ⟨hc, hs, hp⟩ | hc | hc
      · rw [Analysis.Explains, hc]
        exact ⟨hs, hp⟩
      · rw [Analysis.Explains, hc]
        trivial
      · rw [Analysis.Explains, hc]
        trivial
  · obtain ⟨hc, hr⟩ := Reconciliation.mem_of_mem_rows h
    rw [Analysis.Explains, hc]
    exact hr

/-- **Every finding on a query is explained by it.** -/
theorem Query.explains_of_mem_findings (h : f ∈ q.findings d) : (q.analysis d).Explains f := by
  rcases List.mem_append.1 h with h | h
  · rcases List.mem_append.1 h with h | h
    · rcases List.mem_append.1 h with h | h
      · rw [Analysis.Explains, code_of_mem_malformedFinding? (Option.mem_toList.1 h)]
        trivial
      · exact explains_of_mem_reconcile h
    · exact (explains_of_mem_review rfl h).1
  · cases hp : q.params? with
    | none => simp [hp] at h
    | some params =>
      rw [hp] at h
      rw [Analysis.Explains, code_of_mem_injection h]
      trivial

end QueryGuard
