import Mathlib.Tactic.Lemma
import QueryGuard.Guard

/-!
Severities in a report. Every finding has the severity of its code, so leaving out a finding whose
code and message a report has already never leaves out an error. Main statement: under a policy
that lets warnings pass, a validation fails exactly when the parameters follow no protocol or the
comparison of placeholders, values and rows finds something.
-/

namespace QueryGuard

/-! ### What a report keeps -/

namespace Report

lemma mem_of_mem_foldl_push {f : Finding} {fs : List Finding} {r : Report}
    (h : f ∈ (fs.foldl push r).findings) : f ∈ r.findings ∨ f ∈ fs := by
  induction fs generalizing r with
  | nil => exact .inl h
  | cons g fs ih =>
    rcases ih h with h | h
    · rw [push] at h
      split at h
      · exact .inl h
      · rcases List.mem_append.1 h with h | h
        · exact .inl h
        · exact .inr (List.mem_cons.2 (.inl (List.mem_singleton.1 h)))
    · exact .inr (List.mem_cons_of_mem _ h)

lemma mem_foldl_push_of_mem {f : Finding} {fs : List Finding} {r : Report} (h : f ∈ r.findings) :
    f ∈ (fs.foldl push r).findings := by
  induction fs generalizing r with
  | nil => exact h
  | cons g fs ih =>
    apply ih
    rw [push]
    split
    · exact h
    · exact List.mem_append_left _ h

/-- A report has only findings that were put into it. -/
lemma mem_of_mem_ofFindings {f : Finding} {fs : List Finding}
    (h : f ∈ (ofFindings fs).findings) : f ∈ fs := by
  rcases mem_of_mem_foldl_push h with h | h
  · exact absurd h List.not_mem_nil
  · exact h

/-- A report has, for every finding that was put into it, one with the same code and message. -/
lemma exists_mem_ofFindings {f : Finding} {fs : List Finding} (h : f ∈ fs) :
    ∃ g ∈ (ofFindings fs).findings, g.code = f.code ∧ g.message = f.message := by
  unfold ofFindings
  generalize empty = r
  induction fs generalizing r with
  | nil => exact absurd h List.not_mem_nil
  | cons e fs ih =>
    rcases List.mem_cons.1 h with rfl | h
    · by_cases hs : r.findings.any (sameFinding f)
      · -- the finding is left out, and the one it repeats stays to the end
        have hp : r.push f = r := if_pos hs
        obtain ⟨g, hg, hs⟩ := List.any_eq_true.1 hs
        simp only [sameFinding, Bool.and_eq_true, beq_iff_eq] at hs
        rw [List.foldl_cons, hp]
        exact ⟨g, mem_foldl_push_of_mem hg, hs.1.symm, hs.2.symm⟩
      · have hp : r.push f = { r with findings := r.findings ++ [f] } := if_neg hs
        rw [List.foldl_cons, hp]
        exact ⟨f, mem_foldl_push_of_mem (List.mem_append_right _ List.mem_cons_self), rfl, rfl⟩
    · exact ih h _

end Report

/-! ### The severity of a finding is that of its code -/

/-- The finding has the severity of its code. -/
def Finding.IsGraded (f : Finding) : Prop := f.severity = f.code.severity

namespace Reconciliation

lemma count?_eq {expected given : Nat} {f : Finding} (h : f ∈ count? expected given) :
    ∃ message, f = .ofCode .paramCountMismatch message := by
  unfold count? at h
  split at h
  · exact ⟨_, (Option.some.inj h).symm⟩
  · split at h
    · exact ⟨_, (Option.some.inj h).symm⟩
    · cases h

lemma eq_of_mem_names {ps : List Placeholder} {b : Bindings} {f : Finding} (h : f ∈ names ps b) :
    ∃ message, f = .ofCode .paramNameMismatch message := by
  rcases List.mem_append.1 h with h | h <;> split at h
  · cases h
  · exact ⟨_, List.mem_singleton.1 h⟩
  · cases h
  · exact ⟨_, List.mem_singleton.1 h⟩

lemma eq_of_mem_rows {s : Statement} {f : Finding} (h : f ∈ rows s) :
    ∃ message span, f = Finding.withSpan (.ofCode .fieldCountMismatch message) span := by
  unfold rows at h
  split at h
  · simp only [List.mem_filterMap, List.mem_mapIdx, id] at h
    obtain ⟨_, ⟨i, hi, h⟩, rfl⟩ := h
    split at h
    · exact ⟨_, _, (Option.some.inj h).symm⟩
    · cases h
  · cases h

lemma eq_of_mem_bindings {ps : List Placeholder} {supplied : Supplied} {f : Finding}
    (h : f ∈ bindings ps supplied) : ∃ code message, f = .ofCode code message ∧
      code.severity = .error := by
  have hcount : ∀ {e g : Nat}, f ∈ (count? e g).toList → ∃ code message,
      f = .ofCode code message ∧ code.severity = .error := fun h => by
    obtain ⟨message, rfl⟩ := count?_eq (Option.mem_toList.1 h)
    exact ⟨_, message, rfl, rfl⟩
  have hnames : ∀ {b : Bindings}, f ∈ names ps b → ∃ code message,
      f = .ofCode code message ∧ code.severity = .error := fun h => by
    obtain ⟨message, rfl⟩ := eq_of_mem_names h
    exact ⟨_, message, rfl, rfl⟩
  dsimp only [bindings] at h
  split at h
  · cases h
  · split at h
    · exact ⟨_, _, List.mem_singleton.1 h, rfl⟩
    · exact hcount h
    · exact hnames h
    · cases h
  · split at h
    · exact hcount h
    · exact hcount h
    · exact ⟨_, _, List.mem_singleton.1 h, rfl⟩
    · exact hnames h
    · cases h

end Reconciliation

lemma Placeholder.eq_of_mem_mixedFinding? {ps : List Placeholder} {f : Finding}
    (h : f ∈ mixedFinding? ps) : ∃ message, f = .ofCode .mixedPlaceholders message := by
  unfold mixedFinding? at h
  split at h
  · exact ⟨_, (Option.some.inj h).symm⟩
  · cases h

lemma Statement.eq_of_mem_whereFinding? {s : Statement} {f : Finding} (h : f ∈ s.whereFinding?) :
    (∃ message, f = .ofCode .missingWhere message) ∧ s.hasWhere = false ∧
      (s.kind = .update ∨ s.kind = .delete) := by
  unfold whereFinding? at h
  split at h
  · cases h
  · next hw =>
    have hw : s.hasWhere = false := by simpa using hw
    split at h
    · next hk => exact ⟨⟨_, (Option.some.inj h).symm⟩, hw, .inl hk⟩
    · next hk => exact ⟨⟨_, (Option.some.inj h).symm⟩, hw, .inr hk⟩
    · cases h

lemma isError_of_mem_reconcile {ps : List Placeholder} {supplied : Supplied} {s : Statement}
    {f : Finding} (h : f ∈ reconcile ps supplied s) : f.IsGraded ∧ f.isError := by
  rcases List.mem_append.1 h with h | h
  · rcases List.mem_append.1 h with h | h
    · obtain ⟨message, rfl⟩ := Placeholder.eq_of_mem_mixedFinding? (Option.mem_toList.1 h)
      exact ⟨rfl, rfl⟩
    · obtain ⟨code, message, rfl, hc⟩ := Reconciliation.eq_of_mem_bindings h
      exact ⟨rfl, by simp [Finding.isError, Finding.ofCode, hc]⟩
  · obtain ⟨message, span, rfl⟩ := Reconciliation.eq_of_mem_rows h
    exact ⟨rfl, rfl⟩

lemma not_isError_of_mem_review {t : SqlText} {f : Finding} (h : f ∈ t.review) :
    f.IsGraded ∧ ¬ f.isError := by
  rcases List.mem_append.1 h with h | h
  · rcases List.mem_append.1 h with h | h
    · obtain ⟨⟨message, rfl⟩, -⟩ := Statement.eq_of_mem_whereFinding? (Option.mem_toList.1 h)
      exact ⟨rfl, Bool.false_ne_true⟩
    · obtain ⟨star, -, rfl⟩ := Option.map_eq_some_iff.1 (Option.mem_toList.1 h)
      exact ⟨rfl, Bool.false_ne_true⟩
  · obtain ⟨span, -, rfl⟩ := List.mem_map.1 h
    exact ⟨rfl, Bool.false_ne_true⟩

lemma not_isError_of_mem_injection {params : Params} {f : Finding}
    (h : f ∈ Injection.findings params) : f.IsGraded ∧ ¬ f.isError := by
  obtain ⟨⟨key, v⟩, -, h⟩ := List.mem_flatMap.1 h
  dsimp only at h
  split at h
  · obtain ⟨check, -, rfl⟩ := List.mem_map.1 h
    exact ⟨rfl, Bool.false_ne_true⟩
  · cases h

lemma isError_of_mem_malformedFinding {q : Query} {f : Finding} (h : f ∈ q.malformedFinding?) :
    f.IsGraded ∧ f.isError := by
  unfold Query.malformedFinding? at h
  split at h
  · cases h
  · split at h
    · cases h
    · obtain rfl := Option.some.inj h
      exact ⟨rfl, rfl⟩

/-- **Every finding on a query has the severity of its code.** -/
theorem isGraded_of_mem_findings {q : Query} {d : Dialect} {f : Finding}
    (h : f ∈ q.findings d) : f.IsGraded := by
  rcases List.mem_append.1 h with h | h
  · rcases List.mem_append.1 h with h | h
    · rcases List.mem_append.1 h with h | h
      · exact (isError_of_mem_malformedFinding (Option.mem_toList.1 h)).1
      · exact (isError_of_mem_reconcile h).1
    · exact (not_isError_of_mem_review h).1
  · cases hp : q.params? with
    | none => simp [hp] at h
    | some params =>
      rw [hp] at h
      exact (not_isError_of_mem_injection h).1

/-- There is an error on a query when its parameters follow no protocol, or when they do not go
together with its placeholders and rows. -/
theorem exists_isError_iff (q : Query) (d : Dialect) :
    (∃ f ∈ q.findings d, f.isError) ↔ q.malformedFinding? ≠ none ∨
      reconcile (q.analysis d).placeholders (q.analysis d).supplied
        (q.analysis d).statement ≠ [] := by
  constructor
  · rintro ⟨f, h, he⟩
    rcases List.mem_append.1 h with h | h
    · rcases List.mem_append.1 h with h | h
      · rcases List.mem_append.1 h with h | h
        · exact .inl fun hn => by simp [hn] at h
        · exact .inr (List.ne_nil_of_mem h)
      · exact absurd he (not_isError_of_mem_review h).2
    · cases hp : q.params? with
      | none => simp [hp] at h
      | some params =>
        rw [hp] at h
        exact absurd he (not_isError_of_mem_injection h).2
  · rintro (h | h)
    · obtain ⟨f, hf⟩ := Option.ne_none_iff_exists'.1 h
      refine ⟨f, ?_, (isError_of_mem_malformedFinding hf).2⟩
      simp [Query.findings, hf]
    · obtain ⟨f, hf⟩ := List.exists_mem_of_ne_nil _ h
      refine ⟨f, ?_, (isError_of_mem_reconcile hf).2⟩
      simp [Query.findings, hf]

/-- A report has an error exactly when one was put into it. -/
theorem exists_isError_ofFindings_iff {fs : List Finding} (h : ∀ f ∈ fs, f.IsGraded) :
    (∃ f ∈ (Report.ofFindings fs).findings, f.isError) ↔ ∃ f ∈ fs, f.isError := by
  constructor
  · rintro ⟨f, hf, he⟩
    exact ⟨f, Report.mem_of_mem_ofFindings hf, he⟩
  · rintro ⟨f, hf, he⟩
    obtain ⟨g, hg, hc, -⟩ := Report.exists_mem_ofFindings hf
    refine ⟨g, hg, ?_⟩
    have hgs : g.severity = f.severity := by
      rw [h g (Report.mem_of_mem_ofFindings hg), hc, ← h f hf]
    rwa [Finding.isError, hgs]

/-! ### The status of a validation -/

lemma blocks_lenient (f : Finding) : Policy.lenient.blocks f = f.isError := by
  unfold Policy.blocks Finding.isError
  cases f.severity <;> rfl

/-- **When a validation fails** under a policy that lets warnings pass. -/
theorem status_validate_eq_error_iff {c : Config} (he : c.enabled) (hp : c.policy = .lenient)
    (q : Query) (context : Option Json) :
    (c.validate q context).status = .error ↔ q.malformedFinding? ≠ none ∨
      reconcile (q.analysis c.dialect).placeholders (q.analysis c.dialect).supplied
        (q.analysis c.dialect).statement ≠ [] := by
  rw [← exists_isError_iff, ← exists_isError_ofFindings_iff fun _ => isGraded_of_mem_findings]
  simp only [Config.validate, he, if_true, Config.status, hp]
  have hb : Policy.lenient.blocks = Finding.isError := funext blocks_lenient
  rw [hb]
  split
  · next h => exact ⟨fun _ => List.any_eq_true.1 h, fun _ => rfl⟩
  · next h => exact ⟨nofun, fun hf => absurd (List.any_eq_true.2 hf) h⟩

end QueryGuard
