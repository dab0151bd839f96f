import QueryGuard.Proofs.Guard.Suppression

/-!
What bound values do to a report. Main statement: parameters with the same keys are found the same
fault with, up to what the checks for injections find, and the status is the same where these find
the same. With `null` for every value, the shape of the parameters and the comparison with the
placeholders come to what they came to before.
-/

namespace QueryGuard

/-! ### Without values -/

/-- What is supplied, with `null` for every value. -/
def Supplied.erased : Supplied → Supplied
  | bound b => bound b.erased
  | s => s

namespace Bindings

lemma size_erased (b : Bindings) : b.erased.size = b.size := by
  cases b <;> exact List.length_map _

lemma names_erased (b : Bindings) : b.erased.names = b.names := by
  cases b with
  | positional => rfl
  | named pairs =>
    show (pairs.map fun x => (x.1, Value.null)).map (·.1) = pairs.map (·.1)
    rw [List.map_map]
    rfl

end Bindings

namespace Reconciliation

variable {ps : List Placeholder}

lemma positionHint_erased (b : Bindings) : positionHint b.erased = positionHint b := by
  rcases b with ⟨_ | ⟨v, vs⟩⟩ | pairs
  · rfl
  · simp [positionHint, Bindings.erased]
  · rfl

lemma names_erased (b : Bindings) : names ps b.erased = names ps b := by
  unfold names missingNames unexpectedNames
  rw [Bindings.names_erased, positionHint_erased]

/-- The comparison counts values and reads names. -/
lemma bindings_erased (s : Supplied) : bindings ps s.erased = bindings ps s := by
  cases s with
  | raw => rfl
  | malformed => rfl
  | bound b =>
    dsimp only [bindings, Supplied.erased]
    cases Placeholder.protocol ps with
    | none =>
      dsimp only
      rw [Bindings.size_erased]
    | positional =>
      cases b with
      | positional values =>
        dsimp only [Bindings.erased]
        rw [List.length_map]
      | named pairs =>
        have hnames : (Bindings.named pairs).erased.names = pairs.map (·.1) :=
          Bindings.names_erased _
        exact congrArg (fun ns => [namedForPositional ps.length ns]) hnames
    | named => exact names_erased b
    | mixed => rfl

end Reconciliation

namespace Query

variable (sql : String) (p : Params) (d : Dialect)

lemma supplied_erased : (prepared sql p.erased).supplied = (prepared sql p).supplied.erased := by
  unfold supplied
  dsimp only [params?]
  rw [p.resolve_erased]
  cases p.resolve <;> rfl

lemma malformedFinding?_erased :
    (prepared sql p.erased).malformedFinding? = (prepared sql p).malformedFinding? := by
  unfold malformedFinding?
  dsimp only [params?]
  rw [p.resolve_erased]
  cases p.resolve <;> rfl

lemma reconciled_erased :
    (prepared sql p.erased).reconciled d = (prepared sql p).reconciled d := by
  unfold reconciled reconcile analysis
  rw [supplied_erased, Reconciliation.bindings_erased]
  rfl

end Query

/-! ### With the same keys -/

/-- What a report keeps beside the findings on bound strings. -/
lemma Query.filter_findings_ofFindings (q : Query) (d : Dialect) :
    (Report.ofFindings (q.findings d)).findings.filter (·.code ≠ .injectionSuspected) =
      q.malformedFinding?.toList ++ q.reconciled d ++
        (q.analysis d).text.review.eraseDupsBy Report.sameFinding := by
  have hmem : ∀ {fs : List Finding} {f : Finding},
      f ∈ fs.eraseDupsBy Report.sameFinding → f ∈ fs := fun {fs f} h => by
    rw [← Report.findings_ofFindings] at h
    exact Report.mem_of_mem_ofFindings h
  have hstage : ∀ {f : Finding}, f.code.stage < 3 → decide (f.code ≠ .injectionSuspected) = true :=
    fun {f} h => decide_eq_true fun hf => absurd (hf ▸ h) (by decide)
  rw [findings_ofFindings, List.filter_append]
  have hinjections : (q.injections.eraseDupsBy Report.sameFinding).filter
      (·.code ≠ .injectionSuspected) = [] := by
    refine List.filter_eq_nil_iff.2 fun f hf hne => ?_
    exact of_decide_eq_true hne (code_of_mem_injections (hmem hf))
  rw [hinjections, List.append_nil]
  refine List.filter_eq_self.2 fun f hf => hstage ?_
  rcases List.mem_append.1 hf with hf | hf
  · rcases List.mem_append.1 hf with hf | hf
    · exact (stage_of_mem_malformedFinding? hf).trans_lt (by decide)
    · exact (stage_of_mem_reconcile hf).trans_lt (by decide)
  · exact (SqlText.stage_of_mem_review (hmem hf)).trans_lt (by decide)

namespace Config

variable {c : Config} {p p' : Params}

/-- **Values matter to the checks for injections only**: under the same keys, all other findings are
the same, and so is the status where these checks find the same. -/
theorem validate_of_keys (he : c.enabled) (h : p.entries.map (·.1) = p'.entries.map (·.1))
    (sql : String) (context : Option Json) :
    (c.validate (.prepared sql p) context).findings.filter (·.code ≠ .injectionSuspected) =
        (c.validate (.prepared sql p') context).findings.filter (·.code ≠ .injectionSuspected) ∧
      (Injection.findings p = Injection.findings p' →
        (c.validate (.prepared sql p) context).status =
          (c.validate (.prepared sql p') context).status) := by
  have hmalformed : (Query.prepared sql p).malformedFinding? =
      (Query.prepared sql p').malformedFinding? := by
    rw [← Query.malformedFinding?_erased, Params.erased_congr h, Query.malformedFinding?_erased]
  have hreconciled : (Query.prepared sql p).reconciled c.dialect =
      (Query.prepared sql p').reconciled c.dialect := by
    rw [← Query.reconciled_erased, Params.erased_congr h, Query.reconciled_erased]
  constructor
  · rw [findings_validate he, findings_validate he, Query.filter_findings_ofFindings,
      Query.filter_findings_ofFindings, hmalformed, hreconciled]
    rfl
  · intro hinjections
    have hfindings : (Query.prepared sql p).findings c.dialect =
        (Query.prepared sql p').findings c.dialect := by
      show _ ++ (Query.prepared sql p).reconciled c.dialect ++ _ ++ Injection.findings p = _
      rw [hmalformed, hreconciled, hinjections]
      rfl
    unfold validate
    rw [if_pos he, if_pos he, hfindings]

/-- The value under the second name is another. -/
theorem validate_of_keys_names :
    let p : Params := .named [("b", .string "1' OR 1=1"), ("c", .int 1)]
    let p' : Params := .named [("b", .string "1' OR 1=1"), ("c", .string "x")]
    let report p := Config.standard.validate (.prepared "SELECT * FROM t WHERE b = ?" p) none
    p.entries.map (·.1) = p'.entries.map (·.1) ∧ p ≠ p' ∧
      (report p).findings.filter (·.code ≠ .injectionSuspected) =
        (report p').findings.filter (·.code ≠ .injectionSuspected) ∧
      (report p).status = (report p').status := by
  intro p p' report
  have hkeys : p.entries.map (·.1) = p'.entries.map (·.1) := rfl
  have h := validate_of_keys (c := .standard) rfl hkeys "SELECT * FROM t WHERE b = ?" none
  exact ⟨hkeys, by decide +kernel, h.1, h.2 (by decide +kernel)⟩

end Config

end QueryGuard
