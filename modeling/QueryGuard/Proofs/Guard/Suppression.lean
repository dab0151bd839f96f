import Mathlib.Data.List.Nodup
import Mathlib.Tactic.Lemma
import QueryGuard.Proofs.Binding.Resolution
import QueryGuard.Proofs.Guard.Message
import QueryGuard.Proofs.Guard.Origin

/-!
What a report leaves out. Main statement: of the findings on a query whose parameters resolve, the
report leaves out exactly those on a literal that is named before. Two findings of one code have
different messages otherwise, since a message tells the row, the names or the key that it is about.
-/

namespace QueryGuard

/-! ### Elements at their first occurrence -/

section

variable {α : Type} {r r' : α → α → Bool}

lemma pairwise_toList {R : α → α → Prop} (a? : Option α) : a?.toList.Pairwise R := by
  cases a? <;> simp

lemma eraseDupsBy_eq_self {as : List α} (h : as.Pairwise fun a b => r b a = false) :
    as.eraseDupsBy r = as := by
  induction as with
  | nil => rfl
  | cons a as ih =>
    obtain ⟨ha, has⟩ := List.pairwise_cons.1 h
    rw [List.eraseDupsBy_cons, List.filter_eq_self.2 fun b hb => decide_eq_true (ha b hb), ih has]

lemma eraseDupsBy_append {as bs : List α} (h : ∀ a ∈ as, ∀ b ∈ bs, r b a = false) :
    (as ++ bs).eraseDupsBy r = as.eraseDupsBy r ++ bs.eraseDupsBy r :=
  match as with
  | [] => rfl
  | a :: as => by
    have hbs : bs.filter (fun b => decide (r b a = false)) = bs :=
      List.filter_eq_self.2 fun b hb => decide_eq_true (h a List.mem_cons_self b hb)
    rw [List.cons_append, List.eraseDupsBy_cons, List.eraseDupsBy_cons, List.filter_append, hbs,
      List.cons_append, eraseDupsBy_append fun x hx =>
        h x (List.mem_cons_of_mem a (List.mem_of_mem_filter hx))]
termination_by as.length
decreasing_by exact Nat.lt_succ_of_le (List.length_filter_le _ _)

lemma eraseDupsBy_congr {as : List α} (h : as.Pairwise fun a b => r b a = r' b a) :
    as.eraseDupsBy r = as.eraseDupsBy r' :=
  match as with
  | [] => rfl
  | a :: as => by
    obtain ⟨ha, has⟩ := List.pairwise_cons.1 h
    have hfilter : as.filter (fun b => decide (r b a = false)) =
        as.filter (fun b => decide (r' b a = false)) :=
      List.filter_congr fun b hb => by rw [ha b hb]
    rw [List.eraseDupsBy_cons, List.eraseDupsBy_cons, ← hfilter, eraseDupsBy_congr (has.filter _)]
termination_by as.length
decreasing_by exact Nat.lt_succ_of_le (List.length_filter_le _ _)

end

namespace Report

lemma findings_foldl_push (fs : List Finding) (r : Report) : (fs.foldl push r).findings =
    r.findings ++ (fs.filter fun f => !r.findings.any (sameFinding f)).eraseDupsBy sameFinding := by
  induction fs generalizing r with
  | nil => simp
  | cons f fs ih =>
    rw [List.foldl_cons, ih, push]
    split
    · next h => rw [List.filter_cons_of_neg (by simp [h])]
    · next h =>
      rw [List.filter_cons_of_pos (by simpa using h), List.eraseDupsBy_cons, List.filter_filter,
        List.append_assoc, List.singleton_append]
      congr 3
      exact List.filter_congr fun g _ => by simp [Bool.and_comm]

/-- **A report keeps the first of the findings** that have the same code and message. -/
theorem findings_ofFindings (fs : List Finding) :
    (ofFindings fs).findings = fs.eraseDupsBy sameFinding := by
  rw [ofFindings, findings_foldl_push]
  simp [empty]

variable {f g : Finding}

lemma sameFinding_iff : sameFinding f g ↔ f.code = g.code ∧ f.message = g.message := by
  simp [sameFinding]

lemma sameFinding_eq_false_of_code (h : f.code ≠ g.code) : sameFinding f g = false := by
  simp [sameFinding, h]

end Report

/-! ### Literals named twice -/

namespace SqlText

/-- The literal that a finding on a hardcoded value names. -/
def namedLiteral? (t : SqlText) (f : Finding) : Option (List Char) :=
  if f.code = .hardcodedValue then f.span.map fun s => t.slice s.start s.stop else none

/-- The two findings are on hardcoded values and name the same literal. -/
def nameSameLiteral (t : SqlText) (f g : Finding) : Bool :=
  (t.namedLiteral? f).any fun literal => t.namedLiteral? g == some literal

variable {t : SqlText} {f g : Finding}

lemma nameSameLiteral_of_code (h : f.code ≠ .hardcodedValue ∨ g.code ≠ .hardcodedValue) :
    t.nameSameLiteral f g = false := by
  rcases h with h | h <;> simp [nameSameLiteral, namedLiteral?, h]

lemma sameFinding_literalFinding (t : SqlText) (a b : Span) :
    Report.sameFinding (t.literalFinding a) (t.literalFinding b) =
      t.nameSameLiteral (t.literalFinding a) (t.literalFinding b) := by
  have hnamed : ∀ s, t.namedLiteral? (t.literalFinding s) = some (t.slice s.start s.stop) :=
    fun s => rfl
  rw [Bool.eq_iff_iff, Report.sameFinding_iff, message_literalFinding_inj, nameSameLiteral, hnamed,
    hnamed, Option.any_some, beq_iff_eq, Option.some_inj]
  exact ⟨fun h => h.2.symm, fun h => ⟨rfl, h.symm⟩⟩

lemma code_of_mem_review (h : f ∈ t.review) :
    f.code = .missingWhere ∨ f.code = .selectStar ∨ f.code = .hardcodedValue :=
  (explains_of_mem_review (a := ⟨t, t.placeholders, t.statement, .raw⟩) rfl h).2

/-- The rules on the statement alone repeat themselves on literals only. -/
lemma pairwise_review (t : SqlText) : t.review.Pairwise fun f g =>
    Report.sameFinding g f = t.nameSameLiteral g f := by
  have hcode : ∀ {f g : Finding}, f.code ≠ g.code → f.code ≠ .hardcodedValue →
      Report.sameFinding g f = t.nameSameLiteral g f := by
    intro f g hne hf
    rw [Report.sameFinding_eq_false_of_code hne.symm, nameSameLiteral_of_code (.inr hf)]
  have hwhere : ∀ f ∈ t.statement.whereFinding?.toList, f.code = .missingWhere := by
    intro f hf
    obtain ⟨⟨message, rfl⟩, -⟩ := Statement.eq_of_mem_whereFinding? (Option.mem_toList.1 hf)
    rfl
  have hstar : ∀ f ∈ t.statement.starFinding?.toList, f.code = .selectStar := by
    intro f hf
    obtain ⟨star, -, rfl⟩ := Option.map_eq_some_iff.1 (Option.mem_toList.1 hf)
    rfl
  rw [review, List.pairwise_append, List.pairwise_append]
  -- findings of two rules differ in their codes, so only literals are compared
  refine ⟨⟨?_, ?_, ?_⟩, ?_, ?_⟩
  · exact pairwise_toList _
  · exact pairwise_toList _
  · intro f hf g hg
    exact hcode (by rw [hwhere f hf, hstar g hg]; decide) (by rw [hwhere f hf]; decide)
  · rw [List.pairwise_map]
    exact List.pairwise_of_forall fun a b => t.sameFinding_literalFinding b a
  · intro f hf g hg
    obtain ⟨span, -, rfl⟩ := List.mem_map.1 hg
    have hliteral : (t.literalFinding span).code = .hardcodedValue := rfl
    rcases List.mem_append.1 hf with hf | hf
    · exact hcode (by rw [hwhere f hf, hliteral]; decide) (by rw [hwhere f hf]; decide)
    · exact hcode (by rw [hstar f hf, hliteral]; decide) (by rw [hstar f hf]; decide)

end SqlText

/-! ### What does not repeat itself -/

namespace Reconciliation

lemma pairwise_names (ps : List Placeholder) (b : Bindings) :
    (names ps b).Pairwise fun f g => Report.sameFinding g f = false := by
  have hhead : ∀ a b : String, "Unexpected named parameters: " ++ a ≠
      "Missing named parameters: " ++ b := by
    intro a b h
    have h := congrArg (fun s : String => s.toList.head?) h
    rw [String.toList_append, String.toList_append] at h
    exact absurd (Option.some.inj h) (by decide)
  have hmessage : ∀ a b : String, Report.sameFinding
      (.ofCode .paramNameMismatch ("Unexpected named parameters: " ++ a))
      (.ofCode .paramNameMismatch ("Missing named parameters: " ++ b)) = false := by
    intro a b
    rw [Bool.eq_false_iff, ne_eq, Report.sameFinding_iff]
    exact fun h => hhead a b h.2
  -- the two findings on names begin with different words
  unfold names
  rw [List.pairwise_append]
  refine ⟨?_, ?_, fun f hf g hg => ?_⟩
  · cases missingNames ps b <;> simp
  · cases unexpectedNames ps b <;> simp
  · split at hf
    · cases hf
    · split at hg
      · cases hg
      · rw [List.mem_singleton.1 hf, List.mem_singleton.1 hg, String.append_assoc]
        exact hmessage _ _

/-- The rows of a statement have different numbers. -/
lemma pairwise_rows (s : Statement) :
    (rows s).Pairwise fun f g => Report.sameFinding g f = false := by
  unfold rows
  split
  · next columns hk hc =>
    rw [List.pairwise_filterMap, List.pairwise_iff_getElem]
    intro i j hi hj hij f hf g hg
    rw [List.length_mapIdx] at hi hj
    rw [List.getElem_mapIdx] at hf hg
    split at hf
    · split at hg
      · obtain rfl := Option.some.inj hf
        obtain rfl := Option.some.inj hg
        rw [Bool.eq_false_iff, ne_eq, Report.sameFinding_iff]
        intro h
        have hrows : 1 < s.valueRows.length := Nat.lt_of_le_of_lt (Nat.one_le_of_lt hij) hj
        exact Nat.ne_of_lt hij (eq_of_message_row hrows h.2).symm
      · cases hg
    · cases hf
  · exact List.Pairwise.nil

lemma pairwise_bindings (ps : List Placeholder) (supplied : Supplied) :
    (bindings ps supplied).Pairwise fun f g => Report.sameFinding g f = false := by
  dsimp only [bindings]
  split
  · exact List.Pairwise.nil
  · split
    · exact List.pairwise_singleton _ _
    · exact pairwise_toList _
    · exact pairwise_names ps _
    · exact List.Pairwise.nil
  · split
    · exact pairwise_toList _
    · exact pairwise_toList _
    · exact List.pairwise_singleton _ _
    · exact pairwise_names ps _
    · exact List.Pairwise.nil

/-- Comparing placeholders, values and rows does not come to the same finding twice. -/
lemma pairwise_reconcile (ps : List Placeholder) (supplied : Supplied) (s : Statement) :
    (reconcile ps supplied s).Pairwise fun f g => Report.sameFinding g f = false := by
  unfold reconcile
  rw [List.pairwise_append, List.pairwise_append]
  refine ⟨⟨pairwise_toList _, pairwise_bindings ps supplied, ?_⟩, pairwise_rows s, ?_⟩
  · intro f hf g hg
    obtain ⟨message, rfl⟩ := Placeholder.eq_of_mem_mixedFinding? (Option.mem_toList.1 hf)
    apply Report.sameFinding_eq_false_of_code
    rcases code_of_mem_bindings hg with ⟨h, -⟩ | h | h <;> rw [h] <;> exact nofun
  · intro f hf g hg
    apply Report.sameFinding_eq_false_of_code
    rw [(mem_of_mem_rows hg).1]
    rcases List.mem_append.1 hf with hf | hf
    · obtain ⟨message, rfl⟩ := Placeholder.eq_of_mem_mixedFinding? (Option.mem_toList.1 hf)
      exact nofun
    · rcases code_of_mem_bindings hf with ⟨h, -⟩ | h | h <;> rw [h] <;> exact nofun

end Reconciliation

namespace Injection

/-- The findings on one parameter. -/
def findingsAt (e : ParamKey × Value) : List Finding :=
  match e.2 with
  | .string s => findingsOf e.1 s
  | _ => []

variable {params : Params} {b : Bindings} {e : ParamKey × Value} {f : Finding}

lemma findings_eq (params : Params) : findings params = params.entries.flatMap findingsAt := rfl

lemma exists_of_mem_findingsAt (h : f ∈ findingsAt e) :
    ∃ s check, e.2 = .string s ∧ f = finding e.1 s check := by
  unfold findingsAt at h
  split at h
  · next s hs =>
    obtain ⟨check, -, rfl⟩ := List.mem_map.1 h
    exact ⟨s, check, hs, rfl⟩
  · cases h

lemma sameFinding_finding_eq_false {key key' : ParamKey} {s s' : String} {check check' : Check}
    (h : ¬ (key' = key ∧ check' = check)) :
    Report.sameFinding (finding key' s' check') (finding key s check) = false := by
  rw [Bool.eq_false_iff, ne_eq, Report.sameFinding_iff]
  exact fun hsame => h (eq_of_message_finding hsame.2)

lemma pairwise_findingsAt (e : ParamKey × Value) :
    (findingsAt e).Pairwise fun f g => Report.sameFinding g f = false := by
  unfold findingsAt
  split
  · next s _ =>
    have hchecks : (Check.all.filter (·.applies s)).Nodup :=
      (by decide : Check.all.Nodup).filter _
    refine List.pairwise_map.2 (hchecks.imp fun hne => ?_)
    exact sameFinding_finding_eq_false fun h => hne h.2.symm
  · exact List.Pairwise.nil

/-- Under distinct keys, no finding on a bound string repeats another. -/
lemma pairwise_findings (h : params.resolve = .ok b) :
    (findings params).Pairwise fun f g => Report.sameFinding g f = false := by
  rw [findings_eq, List.pairwise_flatMap]
  refine ⟨fun e _ => pairwise_findingsAt e, ?_⟩
  refine (Params.pairwise_key_ne h).imp fun hne f hf g hg => ?_
  obtain ⟨s, check, -, rfl⟩ := exists_of_mem_findingsAt hf
  obtain ⟨s', check', -, rfl⟩ := exists_of_mem_findingsAt hg
  exact sameFinding_finding_eq_false fun h => hne h.1.symm

end Injection

/-! ### Stages -/

/-- The stage at which a code is found: on the shape of the parameters, in the comparison of
placeholders and bindings, in the statement, or in a bound string. -/
def FindingCode.stage : FindingCode → Nat
  | malformedBindings => 0
  | mixedPlaceholders | notPrepared | paramCountMismatch | paramNameMismatch
  | fieldCountMismatch => 1
  | missingWhere | selectStar | hardcodedValue => 2
  | injectionSuspected => 3

/-- Two stages leave out nothing of each other. -/
lemma Report.eraseDupsBy_append_of_stage {fs gs : List Finding} {n : Nat}
    (hf : ∀ f ∈ fs, f.code.stage < n) (hg : ∀ g ∈ gs, g.code.stage = n) :
    (fs ++ gs).eraseDupsBy sameFinding =
      fs.eraseDupsBy sameFinding ++ gs.eraseDupsBy sameFinding :=
  eraseDupsBy_append fun f hfs g hgs => sameFinding_eq_false_of_code fun h =>
    Nat.ne_of_lt (hf f hfs) (h ▸ hg g hgs)

lemma stage_of_mem_reconcile {ps : List Placeholder} {supplied : Supplied} {s : Statement}
    {f : Finding} (h : f ∈ reconcile ps supplied s) : f.code.stage = 1 := by
  rcases List.mem_append.1 h with h | h
  · rcases List.mem_append.1 h with h | h
    · obtain ⟨message, rfl⟩ := Placeholder.eq_of_mem_mixedFinding? (Option.mem_toList.1 h)
      rfl
    · rcases Reconciliation.code_of_mem_bindings h with ⟨hc, -⟩ | hc | hc <;> rw [hc] <;> rfl
  · rw [(Reconciliation.mem_of_mem_rows h).1]
    rfl

lemma SqlText.stage_of_mem_review {t : SqlText} {f : Finding} (h : f ∈ t.review) :
    f.code.stage = 2 := by
  rcases code_of_mem_review h with hc | hc | hc <;> rw [hc] <;> rfl

namespace Query

variable {q : Query} {d : Dialect} {f : Finding}

/-- The findings on the strings that a query binds. -/
def injections (q : Query) : List Finding := (q.params?.map Injection.findings).getD []

lemma code_of_mem_injections (h : f ∈ q.injections) : f.code = .injectionSuspected := by
  cases q with
  | raw sql => cases h
  | prepared sql params =>
    have h : f ∈ Injection.findings params := h
    exact code_of_mem_injection h

lemma stage_of_mem_injections (h : f ∈ q.injections) : f.code.stage = 3 := by
  rw [code_of_mem_injections h]
  rfl

lemma stage_of_mem_malformedFinding? (h : f ∈ q.malformedFinding?.toList) : f.code.stage = 0 := by
  rw [code_of_mem_malformedFinding? (Option.mem_toList.1 h)]
  rfl

/-- The findings of comparing the placeholders of a query with what is bound to them. -/
def reconciled (q : Query) (d : Dialect) : List Finding :=
  reconcile (q.analysis d).placeholders (q.analysis d).supplied (q.analysis d).statement

/-- **What the report on a query keeps**: all that the parameters and the comparison give, and of
the statement and the bound strings each finding once. -/
theorem findings_ofFindings (q : Query) (d : Dialect) :
    (Report.ofFindings (q.findings d)).findings =
      q.malformedFinding?.toList ++ q.reconciled d ++
        (q.analysis d).text.review.eraseDupsBy Report.sameFinding ++
        q.injections.eraseDupsBy Report.sameFinding := by
  have hmalformed : q.malformedFinding?.toList.eraseDupsBy Report.sameFinding =
      q.malformedFinding?.toList := eraseDupsBy_eq_self (pairwise_toList _)
  have hreconciled : (q.reconciled d).eraseDupsBy Report.sameFinding = q.reconciled d :=
    eraseDupsBy_eq_self (Reconciliation.pairwise_reconcile _ _ _)
  rw [Report.findings_ofFindings]
  show (_ ++ q.reconciled d ++ _ ++ q.injections).eraseDupsBy _ = _
  rw [Report.eraseDupsBy_append_of_stage (n := 3), Report.eraseDupsBy_append_of_stage (n := 2),
    Report.eraseDupsBy_append_of_stage (n := 1), hmalformed, hreconciled]
  · exact fun f hf => (stage_of_mem_malformedFinding? hf).trans_lt (by decide)
  · exact fun f hf => stage_of_mem_reconcile hf
  · intro f hf
    rcases List.mem_append.1 hf with hf | hf
    · exact (stage_of_mem_malformedFinding? hf).trans_lt (by decide)
    · exact (stage_of_mem_reconcile hf).trans_lt (by decide)
  · exact fun f hf => SqlText.stage_of_mem_review hf
  · intro f hf
    rcases List.mem_append.1 hf with hf | hf
    · rcases List.mem_append.1 hf with hf | hf
      · exact (stage_of_mem_malformedFinding? hf).trans_lt (by decide)
      · exact (stage_of_mem_reconcile hf).trans_lt (by decide)
    · exact (SqlText.stage_of_mem_review hf).trans_lt (by decide)
  · exact fun f hf => stage_of_mem_injections hf

end Query

/-! ### What is left out -/

namespace SqlText

variable {t : SqlText} {f g : Finding}

lemma nameSameLiteral_of_stage (h : f.code.stage ≠ 2 ∨ g.code.stage ≠ 2) :
    t.nameSameLiteral f g = false := by
  refine nameSameLiteral_of_code (h.imp (fun hf hc => hf ?_) fun hg hc => hg ?_)
  · rw [hc]
    rfl
  · rw [hc]
    rfl

/-- Only the rules on the statement name literals. -/
lemma eraseDupsBy_nameSameLiteral {fs : List Finding} (h : ∀ f ∈ fs, f.code.stage ≠ 2) :
    fs.eraseDupsBy t.nameSameLiteral = fs :=
  eraseDupsBy_eq_self (List.pairwise_of_forall_mem_list fun _ _ g hg =>
    nameSameLiteral_of_stage (.inl (h g hg)))

end SqlText

namespace Query

variable {q : Query}

lemma malformedFinding?_eq_none
    (hq : ∀ params, q.params? = some params → ∃ b, params.resolve = .ok b) :
    q.malformedFinding? = none := by
  cases q with
  | raw sql => rfl
  | prepared sql params => exact malformedFinding?_prepared.2 (hq params rfl)

lemma pairwise_injections (hq : ∀ params, q.params? = some params → ∃ b, params.resolve = .ok b) :
    q.injections.Pairwise fun f g => Report.sameFinding g f = false := by
  cases q with
  | raw sql => exact List.Pairwise.nil
  | prepared sql params =>
    obtain ⟨b, hb⟩ := hq params rfl
    exact Injection.pairwise_findings hb

end Query

namespace Config

variable {c : Config} {q : Query}

lemma findings_validate (he : c.enabled) (q : Query) (context : Option Json) :
    (c.validate q context).findings = (Report.ofFindings (q.findings c.dialect)).findings := by
  rw [validate, if_pos he]

/-- **A report leaves out repeated literals and nothing else**: of the findings on a query whose
parameters resolve, those on a literal that an earlier one names. -/
theorem findings_validate_eq (he : c.enabled)
    (hq : ∀ params, q.params? = some params → ∃ b, params.resolve = .ok b)
    (context : Option Json) :
    (c.validate q context).findings =
      (reconcile (q.analysis c.dialect).placeholders (q.analysis c.dialect).supplied
          (q.analysis c.dialect).statement ++
        (q.analysis c.dialect).text.review ++
        (q.params?.map Injection.findings).getD []).eraseDupsBy
          (q.analysis c.dialect).text.nameSameLiteral := by
  have hreconciled : ∀ f ∈ q.reconciled c.dialect, f.code.stage ≠ 2 := fun f hf => by
    rw [stage_of_mem_reconcile hf]
    decide
  have hinjections : ∀ f ∈ q.injections, f.code.stage ≠ 2 := fun f hf => by
    rw [Query.stage_of_mem_injections hf]
    decide
  rw [findings_validate he, Query.findings_ofFindings, Query.malformedFinding?_eq_none hq,
    Option.toList_none, List.nil_append, eraseDupsBy_eq_self (Query.pairwise_injections hq),
    eraseDupsBy_congr (SqlText.pairwise_review _)]
  show _ = (q.reconciled c.dialect ++ (q.analysis c.dialect).text.review ++
    q.injections).eraseDupsBy _
  rw [eraseDupsBy_append, eraseDupsBy_append, SqlText.eraseDupsBy_nameSameLiteral hreconciled,
    SqlText.eraseDupsBy_nameSameLiteral hinjections]
  · exact fun f hf g _ => SqlText.nameSameLiteral_of_stage (.inr (hreconciled f hf))
  · exact fun f _ g hg => SqlText.nameSameLiteral_of_stage (.inl (hinjections g hg))

/-- A literal that is written twice, and a string that a check applies to. -/
theorem findings_validate_eq_in :
    let q := Query.prepared "SELECT b FROM t WHERE a IN (?, 'x', 'x')"
      (.positional [.string "1' OR 1=1"])
    (q.findings .standard).map (·.code) =
      [.hardcodedValue, .hardcodedValue, .injectionSuspected] ∧
    (Config.standard.validate q none).findings.map (·.code) =
      [.hardcodedValue, .injectionSuspected] := by
  intro q
  refine ⟨by decide +kernel, ?_⟩
  rw [Config.standard.findings_validate_eq rfl (fun params hparams => ?_)]
  · decide +kernel
  · obtain rfl := Option.some.inj hparams
    exact ⟨_, Params.resolve_positional _⟩

end Config

end QueryGuard
