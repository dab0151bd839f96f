import QueryGuard.Proofs.Binding.BoundKeys
import QueryGuard.Proofs.Guard.Suppression

/-!
Which key a finding on a bound string names. The checks go through the parameters as they are
supplied, so the key is the one of the caller. Main statement: it is the key that the value is bound
under exactly when every string that a check applies to is supplied under such a key, and exactly
then the report is the one on the same parameters under the keys that they are bound under.
-/

namespace QueryGuard

/-! ### Names of keys -/

lemma flatMap_eq_flatMap_iff {α β : Type} {f g : α → List β}
    (hlength : ∀ a, (f a).length = (g a).length) {as : List α} :
    as.flatMap f = as.flatMap g ↔ ∀ a ∈ as, f a = g a := by
  induction as with
  | nil => simp
  | cons a as ih =>
    rw [List.flatMap_cons, List.flatMap_cons, List.forall_mem_cons, ← ih]
    exact ⟨fun h => List.append_inj h (hlength a), fun h => congrArg₂ _ h.1 h.2⟩

namespace Injection

/-- The finding has the message on a string under the key. -/
def Names (f : Finding) (key : ParamKey) : Prop :=
  ∃ s check, f.message = (finding key s check).message

lemma findingsAt_eq_map (key key' : ParamKey) (v : Value) : ∃ checks : List (String × Check),
    findingsAt (key, v) = checks.map (fun x => finding key x.1 x.2) ∧
      findingsAt (key', v) = checks.map fun x => finding key' x.1 x.2 := by
  cases v with
  | string s =>
    refine ⟨(Check.all.filter (·.applies s)).map fun check => (s, check), ?_, ?_⟩ <;>
      simp [findingsAt, findingsOf]
  | _ => exact ⟨[], rfl, rfl⟩

variable {e : ParamKey × Value} {f : Finding}

/-- A finding names the key that the string is supplied under and no other. -/
lemma names_iff_of_mem_findingsAt (h : f ∈ findingsAt e) {key : ParamKey} :
    Names f key ↔ key = e.1 := by
  obtain ⟨s, check, -, rfl⟩ := exists_of_mem_findingsAt h
  constructor
  · rintro ⟨s', check', he⟩
    exact (eq_of_message_finding he).1.symm
  · rintro rfl
    exact ⟨s, check, rfl⟩

end Injection

/-! ### Bound keys -/

namespace Params

/-- Every finding on a bound string names the key that the string is bound under. -/
def NamesBoundKeys (p : Params) : Prop :=
  ∀ e ∈ p.entries, ∀ f ∈ Injection.findingsAt e, Injection.Names f (p.boundKey e.1)

variable {p : Params} {b : Bindings}

lemma namesBoundKeys_iff (h : p.resolve = .ok b) :
    p.NamesBoundKeys ↔ ∀ e ∈ p.entries, Injection.findingsAt e ≠ [] → p.Binds e.1 := by
  refine forall₂_congr fun e he => ?_
  constructor
  · intro hnames hne
    obtain ⟨f, hf⟩ := List.exists_mem_of_ne_nil _ hne
    exact (boundKey_eq_self_iff h e.1).1 ((Injection.names_iff_of_mem_findingsAt hf).1 (hnames f hf))
  · intro hbinds f hf
    rw [Injection.names_iff_of_mem_findingsAt hf, boundKey_eq_self_iff h]
    exact hbinds (List.ne_nil_of_mem hf)

lemma findings_underBoundKeys_iff (p : Params) :
    Injection.findings p.underBoundKeys = Injection.findings p ↔ p.NamesBoundKeys := by
  have hlength : ∀ e : ParamKey × Value, (Injection.findingsAt (p.boundKey e.1, e.2)).length =
      (Injection.findingsAt e).length := fun e => by
    obtain ⟨checks, hkey, hbound⟩ := Injection.findingsAt_eq_map e.1 (p.boundKey e.1) e.2
    rw [hkey, hbound, List.length_map, List.length_map]
  rw [Injection.findings_eq, Injection.findings_eq, underBoundKeys, List.flatMap_map,
    flatMap_eq_flatMap_iff hlength]
  refine forall₂_congr fun e he => ?_
  constructor
  · intro heq f hf
    rw [← heq] at hf
    exact (Injection.names_iff_of_mem_findingsAt hf).2 rfl
  · intro hnames
    obtain ⟨checks, hkey, hbound⟩ := Injection.findingsAt_eq_map e.1 (p.boundKey e.1) e.2
    cases hchecks : checks with
    | nil => rw [hbound, hkey, hchecks, List.map_nil, List.map_nil]
    | cons x xs =>
      have hmem : Injection.finding e.1 x.1 x.2 ∈ Injection.findingsAt e := by
        rw [hkey, hchecks]
        exact List.mem_cons_self
      rw [(Injection.names_iff_of_mem_findingsAt hmem).1 (hnames _ hmem)]

/-- What is known of a query does not depend on how its keys are written. -/
lemma analysis_underBoundKeys (h : p.resolve = .ok b) (sql : String) (d : Dialect) :
    (Query.prepared sql p.underBoundKeys).analysis d = (Query.prepared sql p).analysis d := by
  unfold Query.analysis
  rw [Query.supplied_of_ok h, Query.supplied_of_ok (resolve_underBoundKeys h)]
  rfl

end Params

namespace Config

variable {c : Config} {p : Params} {b : Bindings}

/-- **Which keys the findings on bound strings name.** Every value is bound under its bound key. The
findings name these keys exactly when every string that a check applies to is supplied under the
key that it is bound under, and exactly then the report is the same as under the bound keys. -/
theorem validate_underBoundKeys_iff (he : c.enabled) (h : p.resolve = .ok b) (sql : String)
    (context : Option Json) :
    (∀ e ∈ p.entries, b.get? (p.boundKey e.1) = some e.2) ∧
      (p.NamesBoundKeys ↔ ∀ e ∈ p.entries, Injection.findingsAt e ≠ [] → p.Binds e.1) ∧
      (c.validate (.prepared sql p.underBoundKeys) context = c.validate (.prepared sql p) context ↔
        p.NamesBoundKeys) := by
  refine ⟨fun e => Params.get?_boundKey h, Params.namesBoundKeys_iff h, ?_⟩
  have hresolve := Params.resolve_underBoundKeys h
  have hanalysis := Params.analysis_underBoundKeys h sql c.dialect
  have hmalformed : (Query.prepared sql p.underBoundKeys).malformedFinding? =
      (Query.prepared sql p).malformedFinding? := by
    rw [Query.malformedFinding?_prepared.2 ⟨b, h⟩, Query.malformedFinding?_prepared.2 ⟨b, hresolve⟩]
  rw [← Params.findings_underBoundKeys_iff]
  constructor
  · intro hreport
    have hfindings := congrArg Report.findings hreport
    rw [findings_validate he, findings_validate he, Query.findings_ofFindings,
      Query.findings_ofFindings, hmalformed, Query.reconciled, Query.reconciled, hanalysis] at hfindings
    have hinjections : (Injection.findings p.underBoundKeys).eraseDupsBy Report.sameFinding =
        (Injection.findings p).eraseDupsBy Report.sameFinding :=
      List.append_cancel_left hfindings
    rwa [eraseDupsBy_eq_self (Injection.pairwise_findings hresolve),
      eraseDupsBy_eq_self (Injection.pairwise_findings h)] at hinjections
  · intro hinjections
    have hfindings : (Query.prepared sql p.underBoundKeys).findings c.dialect =
        (Query.prepared sql p).findings c.dialect := by
      dsimp only [Query.findings]
      rw [hmalformed, hanalysis]
      exact congrArg _ hinjections
    unfold validate
    rw [hfindings, hanalysis]

/-- A colon in front of a name whose value no check applies to. -/
theorem validate_underBoundKeys_int :
    let p : Params := .named [("b", .string "1' OR 1=1"), (":c", .int 1)]
    p.NamesBoundKeys ∧
      Config.standard.validate (.prepared "SELECT a FROM t WHERE b = :b OR c = :c"
          (.named [("b", .string "1' OR 1=1"), ("c", .int 1)])) none =
        Config.standard.validate (.prepared "SELECT a FROM t WHERE b = :b OR c = :c" p) none := by
  intro p
  have hresolve : p.resolve = .ok (.named [("b", .string "1' OR 1=1"), ("c", .int 1)]) := by
    decide +kernel
  obtain ⟨-, hnames, hreport⟩ := Config.standard.validate_underBoundKeys_iff rfl hresolve
    "SELECT a FROM t WHERE b = :b OR c = :c" none
  have hbound : p.NamesBoundKeys := by
    refine hnames.2 fun e he hne => ?_
    rcases List.mem_cons.1 he with rfl | he
    · exact (by decide +kernel : ("b" : String).toList.head? ≠ some ':')
    · rw [List.mem_singleton.1 he] at hne
      exact absurd rfl hne
  have hkeys : p.underBoundKeys = .named [("b", .string "1' OR 1=1"), ("c", .int 1)] := by
    decide +kernel
  exact ⟨hbound, hkeys ▸ hreport.2 hbound⟩

/-- A colon in front of a name whose value a check applies to: the name is bound without it and
shown with it. -/
theorem validate_underBoundKeys_ne_colon :
    let p : Params := .named [(":b", .string "1' OR 1=1")]
    let report p := Config.standard.validate (.prepared "SELECT a FROM t WHERE b = :b" p) none
    p.resolve = .ok (.named [("b", .string "1' OR 1=1")]) ∧
      (report p).findings.map (·.message) =
        ["Parameter ::b looks like SQL injection (tautology): \"1' OR 1=1\""] ∧
      (report (.named [("b", .string "1' OR 1=1")])).findings.map (·.message) =
        ["Parameter :b looks like SQL injection (tautology): \"1' OR 1=1\""] ∧
      ¬ p.NamesBoundKeys := by
  intro p report
  refine ⟨by decide +kernel, by decide +kernel, by decide +kernel, fun h => ?_⟩
  have hmem : Injection.finding (.name ":b") "1' OR 1=1" .tautology ∈
      Injection.findingsAt (.name ":b", .string "1' OR 1=1") := by decide +kernel
  have hnames := h _ List.mem_cons_self _ hmem
  exact absurd ((Injection.names_iff_of_mem_findingsAt hmem).1 hnames) (by decide +kernel)

end Config

end QueryGuard
