import QueryGuard.Proofs.Guard.Severity
import QueryGuard.Proofs.Sql.Torn

/-!
Which queries a guard lets pass: what is bound has to fit the placeholders, and the rows of an
`INSERT` have to fit its column list. Main statement: under the lenient policy a validation fails
exactly on the queries that are not acceptable, in either dialect, among those that it can read to
their end.
-/

namespace QueryGuard

/-! ### What an acceptable query is -/

/-- There are placeholders of both styles. -/
def Placeholder.IsMixed (ps : List Placeholder) : Prop :=
  (∃ p ∈ ps, p.isNamed) ∧ ∃ p ∈ ps, ¬ p.isNamed

/-- The bindings are what the placeholders ask for. -/
inductive Bindings.Fits (ps : List Placeholder) : Bindings → Prop
  | none (b : Bindings) (hp : ps = []) (hb : b.size = 0) : Fits ps b
  | positional (values : List Value) (hp : ∀ p ∈ ps, ¬ p.isNamed)
      (hb : values.length = ps.length) : Fits ps (.positional values)
  /-- A name is bound exactly when some placeholder has it, no matter how often. -/
  | named (pairs : List (String × Value)) (hp : ∀ p ∈ ps, p.isNamed)
      (hb : ∀ n, n ∈ pairs.map (·.1) ↔ ∃ p ∈ ps, p.style = .named n) : Fits ps (.named pairs)

lemma Bindings.fits_nil_iff {b : Bindings} : b.Fits [] ↔ b.size = 0 := by
  constructor
  · intro h
    cases h with
    | none _ _ hb => exact hb
    | positional values _ hb => exact hb
    | named pairs _ hb =>
      refine List.length_eq_zero_iff.2 (List.eq_nil_iff_forall_not_mem.2 fun e he => ?_)
      obtain ⟨p, hp, -⟩ := (hb e.1).1 (List.mem_map_of_mem he)
      exact List.not_mem_nil hp
  · exact .none b rfl

/-- Every row of an `INSERT` with a column list has an entry for each column. -/
def Statement.RowsFit (s : Statement) : Prop :=
  s.kind = .insert → ∀ columns, s.columns = some columns →
    ∀ r ∈ s.valueRows, r.entries.length = columns.length

/-- The query has parameters that follow a protocol and fit its text. -/
def Query.Acceptable (d : Dialect) : Query → Prop
  | .raw _ => False
  | .prepared sql params =>
    ∃ b, params.resolve = .ok b ∧
      ¬ Placeholder.IsMixed (SqlText.ofString d sql).placeholders ∧
      Bindings.Fits (SqlText.ofString d sql).placeholders b ∧
      (SqlText.ofString d sql).statement.RowsFit

/-! ### The protocol of a list of placeholders -/

namespace Placeholder

lemma isNamed_iff {p : Placeholder} : p.isNamed ↔ ∃ n, p.style = .named n := by
  unfold isNamed name?
  cases p.style <;> simp

lemma not_isNamed_iff {p : Placeholder} : ¬ p.isNamed ↔ p.style = .positional := by
  unfold isNamed name?
  cases p.style <;> simp

lemma not_isMixed_of_forall {ps : List Placeholder} (h : ∀ p ∈ ps, p.style = .positional) :
    ¬ IsMixed ps := by
  rintro ⟨⟨p, hp, hn⟩, -⟩
  exact not_isNamed_iff.2 (h p hp) hn

lemma name?_eq_some_iff {p : Placeholder} {n : String} :
    p.name? = some n ↔ p.style = .named n := by
  unfold name?
  cases p.style <;> simp

lemma mem_filterMap_name?_iff {ps : List Placeholder} {n : String} :
    n ∈ ps.filterMap name? ↔ ∃ p ∈ ps, p.style = .named n := by
  simp only [List.mem_filterMap, name?_eq_some_iff]

/-- What the protocol of placeholders says of them. -/
lemma protocol_cases (ps : List Placeholder) :
    (protocol ps = .none ∧ ps = []) ∨
    (protocol ps = .positional ∧ ps ≠ [] ∧ ∀ p ∈ ps, ¬ p.isNamed) ∨
    (protocol ps = .named ∧ ps ≠ [] ∧ ∀ p ∈ ps, p.isNamed) ∨
    (protocol ps = .mixed ∧ IsMixed ps) := by
  have hpos : ps.countP (!·.isNamed) = 0 ↔ ∀ p ∈ ps, p.isNamed := by simp [List.countP_eq_zero]
  have hnam : ps.countP (·.isNamed) = 0 ↔ ∀ p ∈ ps, ¬ p.isNamed := by simp [List.countP_eq_zero]
  unfold protocol counts
  split
  -- no placeholder of either style, only one style, and then both
  · next h =>
    rw [Prod.mk.injEq, hpos, hnam] at h
    refine .inl ⟨rfl, ?_⟩
    rw [List.eq_nil_iff_forall_not_mem]
    exact fun p hp => h.2 p hp (h.1 p hp)
  · next h0 h =>
    obtain ⟨-, hz⟩ := Prod.mk.inj h
    refine .inr (.inl ⟨rfl, ?_, hnam.1 hz⟩)
    rintro rfl
    exact h0 (Prod.mk.inj h).1.symm
  · next h0 h =>
    obtain ⟨hz, -⟩ := Prod.mk.inj h
    refine .inr (.inr (.inl ⟨rfl, ?_, hpos.1 hz⟩))
    rintro rfl
    exact h0 (Prod.mk.inj h).2.symm
  · next h1 h2 =>
    have hn : 0 < ps.countP (·.isNamed) := Nat.pos_of_ne_zero fun hz => h1 _ (by rw [hz])
    have hp : 0 < ps.countP (!·.isNamed) := Nat.pos_of_ne_zero fun hz => h2 _ (by rw [hz])
    refine .inr (.inr (.inr ⟨rfl, List.countP_pos_iff.1 hn, ?_⟩))
    obtain ⟨p, hp, h⟩ := List.countP_pos_iff.1 hp
    exact ⟨p, hp, by simpa using h⟩

lemma protocol_eq_mixed_iff {ps : List Placeholder} : protocol ps = .mixed ↔ IsMixed ps := by
  constructor
  · intro h
    rcases protocol_cases ps with ⟨hp, -⟩ | ⟨hp, -⟩ | ⟨hp, -⟩ | ⟨-, hm⟩
    · simp [hp] at h
    · simp [hp] at h
    · simp [hp] at h
    · exact hm
  · rintro ⟨⟨p, hp, hn⟩, q, hq, hqn⟩
    rcases protocol_cases ps with ⟨-, rfl⟩ | ⟨-, -, ha⟩ | ⟨-, -, ha⟩ | ⟨h, -⟩
    · exact absurd hp List.not_mem_nil
    · exact absurd hn (ha p hp)
    · exact absurd (ha q hq) hqn
    · exact h

lemma mixedFinding?_eq_none_iff {ps : List Placeholder} :
    mixedFinding? ps = none ↔ ¬ IsMixed ps := by
  rw [← protocol_eq_mixed_iff]
  unfold mixedFinding?
  split
  · next h => simp [h]
  · next h => simp [h]

end Placeholder

/-! ### The rules of the comparison -/

namespace Reconciliation

lemma count?_eq_none_iff {expected given : Nat} :
    count? expected given = none ↔ given = expected := by
  dsimp only [count?]
  split
  · simp only [reduceCtorEq, false_iff]
    omega
  · split
    · simp only [reduceCtorEq, false_iff]
      omega
    · simp only [true_iff]
      omega

lemma mem_distinct_iff {x : String} {xs : List String} : x ∈ distinct xs ↔ x ∈ xs := by
  have h : ∀ seen : List String,
      x ∈ xs.foldl (fun seen n => if seen.contains n then seen else seen ++ [n]) seen ↔
        x ∈ seen ∨ x ∈ xs := by
    induction xs with
    | nil => simp
    | cons y ys ih =>
      intro seen
      rw [List.foldl_cons, ih, List.mem_cons]
      split
      · next hc =>
        have hy : y ∈ seen := by simpa using hc
        constructor
        · rintro (h | h)
          · exact .inl h
          · exact .inr (.inr h)
        · rintro (h | rfl | h)
          · exact .inl h
          · exact .inl hy
          · exact .inr h
      · rw [List.mem_append, List.mem_singleton, or_assoc]
  rw [distinct, h, List.mem_nil_iff, false_or]

lemma missingNames_eq_nil_iff {ps : List Placeholder} {b : Bindings} :
    missingNames ps b = [] ↔ ∀ n, (∃ p ∈ ps, p.style = .named n) → n ∈ b.names := by
  simp only [missingNames, List.filter_eq_nil_iff, mem_distinct_iff,
    Placeholder.mem_filterMap_name?_iff]
  simp

lemma unexpectedNames_eq_nil_iff {ps : List Placeholder} {b : Bindings} :
    unexpectedNames ps b = [] ↔ ∀ n ∈ b.names, ∃ p ∈ ps, p.style = .named n := by
  simp only [unexpectedNames, List.filter_eq_nil_iff, ← Placeholder.mem_filterMap_name?_iff]
  simp

/-- Nothing is found on the names when the bound names are those of the placeholders. -/
lemma names_eq_nil_iff {ps : List Placeholder} {b : Bindings} :
    names ps b = [] ↔ ∀ n, n ∈ b.names ↔ ∃ p ∈ ps, p.style = .named n := by
  have hm : names ps b = [] ↔ missingNames ps b = [] ∧ unexpectedNames ps b = [] := by
    dsimp only [names]
    rw [List.append_eq_nil_iff]
    refine and_congr ?_ ?_
    · split
      · next h => exact iff_of_true rfl h
      · next h => exact iff_of_false (List.cons_ne_nil _ _) h
    · split
      · next h => exact iff_of_true rfl h
      · next h => exact iff_of_false (List.cons_ne_nil _ _) h
  rw [hm, missingNames_eq_nil_iff, unexpectedNames_eq_nil_iff, ← forall_and]
  exact forall_congr' fun n => ⟨fun h => ⟨h.2, h.1⟩, fun h => ⟨h.2, h.1⟩⟩

lemma rows_eq_nil_iff {s : Statement} : rows s = [] ↔ s.RowsFit := by
  unfold rows Statement.RowsFit
  split
  · next columns hk hc =>
    rw [List.filterMap_eq_nil_iff]
    simp only [List.mem_mapIdx, id, hk, hc, forall_const, Option.some.injEq, forall_eq']
    constructor
    · intro h r hr
      obtain ⟨i, hi, rfl⟩ := List.mem_iff_getElem.1 hr
      have hn := h _ ⟨i, hi, rfl⟩
      by_cases he : s.valueRows[i].entries.length = columns.length
      · exact he
      · simp [he] at hn
    · rintro h a ⟨i, hi, rfl⟩
      simp [h _ (List.getElem_mem hi)]
  · next hc =>
    refine iff_of_true rfl fun hk columns h => ?_
    exact absurd h (hc columns hk)

lemma toList_count?_eq_nil_iff {expected given : Nat} :
    (count? expected given).toList = [] ↔ given = expected := by
  rw [Option.toList_eq_nil_iff, count?_eq_none_iff]

/-- Nothing is found on bindings that are what the placeholders ask for, and only on these. -/
lemma bindings_eq_nil_iff {ps : List Placeholder} {b : Bindings} (h : ¬ Placeholder.IsMixed ps) :
    bindings ps (.bound b) = [] ↔ b.Fits ps := by
  rcases Placeholder.protocol_cases ps with ⟨hp, rfl⟩ | ⟨hp, hne, ha⟩ | ⟨hp, hne, ha⟩ | ⟨-, hm⟩
  -- no placeholders, only question marks, only names
  · simp only [bindings, hp, toList_count?_eq_nil_iff, Bindings.fits_nil_iff]
  · obtain ⟨p, hm⟩ := List.exists_mem_of_ne_nil _ hne
    cases b with
    | positional values =>
      simp only [bindings, hp, toList_count?_eq_nil_iff]
      constructor
      · exact .positional values ha
      · rintro (⟨_, rfl, -⟩ | ⟨_, -, hb⟩)
        · exact absurd rfl hne
        · exact hb
    | named pairs =>
      simp only [bindings, hp]
      refine iff_of_false (List.cons_ne_nil _ _) ?_
      rintro (⟨_, rfl, -⟩ | _ | ⟨_, hn, -⟩)
      · exact hne rfl
      · exact ha p hm (hn p hm)
  · obtain ⟨p, hm⟩ := List.exists_mem_of_ne_nil _ hne
    simp only [bindings, hp, names_eq_nil_iff]
    cases b with
    | positional values =>
      obtain ⟨n, hn⟩ := Placeholder.isNamed_iff.1 (ha p hm)
      refine iff_of_false (fun h => List.not_mem_nil ((h n).2 ⟨p, hm, hn⟩)) ?_
      rintro (⟨_, rfl, -⟩ | ⟨_, hn, -⟩)
      · exact hne rfl
      · exact hn p hm (ha p hm)
    | named pairs =>
      constructor
      · exact .named pairs ha
      · rintro (⟨_, rfl, -⟩ | _ | ⟨_, -, hb⟩)
        · exact absurd rfl hne
        · exact hb
  · exact absurd hm h

/-- A text alone is never enough. -/
lemma bindings_raw_ne_nil {ps : List Placeholder} (h : ¬ Placeholder.IsMixed ps) :
    bindings ps .raw ≠ [] := by
  rcases Placeholder.protocol_cases ps with ⟨hp, -⟩ | ⟨hp, hne, -⟩ | ⟨hp, hne, ha⟩ | ⟨-, hm⟩
  · simp only [bindings, hp]
    exact List.cons_ne_nil _ _
  · simp only [bindings, hp, ne_eq, toList_count?_eq_nil_iff]
    exact fun hz => hne (List.length_eq_zero_iff.1 hz.symm)
  · simp only [bindings, hp, ne_eq, names_eq_nil_iff]
    intro hn
    obtain ⟨p, hp⟩ := List.exists_mem_of_ne_nil _ hne
    obtain ⟨n, hpn⟩ := Placeholder.isNamed_iff.1 (ha p hp)
    exact absurd ((hn n).2 ⟨p, hp, hpn⟩) List.not_mem_nil
  · exact absurd hm h

end Reconciliation

lemma reconcile_eq_nil_iff {ps : List Placeholder} {supplied : Supplied} {s : Statement} :
    reconcile ps supplied s = [] ↔
      ¬ Placeholder.IsMixed ps ∧ Reconciliation.bindings ps supplied = [] ∧ s.RowsFit := by
  rw [reconcile, List.append_eq_nil_iff, List.append_eq_nil_iff, Option.toList_eq_nil_iff,
    Placeholder.mixedFinding?_eq_none_iff, Reconciliation.rows_eq_nil_iff, and_assoc]

/-! ### The verdict -/

lemma Query.malformedFinding?_prepared {sql : String} {params : Params} :
    (prepared sql params).malformedFinding? = none ↔ ∃ b, params.resolve = .ok b := by
  unfold malformedFinding?
  dsimp only [params?]
  split
  · next b hb => exact iff_of_true rfl ⟨b, hb⟩
  · next m hm => exact iff_of_false (Option.some_ne_none _) fun ⟨b, hb⟩ => by simp [hm] at hb

lemma Query.supplied_of_ok {sql : String} {params : Params} {b : Bindings}
    (h : params.resolve = .ok b) : (prepared sql params).supplied = .bound b := by
  simp only [supplied, params?, h]

lemma Query.supplied_of_error {sql : String} {params : Params} {m : Malformation}
    (h : params.resolve = .error m) : (prepared sql params).supplied = .malformed := by
  simp only [supplied, params?, h]

lemma Query.malformedFinding?_of_error {sql : String} {params : Params} {m : Malformation}
    (h : params.resolve = .error m) :
    (prepared sql params).malformedFinding? = some m.finding := by
  simp only [malformedFinding?, params?, h]

/-- A query that can be read passes exactly when it is acceptable, under the lenient policy. -/
theorem Query.status_validate_ne_error_iff (verbose : Bool) (d : Dialect) (q : Query)
    (context : Option Json) :
    ((Config.mk true verbose d .lenient).validate q context).status ≠ .error ↔
      q.Acceptable d := by
  rw [ne_eq, status_validate_eq_error_iff rfl rfl, not_or, Classical.not_not,
    Classical.not_not, reconcile_eq_nil_iff]
  cases q with
  | raw sql =>
    refine iff_of_false ?_ id
    rintro ⟨-, hm, hb, -⟩
    exact Reconciliation.bindings_raw_ne_nil hm hb
  | prepared sql params =>
    rw [malformedFinding?_prepared]
    constructor
    · rintro ⟨⟨b, hr⟩, hm, hb, hrows⟩
      have hs : (prepared sql params).supplied = .bound b := by simp [supplied, params?, hr]
      rw [analysis, hs] at hb
      exact ⟨b, hr, hm, (Reconciliation.bindings_eq_nil_iff hm).1 hb, hrows⟩
    · rintro ⟨b, hr, hm, hf, hrows⟩
      have hs : (prepared sql params).supplied = .bound b := by simp [supplied, params?, hr]
      refine ⟨⟨b, hr⟩, hm, ?_, hrows⟩
      rw [analysis, hs]
      exact (Reconciliation.bindings_eq_nil_iff hm).2 hf

namespace Query

/-- **The verdict on a query** under the lenient policy. It passes exactly when it is acceptable and
fails exactly when it is not, unless its head is torn: then there is no report on it. -/
theorem status_validate_lenient (verbose : Bool) (d : Dialect) (q : Query) (context : Option Json) :
    ((∃ r, (Config.mk true verbose d .lenient).validate? q context = some r ∧
        r.status ≠ .error) ↔
      q.Acceptable d ∧ ¬ Head.TearsDelete (SqlText.ofString d q.sql).statementHead) ∧
    ((∃ r, (Config.mk true verbose d .lenient).validate? q context = some r ∧
        r.status = .error) ↔
      ¬ q.Acceptable d ∧ ¬ Head.TearsDelete (SqlText.ofString d q.sql).statementHead) ∧
    ((Config.mk true verbose d .lenient).validate? q context = none ↔
      Head.TearsDelete (SqlText.ofString d q.sql).statementHead) := by
  have hpasses := status_validate_ne_error_iff verbose d q context
  have hbreaks : (Config.mk true verbose d .lenient).BreaksOff q ↔
      Head.TearsDelete (SqlText.ofString d q.sql).statementHead := and_iff_right rfl
  refine ⟨?_, ?_, ?_⟩
  · rw [Config.exists_validate?_iff _ q context (·.status ≠ .error), hpasses, hbreaks]
  · rw [Config.exists_validate?_iff _ q context (·.status = .error), hbreaks, ← hpasses, not_not]
  · rw [Config.validate?_eq_none_iff, hbreaks]

/-- What is bound to a torn statement fits it, and there is no report on the query. -/
theorem not_status_validate_lenient_kelvin :
    let q : Query := .prepared "DELETE QUIC\u212a FROM t WHERE id = ?" (.positional [.int 1])
    q.Acceptable .standard ∧
      (Config.mk true false .standard .lenient).validate? q none = none := by
  refine ⟨⟨.positional [.int 1], by decide +kernel, ?_, ?_, ?_⟩, by decide +kernel⟩
  · exact Placeholder.not_isMixed_of_forall (by decide +kernel)
  · exact .positional _ (by decide +kernel) (by decide +kernel)
  · intro h
    exact absurd h (by decide +kernel)

end Query

end QueryGuard
