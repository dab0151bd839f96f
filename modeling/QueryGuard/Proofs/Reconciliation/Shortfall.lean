import QueryGuard.Proofs.Guard.Suppression
import QueryGuard.Proofs.Reconciliation.Wording
import QueryGuard.Proofs.Sql.Occurrence
import QueryGuard.Suggestion.Basic

/-!
Values that are missing. The comparison of a query with its parameters tells of them by counts and by
names, and a suggestion marks the binds of the single placeholders. Main statement: what a finding
tells to be missing is what the suggestion marks as missing.
-/

namespace QueryGuard

open Reconciliation

/-! ### Binds without a value -/

namespace Supplied

/-- The values that there are to bind: none for a text alone. -/
def given (s : Supplied) : Bindings := s.bindings?.getD (.positional [])

variable {s : Supplied}

lemma bind_getPositional? (s : Supplied) (i : Nat) :
    s.bindings?.bind (·.getPositional? i) = s.given.getPositional? i := by
  cases s <;> rfl

lemma bind_getNamed? (s : Supplied) (n : String) :
    s.bindings?.bind (·.getNamed? n) = s.given.getNamed? n := by
  cases s <;> rfl

lemma size_given (s : Supplied) : (s.bindings?.map Bindings.size).getD 0 = s.given.size := by
  cases s <;> rfl

end Supplied

namespace Bind

variable {s : Supplied} {ps : List Placeholder}

lemma isMissing_ofIndex (s : Supplied) (i : Nat) :
    (ofIndex s.bindings? i).isMissing = (s.given.getPositional? i).isNone := by
  rw [← s.bind_getPositional?]
  unfold ofIndex
  split
  · next h => rw [h]; rfl
  · next h => rw [h]; rfl

lemma isMissing_ofName (s : Supplied) (n : String) :
    (ofName s.bindings? n).isMissing = (s.given.getNamed? n).isNone := by
  rw [← s.bind_getNamed?]
  unfold ofName
  split
  · next h => rw [h]; rfl
  · next h => rw [h]; rfl

/-- Which placeholders have no value. -/
def missing (s : Supplied) (ps : List Placeholder) : List Bool :=
  (ofPlaceholders s.bindings? ps).map (·.isMissing)

/-- A positional placeholder has no value where there is none at its position. -/
lemma missing_of_positional (hp : ∀ p ∈ ps, ¬ p.isNamed) : missing s ps =
    (List.range ps.length).map fun i => (s.given.getPositional? i).isNone := by
  have hfrom : ∀ next, (ofPlaceholdersFrom s.bindings? next ps).map (·.isMissing) =
      (List.range' next ps.length).map fun i => (s.given.getPositional? i).isNone := by
    induction ps with
    | nil => exact fun next => rfl
    | cons p ps ih =>
      intro next
      obtain ⟨hp, hps⟩ := List.forall_mem_cons.1 hp
      rw [ofPlaceholdersFrom, Placeholder.not_isNamed_iff.1 hp]
      dsimp only
      rw [List.map_cons, isMissing_ofIndex, ih hps, List.length_cons, List.range'_succ,
        List.map_cons]
  rw [List.range_eq_range']
  exact hfrom 0

/-- A named placeholder has no value where there is none under its name. -/
lemma missing_of_named (hp : ∀ p ∈ ps, p.isNamed) : missing s ps =
    ps.map fun p => p.name?.any fun n => (s.given.getNamed? n).isNone := by
  have hfrom : ∀ next, (ofPlaceholdersFrom s.bindings? next ps).map (·.isMissing) =
      ps.map fun p => p.name?.any fun n => (s.given.getNamed? n).isNone := by
    induction ps with
    | nil => exact fun next => rfl
    | cons p ps ih =>
      intro next
      obtain ⟨hp, hps⟩ := List.forall_mem_cons.1 hp
      obtain ⟨n, hn⟩ := Placeholder.isNamed_iff.1 hp
      rw [ofPlaceholdersFrom, hn]
      dsimp only
      rw [List.map_cons, isMissing_ofName, ih hps, List.map_cons, Placeholder.name?, hn]
      rfl
  exact hfrom 0

/-- When values are given by position, those that are missing are missing at the end. -/
lemma missing_of_values {values : List Value} (hp : ∀ p ∈ ps, ¬ p.isNamed)
    (hs : s.given = .positional values) : missing s ps =
      List.replicate (min ps.length values.length) false ++
        List.replicate (ps.length - values.length) true := by
  rw [missing_of_positional hp, hs]
  refine List.ext_getElem (by simp; omega) fun i hi _ => ?_
  rw [List.getElem_map, List.getElem_range, List.getElem_append]
  simp only [List.length_map, List.length_range] at hi
  simp only [Bindings.getPositional?, List.length_replicate, List.getElem_replicate]
  split
  · next h => simp; omega
  · next h => simp; omega

/-- Values that are given by name leave every positional placeholder without one. -/
lemma missing_of_pairs {pairs : List (String × Value)} (hp : ∀ p ∈ ps, ¬ p.isNamed)
    (hs : s.given = .named pairs) : missing s ps = ps.map fun _ => true := by
  rw [missing_of_positional hp, hs, List.map_const']
  show (List.range ps.length).map (fun _ => true) = _
  rw [List.map_const', List.length_range]

end Bind

/-! ### What findings tell -/

/-- What a finding tells of each placeholder: whether it has no value. -/
inductive Finding.Tells (ps : List Placeholder) : Finding → List Bool → Prop where
  /-- The last ones have none. -/
  | values (e g : Nat) : Tells ps (valuesMissing e g)
      (List.replicate g false ++ List.replicate (e - g) true)
  /-- Those of these names have none. No comma and no colon stands in a name, so the finding tells
  which names they are. -/
  | names (ns : List String) (b : Bindings)
      (hns : ∀ n ∈ ns, ∀ c ∈ n.toList, Placeholder.continuesName c) :
      Tells ps (namesMissing ns b) (ps.map fun p => p.name?.any ns.contains)
  /-- None has one, since all values have names. -/
  | positions (e : Nat) (ns : List String) :
      Tells ps (namedForPositional e ns) (ps.map fun _ => true)

namespace Finding.Tells

variable {ps : List Placeholder} {f : Finding} {flags : List Bool}

lemma code_cases (h : f.Tells ps flags) :
    f.code = .paramCountMismatch ∨ f.code = .paramNameMismatch := by
  cases h with
  | values e g => exact .inl rfl
  | names ns b hns => exact .inr rfl
  | positions e ns => exact .inr rfl

lemma of_count? {m n : Nat} (h : f.Tells ps flags) (hf : count? m n = some f) :
    n < m ∧ flags = List.replicate n false ++ List.replicate (m - n) true := by
  obtain ⟨message, hm⟩ := count?_eq hf
  have hcode : f.code = .paramCountMismatch := by rw [hm]; rfl
  cases h with
  | values e g =>
    obtain ⟨hlt, rfl, rfl⟩ := eq_of_count?_valuesMissing hf
    exact ⟨hlt, rfl⟩
  | names ns b hns => exact nomatch hcode
  | positions e ns => exact nomatch hcode

lemma of_namesMissing {ns : List String} {b : Bindings} (h : (namesMissing ns b).Tells ps flags)
    (hns : ∀ n ∈ ns, ∀ c ∈ n.toList, Placeholder.continuesName c) :
    flags = ps.map fun p => p.name?.any ns.contains := by
  generalize hf : namesMissing ns b = f at h
  cases h with
  | values e g => exact nomatch congrArg Finding.code hf
  | names ns' b' hns' => rw [namesMissing_inj hns hns' hf]
  | positions e ns' =>
    exact absurd hf (ne_of_head? (head?_namesMissing ns b) (head?_namedForPositional e ns')
      (by decide))

lemma of_namedForPositional {e : Nat} {ns : List String}
    (h : (namedForPositional e ns).Tells ps flags) : flags = ps.map fun _ => true := by
  generalize hf : namedForPositional e ns = f at h
  cases h with
  | values e' g => exact nomatch congrArg Finding.code hf
  | names ns' b' hns' =>
    exact absurd hf (ne_of_head? (head?_namedForPositional e ns) (head?_namesMissing ns' b')
      (by decide))
  | positions e' ns' => rfl

lemma ne_namesUnexpected (h : f.Tells ps flags) (ns : List String) : f ≠ namesUnexpected ns := by
  intro hf
  cases h with
  | values e g => exact nomatch congrArg Finding.code hf
  | names ns' b' hns' =>
    exact ne_of_head? (head?_namesMissing ns' b') (head?_namesUnexpected ns) (by decide) hf
  | positions e ns' =>
    exact ne_of_head? (head?_namedForPositional e ns') (head?_namesUnexpected ns) (by decide) hf

end Finding.Tells

/-! ### Agreement -/

namespace Reconciliation

variable {ps : List Placeholder} {s : Supplied} {f : Finding} {flags : List Bool}

/-- What is found on the values for placeholders of one style. -/
lemma bindings_cases (hs : s ≠ .malformed) (hm : ¬ Placeholder.IsMixed ps) :
    (ps = [] ∧ bindings ps s = [notPrepared]) ∨
    (ps = [] ∧ bindings ps s = (count? 0 s.given.size).toList) ∨
    ((∀ p ∈ ps, ¬ p.isNamed) ∧ ∃ values, s.given = .positional values ∧
      bindings ps s = (count? ps.length values.length).toList) ∨
    ((∀ p ∈ ps, ¬ p.isNamed) ∧ ∃ pairs, s.given = .named pairs ∧
      bindings ps s = [namedForPositional ps.length (pairs.map (·.1))]) ∨
    ((∀ p ∈ ps, p.isNamed) ∧ bindings ps s = names ps s.given) := by
  rcases Placeholder.protocol_cases ps with ⟨hp, rfl⟩ | ⟨hp, -, hall⟩ | ⟨hp, -, hall⟩ | ⟨-, hmixed⟩
  · cases s with
    | raw => exact .inl ⟨rfl, rfl⟩
    | malformed => exact absurd rfl hs
    | bound b => exact .inr (.inl ⟨rfl, rfl⟩)
  · refine .inr (.inr ?_)
    cases s with
    | raw => exact .inl ⟨hall, [], rfl, by simp only [bindings, hp]; rfl⟩
    | malformed => exact absurd rfl hs
    | bound b =>
      cases b with
      | positional values => exact .inl ⟨hall, values, rfl, by simp only [bindings, hp]⟩
      | named pairs => exact .inr (.inl ⟨hall, pairs, rfl, by simp only [bindings, hp]⟩)
  · refine .inr (.inr (.inr (.inr ⟨hall, ?_⟩)))
    cases s with
    | raw => simp only [bindings, hp]; rfl
    | malformed => exact absurd rfl hs
    | bound b => simp only [bindings, hp]; rfl
  · exact absurd hmixed hm

/-- A name of a placeholder is found missing exactly if it has no value. -/
lemma any_missingNames {p : Placeholder} (hp : p ∈ ps) (b : Bindings) :
    p.name?.any (missingNames ps b).contains = p.name?.any fun n => (b.getNamed? n).isNone := by
  cases hn : p.name? with
  | none => rfl
  | some n =>
    rw [Option.any_some, Option.any_some, Bool.eq_iff_iff, List.contains_iff_mem,
      (picks_missingNames ps b).mem_iff, Option.isNone_iff_eq_none]
    exact and_iff_right (List.mem_filterMap.2 ⟨p, hp, hn⟩)

/-- **What a finding tells to be missing is missing.** -/
theorem missing_of_tells (hs : s ≠ .malformed) (hm : ¬ Placeholder.IsMixed ps)
    (hnames : ∀ p ∈ ps, ∀ n, p.style = .named n → ∀ c ∈ n.toList, Placeholder.continuesName c)
    (hf : f ∈ bindings ps s) (h : f.Tells ps flags) : Bind.missing s ps = flags := by
  rcases bindings_cases hs hm with ⟨rfl, e⟩ | ⟨rfl, e⟩ | ⟨hp, values, hg, e⟩ |
    ⟨hp, pairs, hg, e⟩ | ⟨hp, e⟩
  -- each way of supply has its own findings, of which the one at hand tells
  · rw [e, List.mem_singleton] at hf
    subst hf
    rcases h.code_cases with hc | hc <;> cases hc
  · rw [e, Option.mem_toList] at hf
    exact absurd (h.of_count? hf).1 (Nat.not_lt_zero _)
  · rw [e, Option.mem_toList] at hf
    obtain ⟨hlt, rfl⟩ := h.of_count? hf
    rw [Bind.missing_of_values hp hg, Nat.min_eq_right hlt.le]
  · rw [e, List.mem_singleton] at hf
    subst hf
    rw [Bind.missing_of_pairs hp hg, h.of_namedForPositional]
  · rw [e, names_eq_append, List.mem_append] at hf
    rcases hf with hf | hf
    · split at hf
      · cases hf
      · obtain rfl := List.mem_singleton.1 hf
        -- names of placeholders hold no comma, so they are told apart in the message
        have hwords : ∀ n ∈ missingNames ps s.given, ∀ c ∈ n.toList,
            Placeholder.continuesName c := by
          intro n hn
          obtain ⟨hmem, -⟩ := ((picks_missingNames ps s.given).mem_iff n).1 hn
          obtain ⟨p, hp, hstyle⟩ := Placeholder.mem_filterMap_name?_iff.1 hmem
          exact hnames p hp n hstyle
        rw [Bind.missing_of_named hp, h.of_namesMissing hwords]
        exact List.map_congr_left fun p hp => (any_missingNames hp s.given).symm
    · split at hf
      · cases hf
      · exact absurd (List.mem_singleton.1 hf) (h.ne_namesUnexpected _)

/-- **What is missing is told by a finding.** -/
theorem exists_tells_of_missing (hs : s ≠ .malformed) (hm : ¬ Placeholder.IsMixed ps)
    (hnames : ∀ p ∈ ps, ∀ n, p.style = .named n → ∀ c ∈ n.toList, Placeholder.continuesName c)
    (h : true ∈ Bind.missing s ps) : ∃ f ∈ bindings ps s, ∃ flags, f.Tells ps flags := by
  rcases bindings_cases hs hm with ⟨rfl, -⟩ | ⟨rfl, -⟩ | ⟨hp, values, hg, e⟩ |
    ⟨hp, pairs, hg, e⟩ | ⟨hp, e⟩
  -- where values are missing there are placeholders, so the protocol has a rule on them
  · cases h
  · cases h
  · have hlt : values.length < ps.length := by
      rw [Bind.missing_of_values hp hg] at h
      simp only [List.mem_append, List.mem_replicate, Bool.true_eq_false, and_false, false_or,
        and_true] at h
      omega
    rw [e, count?_of_lt hlt]
    exact ⟨_, List.mem_singleton_self _, _, .values _ _⟩
  · rw [e]
    exact ⟨_, List.mem_singleton_self _, _, .positions _ _⟩
  · have hpicks := picks_missingNames ps s.given
    rw [Bind.missing_of_named hp] at h
    obtain ⟨p, hmem, hany⟩ := List.mem_map.1 h
    obtain ⟨n, hn, hnone⟩ := (Option.any_eq_true _ _).1 hany
    have hn : n ∈ missingNames ps s.given :=
      (hpicks.mem_iff n).2 ⟨List.mem_filterMap.2 ⟨p, hmem, hn⟩, Option.isNone_iff_eq_none.1 hnone⟩
    rw [e, names_eq_append, if_neg (List.ne_nil_of_mem hn)]
    refine ⟨_, List.mem_append_left _ (List.mem_singleton_self _), _, .names _ _ fun n hn => ?_⟩
    obtain ⟨q, hq, hstyle⟩ := Placeholder.mem_filterMap_name?_iff.1 ((hpicks.mem_iff n).1 hn).1
    exact hnames q hq n hstyle

/-- Counts are compared of values that are given by position, or when there is no placeholder. -/
lemma of_mem_bindings_count (hs : s ≠ .malformed) (hm : ¬ Placeholder.IsMixed ps)
    (hf : f ∈ bindings ps s) (hc : f.code = .paramCountMismatch) :
    count? ps.length s.given.size = some f ∧
      Bind.missing s ps = List.replicate (min ps.length s.given.size) false ++
        List.replicate (ps.length - s.given.size) true := by
  rcases bindings_cases hs hm with ⟨rfl, e⟩ | ⟨rfl, e⟩ | ⟨hp, values, hg, e⟩ |
    ⟨hp, pairs, hg, e⟩ | ⟨hp, e⟩
  · rw [e, List.mem_singleton] at hf
    subst hf
    cases hc
  · rw [e, Option.mem_toList] at hf
    refine ⟨hf, ?_⟩
    rw [List.length_nil, Nat.zero_min, Nat.zero_sub]
    rfl
  · rw [e, Option.mem_toList] at hf
    rw [Bind.missing_of_values hp hg, hg]
    exact ⟨hf, rfl⟩
  · rw [e, List.mem_singleton] at hf
    subst hf
    cases hc
  · obtain ⟨message, rfl⟩ := eq_of_mem_names (e ▸ hf)
    cases hc

end Reconciliation

/-! ### Queries -/

lemma Placeholder.continuesName_of_mem {t : SqlText} {p : Placeholder} (hp : p ∈ t.placeholders)
    {n : String} (hn : p.style = .named n) : ∀ c ∈ n.toList, continuesName c := by
  obtain ⟨offset, hoccurs⟩ : ∃ offset, Occurs t (.named n) offset :=
    ⟨p.offset, occurs_iff.2 ⟨p, hp, hn, rfl⟩⟩
  cases hoccurs with
  | named hs hk e hc hfirst hname hpost =>
    rw [String.toList_ofList]
    exact fun c hc => continuesName_iff.2 (hname c hc)

namespace Analysis

/-- An explanation that tells how many binds have no value and how many values are dropped. -/
def countExplanation (missing dropped : Nat) : String :=
  let binds := plural missing "bind"
  let values := plural dropped "value"
  let verb := if dropped = 1 then "was" else "were"
  let missingText := if 0 < missing then s!" {binds} still missing a value." else ""
  let droppedText :=
    if 0 < dropped then s!" {values} had no placeholder and {verb} dropped." else ""
  "Every ? needs exactly one bound value, in order." ++ missingText ++ droppedText

variable {a : Analysis}

lemma explanation_paramCount : a.paramCount.explanation =
    countExplanation a.missingCount a.droppedCount := rfl

lemma counts_of_missing {n g : Nat} (hn : a.placeholders.length = n) (hg : a.supplied.given.size = g)
    (h : Bind.missing a.supplied a.placeholders =
      List.replicate (min n g) false ++ List.replicate (n - g) true) :
    a.missingCount = n - g ∧ a.droppedCount = g - n := by
  have hmissing : a.missingCount = (Bind.missing a.supplied a.placeholders).countP id := by
    rw [Bind.missing, List.countP_map]
    rfl
  have hlength : a.binds.length = n := by rw [binds, Bind.length_ofPlaceholders, hn]
  rw [droppedCount, Supplied.size_given, hlength, hg, hmissing, h, List.countP_append,
    List.countP_replicate, List.countP_replicate]
  simp
  omega

end Analysis

namespace Query

variable {q : Query} {d : Dialect} {f : Finding}

/-- A suggestion for a query says of what is missing what the findings say. -/
structure AgreesOnMissing (q : Query) (d : Dialect) : Prop where
  /-- What a finding tells to be missing is marked so. -/
  told : ∀ f ∈ q.reconciled d, ∀ flags, f.Tells (q.analysis d).placeholders flags →
    (q.analysis d).binds.map (·.isMissing) = flags
  /-- Nothing is marked when no finding tells of it. -/
  untold : (∀ f ∈ q.reconciled d, ∀ flags, ¬ f.Tells (q.analysis d).placeholders flags) →
    ∀ b ∈ (q.analysis d).binds, b.isMissing = false
  /-- The explanation counts what is missing and what is dropped. -/
  counted : ∀ f ∈ q.findings d, f.code = .paramCountMismatch →
    let expected := (q.analysis d).placeholders.length
    let given := q.supplied.given.size
    count? expected given = some f ∧
      (Suggestion.ofFinding (q.analysis d) f).explanation =
        Analysis.countExplanation (expected - given) (given - expected)

lemma supplied_ne_malformed (h : ∀ params, q.params? = some params → ∃ b, params.resolve = .ok b) :
    q.supplied ≠ .malformed := by
  unfold supplied
  split
  · nofun
  · next params hp =>
    obtain ⟨b, hb⟩ := h params hp
    rw [hb]
    nofun

lemma mem_findings_of_mem_reconciled (h : f ∈ q.reconciled d) : f ∈ q.findings d :=
  List.mem_append_left _ (List.mem_append_left _ (List.mem_append_right _ h))

/-- Counts and names are compared by one rule. -/
lemma mem_bindings_of_code (h : f ∈ q.findings d)
    (hc : f.code = .paramCountMismatch ∨ f.code = .paramNameMismatch) :
    f ∈ bindings (q.analysis d).placeholders q.supplied := by
  -- what another rule finds has another code
  have hother : ∀ {code : FindingCode}, f.code = code → code ≠ .paramCountMismatch →
      code ≠ .paramNameMismatch → False := by
    rintro _ rfl hcount hname
    exact hc.elim hcount hname
  rcases List.mem_append.1 h with h | h
  · rcases List.mem_append.1 h with h | h
    · rcases List.mem_append.1 h with h | h
      · exact (hother (code_of_mem_malformedFinding? (Option.mem_toList.1 h)) nofun nofun).elim
      · rcases List.mem_append.1 h with h | h
        · rcases List.mem_append.1 h with h | h
          · obtain ⟨message, rfl⟩ := Placeholder.eq_of_mem_mixedFinding? (Option.mem_toList.1 h)
            exact (hother rfl nofun nofun).elim
          · exact h
        · exact (hother (mem_of_mem_rows h).1 nofun nofun).elim
    · rcases SqlText.code_of_mem_review h with hf | hf | hf <;>
        exact (hother hf nofun nofun).elim
  · exact (hother (code_of_mem_injections h) nofun nofun).elim

/-- **Suggestions and findings agree on what is missing**, for a text alone and for parameters that
follow one protocol, when the placeholders have one style. -/
theorem agreesOnMissing
    (hresolve : ∀ params, q.params? = some params → ∃ b, params.resolve = .ok b)
    (hm : ¬ Placeholder.IsMixed (q.analysis d).placeholders) : q.AgreesOnMissing d := by
  have hs : (q.analysis d).supplied ≠ .malformed := supplied_ne_malformed hresolve
  have hnames : ∀ p ∈ (q.analysis d).placeholders, ∀ n, p.style = .named n →
      ∀ c ∈ n.toList, Placeholder.continuesName c := fun p hp n hn =>
    Placeholder.continuesName_of_mem hp hn
  refine ⟨?_, ?_, ?_⟩
  · intro f hf flags htells
    have hmem := mem_bindings_of_code (mem_findings_of_mem_reconciled hf) htells.code_cases
    exact missing_of_tells hs hm hnames hmem htells
  · intro hnone b hb
    by_contra hmissing
    have htrue : true ∈ Bind.missing (q.analysis d).supplied (q.analysis d).placeholders :=
      List.mem_map.2 ⟨b, hb, Bool.not_eq_false _ ▸ hmissing⟩
    obtain ⟨f, hf, flags, htells⟩ := exists_tells_of_missing hs hm hnames htrue
    have hmem : f ∈ q.reconciled d :=
      List.mem_append_left _ (List.mem_append_right _ hf)
    exact hnone f hmem flags htells
  · intro f hf hc expected given
    obtain ⟨hcount, hmissing⟩ := of_mem_bindings_count hs hm (mem_bindings_of_code hf (.inl hc)) hc
    obtain ⟨hbinds, hdropped⟩ := Analysis.counts_of_missing rfl rfl hmissing
    refine ⟨hcount, ?_⟩
    have htemplate : ((q.analysis d).template f).explanation =
        (q.analysis d).paramCount.explanation := by rw [Analysis.template, hc]
    show ((q.analysis d).template f).explanation = _
    rw [htemplate, Analysis.explanation_paramCount, hbinds, hdropped]
    rfl

/-- Two of three values are missing. -/
theorem agreesOnMissing_two_of_three :
    let q := Query.prepared "SELECT a FROM t WHERE b IN (?, ?, ?)" (.positional [.int 1])
    let explanation := (Suggestion.ofFinding (q.analysis .standard) (valuesMissing 3 1)).explanation
    q.AgreesOnMissing .standard ∧
      q.reconciled .standard = [valuesMissing 3 1] ∧
      (q.analysis .standard).binds.map (·.isMissing) = [false, true, true] ∧
      explanation = "Every ? needs exactly one bound value, in order." ++
        " 2 binds still missing a value." := by
  intro q explanation
  have hresolve : ∀ params, q.params? = some params → ∃ b, params.resolve = .ok b := by
    intro params hp
    obtain rfl := Option.some.inj hp
    exact ⟨.positional [.int 1], by decide +kernel⟩
  have hm : ¬ Placeholder.IsMixed (q.analysis .standard).placeholders :=
    Placeholder.mixedFinding?_eq_none_iff.1 (by decide +kernel)
  have hreconciled : q.reconciled .standard = [valuesMissing 3 1] := by decide +kernel
  have hagree : q.AgreesOnMissing .standard := agreesOnMissing hresolve hm
  have hmem : valuesMissing 3 1 ∈ q.reconciled .standard := by
    rw [hreconciled]
    exact List.mem_singleton_self _
  refine ⟨hagree, hreconciled, hagree.told _ hmem _ (.values 3 1), ?_⟩
  obtain ⟨-, htext⟩ := hagree.counted _ (mem_findings_of_mem_reconciled hmem) rfl
  exact htext.trans (by decide +kernel)

end Query

end QueryGuard
