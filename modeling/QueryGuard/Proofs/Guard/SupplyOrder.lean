import QueryGuard.Proofs.Guard.Suppression

/-!
The order in which parameters are supplied. Main statement: it shows in the words of a report only.
The findings have the same codes and places in the same order, so the verdict is the same, and so is
the suggestion, which looks values up by position or by name and names up in their own order.
-/

namespace QueryGuard

/-! ### The order of names -/

namespace Text

lemma notAfter_cons_iff {a b : Char} {as bs : List Char} : notAfter (a :: as) (b :: bs) ↔
    a.toNat < b.toNat ∨ a = b ∧ notAfter as bs := by
  rw [notAfter]
  split
  · next h => simp [h]
  · next h => simp [h]

lemma notAfter_total (as bs : List Char) : notAfter as bs ∨ notAfter bs as := by
  induction as generalizing bs with
  | nil => exact .inl rfl
  | cons a as ih =>
    cases bs with
    | nil => exact .inr rfl
    | cons b bs =>
      rw [notAfter_cons_iff, notAfter_cons_iff]
      rcases Nat.lt_trichotomy a.toNat b.toNat with h | h | h
      · exact .inl (.inl h)
      · obtain rfl := Char.toNat_inj.1 h
        exact (ih bs).imp (fun h => .inr ⟨rfl, h⟩) fun h => .inr ⟨rfl, h⟩
      · exact .inr (.inl h)

lemma notAfter_trans {as bs cs : List Char} (h : notAfter as bs) (h' : notAfter bs cs) :
    notAfter as cs := by
  induction as generalizing bs cs with
  | nil => rfl
  | cons a as ih =>
    rcases bs with _ | ⟨b, bs⟩
    · cases h
    rcases cs with _ | ⟨c, cs⟩
    · cases h'
    rw [notAfter_cons_iff] at h h' ⊢
    rcases h with h | ⟨rfl, h⟩
    · rcases h' with h' | ⟨rfl, -⟩
      · exact .inl (Nat.lt_trans h h')
      · exact .inl h
    · exact h'.imp id fun h' => ⟨h'.1, ih h h'.2⟩

lemma notAfter_antisymm {as bs : List Char} (h : notAfter as bs) (h' : notAfter bs as) :
    as = bs := by
  induction as generalizing bs with
  | nil =>
    cases bs with
    | nil => rfl
    | cons b bs => cases h'
  | cons a as ih =>
    cases bs with
    | nil => cases h
    | cons b bs =>
      rw [notAfter_cons_iff] at h h'
      rcases h with h | ⟨rfl, h⟩
      · rcases h' with h' | ⟨rfl, -⟩
        · exact absurd h' (Nat.lt_asymm h)
        · exact absurd h (Nat.lt_irrefl _)
      · rcases h' with h' | ⟨-, h'⟩
        · exact absurd h' (Nat.lt_irrefl _)
        · rw [ih h h']

end Text

namespace Bindings.Rearranges

variable {b b' : Bindings}

lemma size_eq (h : b.Rearranges b') : b.size = b'.size := by
  cases h with
  | positional => rfl
  | named h _ => exact h.length_eq

lemma perm_names (h : b.Rearranges b') : b.names.Perm b'.names := by
  cases h with
  | positional => rfl
  | named h _ => exact h.map _

lemma getPositional?_eq (h : b.Rearranges b') : b.getPositional? = b'.getPositional? := by
  cases h <;> rfl

lemma getNamed?_eq (h : b.Rearranges b') : b.getNamed? = b'.getNamed? := by
  funext n
  cases h with
  | positional => rfl
  | named h hnodup =>
    refine Option.ext fun v => ?_
    rw [getNamed?_eq_some_iff hnodup, getNamed?_eq_some_iff ((h.map _).nodup_iff.1 hnodup),
      h.mem_iff]

/-- Names are put in their own order. -/
lemma sortedNames_eq (h : b.Rearranges b') : b.sortedNames = b'.sortedNames := by
  have hsorted : ∀ b : Bindings, b.sortedNames.Pairwise fun x y =>
      Text.notAfter x.toList y.toList = true := by
    intro b
    refine List.pairwise_mergeSort ?_ ?_ b.names
    · exact fun _ _ _ => Text.notAfter_trans
    · exact fun x y => Bool.or_eq_true_iff.2 (Text.notAfter_total x.toList y.toList)
  have hperm : b.sortedNames.Perm b'.sortedNames :=
    ((List.mergeSort_perm _ _).trans h.perm_names).trans (List.mergeSort_perm _ _).symm
  exact hperm.eq_of_pairwise
    (fun _ _ _ _ hxy hyx => String.toList_inj.1 (Text.notAfter_antisymm hxy hyx))
    (hsorted b) (hsorted b')

end Bindings.Rearranges

/-! ### Findings without their words -/

/-- The finding without its message. -/
def Finding.unworded (f : Finding) : Finding := { f with message := "" }

namespace Report

lemma pairwise_foldl_push (fs : List Finding) {r : Report}
    (h : r.findings.Pairwise fun f g => sameFinding g f = false) :
    (fs.foldl push r).findings.Pairwise fun f g => sameFinding g f = false := by
  induction fs generalizing r with
  | nil => exact h
  | cons f fs ih =>
    apply ih
    rw [push]
    split
    · exact h
    · next hf =>
      refine List.pairwise_append.2 ⟨h, List.pairwise_singleton _ _, fun g hg e he => ?_⟩
      rw [List.mem_singleton.1 he, Bool.eq_false_iff]
      exact fun hs => hf (List.any_eq_true.2 ⟨g, hg, hs⟩)

/-- How many findings a report keeps does not depend on their order. -/
lemma length_ofFindings_of_perm {fs gs : List Finding} (h : fs.Perm gs) :
    (ofFindings fs).findings.length = (ofFindings gs).findings.length := by
  -- what tells the findings of a report apart, and what is put into it without repetitions
  let key : Finding → FindingCode × String := fun f => (f.code, f.message)
  have hnodup : ∀ fs, ((ofFindings fs).findings.map key).Nodup := fun fs => by
    refine List.pairwise_map.2 ((pairwise_foldl_push fs List.Pairwise.nil).imp fun hs he => ?_)
    obtain ⟨hcode, hmessage⟩ := Prod.mk.inj he
    rw [Bool.eq_false_iff, ne_eq, sameFinding_iff] at hs
    exact hs ⟨hcode.symm, hmessage.symm⟩
  have hmem : ∀ fs x, x ∈ (ofFindings fs).findings.map key ↔ x ∈ fs.map key := by
    intro fs x
    constructor
    · intro hx
      obtain ⟨f, hf, rfl⟩ := List.mem_map.1 hx
      exact List.mem_map.2 ⟨f, mem_of_mem_ofFindings hf, rfl⟩
    · intro hx
      obtain ⟨f, hf, rfl⟩ := List.mem_map.1 hx
      obtain ⟨g, hg, hcode, hmessage⟩ := exists_mem_ofFindings hf
      exact List.mem_map.2 ⟨g, hg, Prod.ext hcode hmessage⟩
  have hperm := (List.perm_ext_iff_of_nodup (hnodup fs) (hnodup gs)).2 fun x => by
    rw [hmem, hmem, (h.map key).mem_iff]
  simpa only [List.length_map] using hperm.length_eq

end Report

namespace Reconciliation

variable {ps : List Placeholder} {b b' : Bindings}

lemma map_unworded_names (h : b.names.Perm b'.names) :
    (names ps b).map Finding.unworded = (names ps b').map Finding.unworded := by
  have hmissing : missingNames ps b = missingNames ps b' := by
    unfold missingNames
    refine List.filter_congr fun n _ => ?_
    rw [Bool.not_inj_iff, Bool.eq_iff_iff, List.contains_iff_mem, List.contains_iff_mem, h.mem_iff]
  have hunexpected : (unexpectedNames ps b).length = (unexpectedNames ps b').length :=
    (h.filter _).length_eq
  unfold names
  rw [hmissing, List.map_append, List.map_append]
  congr 1
  · cases missingNames ps b' <;> rfl
  · cases hu : unexpectedNames ps b with
    | nil =>
      rw [hu] at hunexpected
      rw [List.length_eq_zero_iff.1 hunexpected.symm]
    | cons n ns =>
      cases hu' : unexpectedNames ps b' with
      | nil =>
        rw [hu, hu'] at hunexpected
        cases hunexpected
      | cons n' ns' => rfl

lemma map_unworded_bindings (h : b.Rearranges b') :
    (bindings ps (.bound b)).map Finding.unworded =
      (bindings ps (.bound b')).map Finding.unworded := by
  have hsize := h.size_eq
  have hnames : (names ps b).map Finding.unworded = (names ps b').map Finding.unworded :=
    map_unworded_names h.perm_names
  dsimp only [bindings]
  cases h with
  | positional values => rfl
  | @named pairs pairs' hperm hnodup =>
    cases Placeholder.protocol ps with
    | none =>
      dsimp only
      rw [hsize]
    | positional => rfl
    | named => exact hnames
    | mixed => rfl

end Reconciliation

/-! ### What is looked up -/

section

variable {o o' : Option Bindings} {α : Type}

lemma map_eq_of_rearranges {view : Bindings → α} (hview : ∀ b b', b.Rearranges b' → view b = view b')
    (h : Option.Rel Bindings.Rearranges o o') : o.map view = o'.map view := by
  cases h with
  | none => rfl
  | some h => exact congrArg some (hview _ _ h)

lemma bind_eq_of_rearranges {view : Bindings → Option α}
    (hview : ∀ b b', b.Rearranges b' → view b = view b')
    (h : Option.Rel Bindings.Rearranges o o') : o.bind view = o'.bind view := by
  cases h with
  | none => rfl
  | some h => exact hview _ _ h

lemma Bind.ofPlaceholdersFrom_eq (h : Option.Rel Bindings.Rearranges o o') (next : Nat)
    (ps : List Placeholder) : ofPlaceholdersFrom o next ps = ofPlaceholdersFrom o' next ps := by
  induction ps generalizing next with
  | nil => rfl
  | cons p ps ih =>
    have hindex : ofIndex o next = ofIndex o' next := by
      rw [ofIndex, ofIndex, bind_eq_of_rearranges (fun _ _ h => congrFun h.getPositional?_eq next) h]
    have hname : ∀ n, ofName o n = ofName o' n := fun n => by
      rw [ofName, ofName, bind_eq_of_rearranges (fun _ _ h => congrFun h.getNamed?_eq n) h]
    rw [ofPlaceholdersFrom, ofPlaceholdersFrom]
    split
    · rw [hindex, ih]
    · rw [hname, ih]

end

/-- What a template says of a query it says in any order of the names. -/
lemma Analysis.template_eq {t : SqlText} {ps : List Placeholder} {st : Statement} {s s' : Supplied}
    (h : Option.Rel Bindings.Rearranges s.bindings? s'.bindings?) (f : Finding) :
    (Analysis.mk t ps st s).template f = (Analysis.mk t ps st s').template f := by
  -- what the templates read of the values does not depend on the order of the names
  have hbinds : (Analysis.mk t ps st s).binds = (Analysis.mk t ps st s').binds :=
    Bind.ofPlaceholdersFrom_eq h 0 ps
  have hcolumn : (Analysis.mk t ps st s).idColumn = (Analysis.mk t ps st s').idColumn := by
    unfold idColumn
    rw [map_eq_of_rearranges (fun _ _ h => h.sortedNames_eq) h]
  have hclause : (Analysis.mk t ps st s).whereClause = (Analysis.mk t ps st s').whereClause := by
    unfold whereClause
    rw [hcolumn]
  have hwhere : (Analysis.mk t ps st s).whereBind = (Analysis.mk t ps st s').whereBind := by
    unfold whereBind
    rw [hcolumn, bind_eq_of_rearranges (fun _ _ h => congrFun h.getNamed?_eq _) h]
  have hmissing : (Analysis.mk t ps st s).missingCount = (Analysis.mk t ps st s').missingCount := by
    unfold missingCount
    rw [hbinds]
  have hdropped : (Analysis.mk t ps st s).droppedCount = (Analysis.mk t ps st s').droppedCount := by
    unfold droppedCount
    rw [hbinds, hmissing, map_eq_of_rearranges (fun _ _ h => h.size_eq) h]
  have hpositional : ∀ e, (Analysis.mk t ps st s).positional e =
      (Analysis.mk t ps st s').positional e := fun e => by
    unfold positional
    rw [hbinds]
    rfl
  have hunchanged : ∀ e, (Analysis.mk t ps st s).unchanged e =
      (Analysis.mk t ps st s').unchanged e := fun e => by
    unfold unchanged
    rw [hbinds]
  -- each template is made from these parts
  unfold template
  cases f.code with
  | notPrepared => rfl
  | missingWhere =>
    dsimp only [missingWhere]
    rw [hbinds, hclause, hwhere]
    rfl
  | mixedPlaceholders => exact hpositional _
  | paramNameMismatch => exact hpositional _
  | selectStar =>
    dsimp only [selectStar]
    rw [hbinds]
  | paramCountMismatch =>
    dsimp only [paramCount]
    rw [hmissing, hdropped, hunchanged]
  | fieldCountMismatch => rfl
  | hardcodedValue =>
    dsimp only [hardcoded]
    rw [hbinds, hunchanged]
  | injectionSuspected => exact hunchanged _
  | malformedBindings => exact hpositional _

lemma Suggestion.ofFinding_eq {t : SqlText} {ps : List Placeholder} {st : Statement}
    {s s' : Supplied} (h : Option.Rel Bindings.Rearranges s.bindings? s'.bindings?) (f : Finding) :
    ofFinding (Analysis.mk t ps st s) f = ofFinding (Analysis.mk t ps st s') f := by
  unfold ofFinding
  rw [Analysis.template_eq h]

/-! ### The verdict -/

lemma map_unworded_eq {fs gs : List Finding} {e : Finding} (hf : ∀ f ∈ fs, f.unworded = e)
    (hg : ∀ g ∈ gs, g.unworded = e) (h : fs.length = gs.length) :
    fs.map Finding.unworded = gs.map Finding.unworded := by
  rw [List.map_congr_left hf, List.map_congr_left hg, List.map_const', List.map_const', h]

namespace Finding

lemma map_unworded_primary? (fs : List Finding) :
    primary? (fs.map unworded) = (primary? fs).map unworded := by
  have hfind : ∀ s : Severity, (fs.map unworded).find? (·.severity == s) =
      (fs.find? (·.severity == s)).map unworded := fun s => List.find?_map ..
  dsimp only [primary?]
  rw [hfind, hfind, hfind]
  cases fs.find? (·.severity == .error) <;> cases fs.find? (·.severity == .warning) <;> rfl

end Finding

namespace Params

variable {p p' : Params}

lemma rel_supplied (h : p.entries.Perm p'.entries) (sql : String) :
    Option.Rel Bindings.Rearranges (Query.prepared sql p).supplied.bindings?
      (Query.prepared sql p').supplied.bindings? := by
  rcases resolve_of_perm h with ⟨m, m', hr, hr'⟩ | ⟨b, b', hr, hr', hb⟩
  · rw [Query.supplied_of_error hr, Query.supplied_of_error hr']
    exact .none
  · rw [Query.supplied_of_ok hr, Query.supplied_of_ok hr']
    exact .some hb

lemma map_unworded_injections (h : p.entries.Perm p'.entries) :
    (Report.ofFindings (Injection.findings p)).findings.map Finding.unworded =
      (Report.ofFindings (Injection.findings p')).findings.map Finding.unworded := by
  have hunworded : ∀ p, ∀ f ∈ (Report.ofFindings (Injection.findings p)).findings,
      f.unworded = Finding.ofCode .injectionSuspected "" := by
    intro p f hf
    obtain ⟨e, -, hf⟩ := List.mem_flatMap.1 (Report.mem_of_mem_ofFindings hf)
    obtain ⟨s, check, -, rfl⟩ := Injection.exists_of_mem_findingsAt hf
    rfl
  exact map_unworded_eq (hunworded p) (hunworded p')
    (Report.length_ofFindings_of_perm (h.flatMap_right _))

lemma map_unworded_reconciled (h : p.entries.Perm p'.entries) (sql : String) (d : Dialect) :
    ((Query.prepared sql p).reconciled d).map Finding.unworded =
      ((Query.prepared sql p').reconciled d).map Finding.unworded := by
  unfold Query.reconciled reconcile
  rw [List.map_append, List.map_append, List.map_append, List.map_append]
  congr 2
  unfold Query.analysis
  rcases resolve_of_perm h with ⟨m, m', hr, hr'⟩ | ⟨b, b', hr, hr', hb⟩
  · rw [Query.supplied_of_error hr, Query.supplied_of_error hr']
    rfl
  · rw [Query.supplied_of_ok hr, Query.supplied_of_ok hr']
    exact Reconciliation.map_unworded_bindings hb

/-- **The order of supply shows in the words of findings only.** -/
theorem map_unworded_findings (h : p.entries.Perm p'.entries) (sql : String) (d : Dialect) :
    (Report.ofFindings ((Query.prepared sql p).findings d)).findings.map Finding.unworded =
      (Report.ofFindings ((Query.prepared sql p').findings d)).findings.map Finding.unworded := by
  have hmalformed : (Query.prepared sql p).malformedFinding?.toList.map Finding.unworded =
      (Query.prepared sql p').malformedFinding?.toList.map Finding.unworded := by
    rcases resolve_of_perm h with ⟨m, m', hr, hr'⟩ | ⟨b, b', hr, hr', -⟩
    · rw [Query.malformedFinding?_of_error hr, Query.malformedFinding?_of_error hr']
      rfl
    · rw [Query.malformedFinding?_prepared.2 ⟨b, hr⟩, Query.malformedFinding?_prepared.2 ⟨b', hr'⟩]
  have hinjections := map_unworded_injections h
  rw [Report.findings_ofFindings, Report.findings_ofFindings] at hinjections
  rw [Query.findings_ofFindings, Query.findings_ofFindings]
  simp only [List.map_append]
  rw [hmalformed, map_unworded_reconciled h]
  exact congrArg _ hinjections

end Params

namespace Config

variable {p p' : Params}

lemma status_unworded (c : Config) (fs : List Finding) :
    c.status (fs.map Finding.unworded) = c.status fs := by
  unfold status
  rw [List.any_map]
  rfl

/-- **The order in which parameters are supplied does not matter** to the status, to the codes of
the findings, which come in the same order, and to the suggestion. -/
theorem validate_of_perm (h : p.entries.Perm p'.entries) (c : Config) (sql : String)
    (context : Option Json) :
    (c.validate (.prepared sql p) context).status =
        (c.validate (.prepared sql p') context).status ∧
      (c.validate (.prepared sql p) context).findings.map (·.code) =
        (c.validate (.prepared sql p') context).findings.map (·.code) ∧
      (c.validate (.prepared sql p) context).suggestion =
        (c.validate (.prepared sql p') context).suggestion := by
  have hfindings := Params.map_unworded_findings h sql c.dialect
  unfold validate
  split
  · refine ⟨?_, ?_, ?_⟩
    · dsimp only
      rw [← status_unworded, hfindings, status_unworded]
    · have hcodes := congrArg (List.map (·.code)) hfindings
      rwa [List.map_map, List.map_map] at hcodes
    · dsimp only
      split
      · have hprimary := congrArg Finding.primary? hfindings
        rw [Finding.map_unworded_primary?, Finding.map_unworded_primary?] at hprimary
        -- a suggestion reads the code and the place of its finding
        have hunworded : ∀ (a : Analysis) (f? : Option Finding),
            (f?.map Finding.unworded).map (Suggestion.ofFinding a) =
              f?.map (Suggestion.ofFinding a) := fun a f? => by
          rw [Option.map_map]
          rfl
        have hanalysis : Suggestion.ofFinding ((Query.prepared sql p).analysis c.dialect) =
            Suggestion.ofFinding ((Query.prepared sql p').analysis c.dialect) :=
          funext (Suggestion.ofFinding_eq (Params.rel_supplied h sql))
        rw [← hunworded, hprimary, hunworded, hanalysis]
      · rfl
  · exact ⟨rfl, rfl, rfl⟩

/-- Two names for a question mark, in either order. -/
theorem validate_of_perm_names :
    let p : Params := .named [("b", .int 1), ("c", .int 2)]
    let p' : Params := .named [("c", .int 2), ("b", .int 1)]
    let report p := (Config.mk true true .standard .lenient).validate
      (.prepared "SELECT a FROM t WHERE b = ?" p) none
    p.entries.Perm p'.entries ∧
      (report p).findings.map (·.message) ≠ (report p').findings.map (·.message) ∧
      (report p).suggestion.isSome ∧
      (report p).status = (report p').status ∧
      (report p).findings.map (·.code) = (report p').findings.map (·.code) ∧
      (report p).suggestion = (report p').suggestion := by
  intro p p' report
  have h : p.entries.Perm p'.entries := .swap _ _ _
  exact ⟨h, by decide +kernel, by decide +kernel, validate_of_perm h _ _ _⟩

end Config

end QueryGuard
