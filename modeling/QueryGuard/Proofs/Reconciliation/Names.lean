import Mathlib.Data.List.Induction
import Mathlib.Data.List.Nodup
import QueryGuard.Proofs.Binding.Resolution
import QueryGuard.Proofs.Guard.Acceptance

/-!
Names of placeholders against names of values. Main statement: the names that are found missing and
those that are found unexpected are the two differences of what the placeholders ask for and what is
bound, each name once, in the order of the text and in the order of supply.
-/

namespace QueryGuard

/-! ### First occurrences -/

/-- `ys` has those elements of `xs` that `p` holds of, each once, in the order in which they first
occur in `xs`. -/
structure Picks (xs : List String) (p : String → Prop) (ys : List String) : Prop where
  mem_iff : ∀ n, n ∈ ys ↔ n ∈ xs ∧ p n
  ordered : ys.Pairwise fun m n => xs.idxOf m < xs.idxOf n

namespace Picks

variable {xs ys : List String} {p q : String → Prop}

lemma eq_nil_iff (h : Picks xs p ys) : ys = [] ↔ ∀ n ∈ xs, ¬ p n := by
  rw [List.eq_nil_iff_forall_not_mem]
  exact forall_congr' fun n => by rw [h.mem_iff, not_and]

lemma congr (h : Picks xs p ys) (hpq : ∀ n ∈ xs, p n ↔ q n) : Picks xs q ys where
  mem_iff n := by rw [h.mem_iff, and_congr_right (hpq n)]
  ordered := h.ordered

lemma filter (h : Picks xs p ys) (q : String → Bool) :
    Picks xs (fun n => p n ∧ q n) (ys.filter q) where
  mem_iff n := by rw [List.mem_filter, h.mem_iff, and_assoc]
  ordered := h.ordered.filter q

/-- Distinct elements are each their own first occurrence. -/
lemma of_nodup (h : xs.Nodup) : Picks xs (fun _ => True) xs where
  mem_iff n := by rw [and_true]
  ordered := by
    rw [List.pairwise_iff_getElem]
    intro i j hi hj hij
    rwa [h.idxOf_getElem, h.idxOf_getElem]

end Picks

namespace Reconciliation

variable {ps : List Placeholder} {b : Bindings}

lemma distinct_append_singleton (xs : List String) (x : String) :
    distinct (xs ++ [x]) = if x ∈ xs then distinct xs else distinct xs ++ [x] := by
  have hcontains : (distinct xs).contains x ↔ x ∈ xs := by
    rw [List.contains_iff_mem, mem_distinct_iff]
  have hstep : distinct (xs ++ [x]) =
      if (distinct xs).contains x then distinct xs else distinct xs ++ [x] := by
    rw [distinct, List.foldl_append]
    rfl
  simp only [hstep, hcontains]

/-- **First occurrences** are kept in their order. -/
theorem picks_distinct (xs : List String) : Picks xs (fun _ => True) (distinct xs) := by
  refine ⟨fun n => by rw [mem_distinct_iff, and_true], ?_⟩
  induction xs using List.reverseRecOn with
  | nil => exact List.Pairwise.nil
  | append_singleton xs x ih =>
    -- an element that is there already keeps its place
    have hold : ∀ n ∈ distinct xs, (xs ++ [x]).idxOf n = xs.idxOf n := fun n hn =>
      List.idxOf_append_of_mem (mem_distinct_iff.1 hn)
    have hkept : (distinct xs).Pairwise fun m n => (xs ++ [x]).idxOf m < (xs ++ [x]).idxOf n :=
      ih.imp_of_mem fun {m n} hm hn hlt => by rwa [hold m hm, hold n hn]
    rw [distinct_append_singleton]
    split
    · exact hkept
    · next hx =>
      refine List.pairwise_append.2 ⟨hkept, List.pairwise_singleton _ _, fun m hm n hn => ?_⟩
      rw [List.mem_singleton.1 hn, hold m hm, List.idxOf_append_of_notMem hx]
      have := List.idxOf_lt_length_of_mem (mem_distinct_iff.1 hm)
      omega

/-! ### What is bound -/

/-- The name has no value. -/
lemma getNamed?_eq_none_iff {n : String} : b.getNamed? n = none ↔ n ∉ b.names := by
  cases b with
  | positional values => exact iff_of_true rfl List.not_mem_nil
  | named pairs =>
    show (pairs.find? (·.1 == n)).map (·.2) = none ↔ n ∉ pairs.map (·.1)
    rw [Option.map_eq_none_iff, List.find?_eq_none, List.mem_map, not_exists]
    exact forall_congr' fun e => by rw [beq_iff_eq, not_and]

/-- Parameters bind no name twice. -/
lemma nodup_names {params : Params} (h : params.resolve = .ok b) : b.names.Nodup := by
  rcases Params.ok_cases h with ⟨-, -, hnodup, rfl⟩ | ⟨-, -, rfl⟩
  · exact hnodup
  · exact List.nodup_nil

lemma picks_missingNames (ps : List Placeholder) (b : Bindings) :
    Picks (ps.filterMap Placeholder.name?) (fun n => b.getNamed? n = none) (missingNames ps b) := by
  refine ((picks_distinct _).filter _).congr fun n _ => ?_
  rw [true_and, getNamed?_eq_none_iff]
  simp

lemma picks_unexpectedNames (h : b.names.Nodup) (ps : List Placeholder) :
    Picks b.names (fun n => ∀ p ∈ ps, p.style ≠ .named n) (unexpectedNames ps b) := by
  refine ((Picks.of_nodup h).filter _).congr fun n _ => ?_
  have hmem : n ∈ ps.filterMap Placeholder.name? ↔ ∃ p ∈ ps, p.style = .named n :=
    Placeholder.mem_filterMap_name?_iff
  rw [true_and, Bool.not_eq_true', ← Bool.not_eq_true, List.contains_iff_mem, hmem]
  simp

/-! ### The findings -/

/-- The finding on names of placeholders that are not bound. -/
def namesMissing (ns : List String) (b : Bindings) : Finding :=
  .ofCode .paramNameMismatch ("Missing named parameters: " ++ nameList ns ++ positionHint b)

/-- The finding on bound names that no placeholder has. -/
def namesUnexpected (ns : List String) : Finding :=
  .ofCode .paramNameMismatch ("Unexpected named parameters: " ++ nameList ns)

lemma names_eq_append (ps : List Placeholder) (b : Bindings) : names ps b =
    (if missingNames ps b = [] then [] else [namesMissing (missingNames ps b) b]) ++
      if unexpectedNames ps b = [] then [] else [namesUnexpected (unexpectedNames ps b)] := by
  unfold names
  cases missingNames ps b <;> cases unexpectedNames ps b <;> rfl

/-- **The findings on names are the two differences**: one finding on the names of placeholders that
have no value, if there are any, and then one on the bound names that no placeholder has, if there
are any. Values that are bound by position have no names. -/
theorem names_eq_differences (ps : List Placeholder) {params : Params}
    (h : params.resolve = .ok b) : ∃ missing unexpected,
      Picks (ps.filterMap Placeholder.name?) (fun n => b.getNamed? n = none) missing ∧
      Picks b.names (fun n => ∀ p ∈ ps, p.style ≠ .named n) unexpected ∧
      (missing ≠ [] ↔ ∃ p ∈ ps, ∃ n, p.style = .named n ∧ b.getNamed? n = none) ∧
      (unexpected ≠ [] ↔ ∃ n ∈ b.names, ∀ p ∈ ps, p.style ≠ .named n) ∧
      (∀ values, b = .positional values →
        unexpected = [] ∧ ∀ n, n ∈ missing ↔ ∃ p ∈ ps, p.style = .named n) ∧
      names ps b = (if missing = [] then [] else [namesMissing missing b]) ++
        if unexpected = [] then [] else [namesUnexpected unexpected] := by
  have hm := picks_missingNames ps b
  have hu := picks_unexpectedNames (nodup_names h) ps
  refine ⟨missingNames ps b, unexpectedNames ps b, hm, hu, ?_, ?_, ?_, names_eq_append ps b⟩
  · rw [ne_eq, hm.eq_nil_iff]
    simp only [Placeholder.mem_filterMap_name?_iff]
    constructor
    · intro hall
      by_contra! hno
      exact hall fun n ⟨p, hp, hs⟩ => hno p hp n hs
    · rintro ⟨p, hp, n, hs, hn⟩ hall
      exact hall n ⟨p, hp, hs⟩ hn
  · rw [ne_eq, hu.eq_nil_iff]
    push Not
    rfl
  · rintro values rfl
    refine ⟨rfl, fun n => ?_⟩
    rw [hm.mem_iff, Placeholder.mem_filterMap_name?_iff]
    exact and_iff_left rfl

/-- Names that stand in the text and in the parameters in different orders, two of them twice. -/
theorem names_differences_repeated :
    let ps := (SqlText.ofString .standard "SELECT :d, :a, :b, :d, :a").placeholders
    let params := Params.named [("z", .null), (":b", .int 1), ("::y", .int 2)]
    let b := Bindings.named [("z", .null), ("b", .int 1), ("y", .int 2)]
    params.resolve = .ok b ∧
      names ps b = [namesMissing ["d", "a"] b, namesUnexpected ["z", "y"]] ∧
      ∃ missing unexpected,
        Picks (ps.filterMap Placeholder.name?) (fun n => b.getNamed? n = none) missing ∧
        Picks b.names (fun n => ∀ p ∈ ps, p.style ≠ .named n) unexpected ∧
        (missing ≠ [] ↔ ∃ p ∈ ps, ∃ n, p.style = .named n ∧ b.getNamed? n = none) ∧
        (unexpected ≠ [] ↔ ∃ n ∈ b.names, ∀ p ∈ ps, p.style ≠ .named n) ∧
        (∀ values, b = .positional values →
          unexpected = [] ∧ ∀ n, n ∈ missing ↔ ∃ p ∈ ps, p.style = .named n) ∧
        names ps b = (if missing = [] then [] else [namesMissing missing b]) ++
          if unexpected = [] then [] else [namesUnexpected unexpected] := by
  intro ps params b
  have h : params.resolve = .ok b := by decide +kernel
  exact ⟨h, by decide +kernel, names_eq_differences ps h⟩

end Reconciliation

end QueryGuard
