import QueryGuard.Proofs.Injection.Pieces

/-!
The search for conditions, step by step. It goes through a text from left to right, and behind a
condition it goes on where that ends. So a condition that begins in front of a text may take a
beginning of it along. Main statement: text in front of a tautology hides it exactly where such a
condition leaves no tautology behind and no condition that was found holds.
-/

namespace QueryGuard.Injection

variable {cs mid front text rest : List Char} {found before : List Condition} {x : Condition}
  {c : Char}

/-! ### A step of the search -/

/-- The condition behind the quote that the text begins with, and what follows the condition. -/
def conditionAt? : List Char → Option (Condition × List Char)
  | [] => none
  | c :: cs => if isQuote c then alternative cs else none

lemma conditions_of_none (h : conditionAt? (c :: cs) = none) :
    conditions (c :: cs) = conditions cs := by
  rw [conditionAt?] at h
  rw [conditions]
  split
  · next hq =>
    rw [if_pos hq] at h
    split
    · next e =>
      rw [h] at e
      cases e
    · rfl
  · rfl

lemma conditions_of_some (h : conditionAt? cs = some (x, rest)) :
    conditions cs = x :: conditions rest := by
  cases cs with
  | nil => cases h
  | cons c cs =>
    rw [conditionAt?] at h
    rw [conditions]
    split
    · next hq =>
      rw [if_pos hq] at h
      split
      · next e =>
        rw [h] at e
        cases e
        rfl
      · next e =>
        rw [h] at e
        cases e
    · next hq =>
      rw [if_neg hq] at h
      cases h

/-- A condition takes at least its quote. -/
lemma suffix_of_conditionAt? (h : conditionAt? (c :: cs) = some (x, rest)) : rest <:+ cs := by
  rw [conditionAt?] at h
  split at h
  · exact TakesFront.alternative _ _ _ h
  · cases h

/-! ### A run of the search -/

/-- The search through the text finds the conditions and goes on with the rest. -/
inductive Passes : List Char → List Condition → List Char → Prop where
  | refl (cs : List Char) : Passes cs [] cs
  | skip {c : Char} {cs : List Char} {found : List Condition} {rest : List Char} :
      conditionAt? (c :: cs) = none → Passes cs found rest → Passes (c :: cs) found rest
  | find {cs mid : List Char} {x : Condition} {found : List Condition} {rest : List Char} :
      conditionAt? cs = some (x, mid) → Passes mid found rest → Passes cs (x :: found) rest

/-- **What a run finds** comes first, and then what is found in the rest. -/
theorem Passes.conditions_eq (h : Passes cs found rest) :
    conditions cs = found ++ conditions rest := by
  induction h with
  | refl => rfl
  | skip hnone _ ih => rw [conditions_of_none hnone, ih]
  | find hsome _ ih => rw [conditions_of_some hsome, ih, List.cons_append]

lemma Passes.isTautology_iff (h : Passes cs found rest) :
    isTautology cs ↔ (∃ x ∈ found, x.holds) ∨ isTautology rest := by
  rw [isTautology, h.conditions_eq, List.any_append, Bool.or_eq_true, List.any_eq_true]
  rfl

/-- Where there is no quote nothing is found. -/
lemma Passes.of_no_quote (h : ∀ c ∈ front, isQuote c = false) (text : List Char) :
    Passes (front ++ text) [] text := by
  induction front with
  | nil => exact .refl text
  | cons c front ih =>
    have hc := h c List.mem_cons_self
    refine .skip ?_ (ih fun x hx => h x (List.mem_cons_of_mem c hx))
    rw [conditionAt?, hc]
    rfl

/-! ### A text in front of another -/

/-- A condition that begins in the text in front takes a beginning of the text behind it along and
leaves the rest. It is the last of the conditions that are found up to there. -/
structure Overruns (front text : List Char) (found : List Condition) (rest : List Char) : Prop where
  takes : ∃ taken, taken ≠ [] ∧ text = taken ++ rest
  reads : ∃ opening before x, opening ≠ [] ∧ found = before ++ [x] ∧
    Passes (front ++ text) before (opening ++ text) ∧
      conditionAt? (opening ++ text) = some (x, rest)

lemma Passes.append {later : List Condition} (h : Passes cs found mid)
    (h' : Passes mid later rest) : Passes cs (found ++ later) rest := by
  induction h with
  | refl => exact h'
  | skip hnone _ ih => exact .skip hnone (ih h')
  | find hsome _ ih => exact .find hsome (ih h')

lemma Overruns.passes (h : Overruns front text found rest) : Passes (front ++ text) found rest := by
  obtain ⟨opening, before, x, -, rfl, hp, hx⟩ := h.reads
  exact hp.append (.find hx (.refl rest))

/-- What is found first is found before the condition that reaches over. -/
lemma Overruns.of_passes (hp : Passes (front ++ text) before (mid ++ text))
    (h : Overruns mid text found rest) : Overruns front text (before ++ found) rest := by
  obtain ⟨opening, before', x, hne, rfl, hp', hx⟩ := h.reads
  exact ⟨h.takes, opening, before ++ before', x, hne, (List.append_assoc ..).symm, hp.append hp',
    hx⟩

/-- **The search arrives at the text behind, or a condition reaches over into it.** -/
theorem exists_passes_or_overruns (front text : List Char) :
    (∃ found, Passes (front ++ text) found text) ∨
      ∃ found rest, Overruns front text found rest := by
  induction hn : front.length using Nat.strong_induction_on generalizing front with
  | _ n ih =>
    subst hn
    cases front with
    | nil => exact .inl ⟨[], .refl text⟩
    | cons c front =>
      -- a step that ends in front of `text` is followed by what is found from there
      have hstep : ∀ (later : List Char) (before : List Condition),
          later.length < front.length + 1 →
          Passes (c :: front ++ text) before (later ++ text) →
          (∃ found, Passes (c :: front ++ text) found text) ∨
            ∃ found rest, Overruns (c :: front) text found rest := by
        intro later before hlt hp
        rcases ih _ hlt later rfl with ⟨found, h⟩ | ⟨found, rest, h⟩
        · exact .inl ⟨before ++ found, hp.append h⟩
        · exact .inr ⟨before ++ found, rest, h.of_passes hp⟩
      cases hc : conditionAt? (c :: (front ++ text)) with
      | none =>
        exact hstep front [] (Nat.lt_succ_self _) (.skip hc (.refl _))
      | some r =>
        obtain ⟨x, rest⟩ := r
        obtain ⟨taken, htaken⟩ := suffix_of_conditionAt? hc
        rcases List.append_eq_append_iff.1 htaken with ⟨later, hfront, rfl⟩ | ⟨taken', -, htext⟩
        · refine hstep later [x] ?_ (.find hc (.refl _))
          rw [hfront, List.length_append]
          omega
        · cases taken' with
          | nil =>
            obtain rfl : text = rest := htext
            exact hstep [] [x] (by simp) (.find hc (.refl _))
          | cons e taken' =>
            refine .inr ⟨[x], rest, ⟨e :: taken', List.cons_ne_nil _ _, htext⟩,
              c :: front, [], x, List.cons_ne_nil _ _, rfl, .refl _, hc⟩

/-- **Text in front of a tautology hides it** exactly where a condition that begins in it reaches
over into the tautology, none of the conditions found holds and what is left is no tautology. -/
theorem applies_tautology_append_iff {p t : String} (ht : Check.tautology.applies t) :
    Check.tautology.applies (p ++ t) ↔ ∀ found rest, Overruns p.toList t.toList found rest →
      (∃ x ∈ found, x.holds) ∨ isTautology rest := by
  have happ : Check.tautology.applies (p ++ t) = isTautology (p.toList ++ t.toList) := by
    rw [← String.toList_append]
    rfl
  rw [happ]
  constructor
  · intro h found rest ho
    exact ho.passes.isTautology_iff.1 h
  · intro h
    rcases exists_passes_or_overruns p.toList t.toList with ⟨found, hp⟩ | ⟨found, rest, ho⟩
    · exact hp.isTautology_iff.2 (.inr ht)
    · exact ho.passes.isTautology_iff.2 (h found rest ho)

/-- The closing quote of a comparison that does not hold opens one that does. -/
theorem not_applies_tautology_append : Check.tautology.applies "' OR '1'='1" ∧
    ¬ Check.tautology.applies ("' OR 'a'='b" ++ "' OR '1'='1") := by
  decide +kernel

/-- A condition reaches over, does not hold and leaves no tautology. -/
theorem applies_tautology_append_iff_closing : Check.tautology.applies "' OR '1'='1" ∧
    ¬ ∀ found rest, Overruns "' OR 'a'='b".toList "' OR '1'='1".toList found rest →
      (∃ x ∈ found, x.holds) ∨ isTautology rest := by
  have ht : Check.tautology.applies "' OR '1'='1" := by decide +kernel
  refine ⟨ht, fun h => ?_⟩
  have happ := (applies_tautology_append_iff ht).2 h
  have hnot : Check.tautology.applies ("' OR 'a'='b" ++ "' OR '1'='1") = false := by decide +kernel
  rw [hnot] at happ
  cases happ

end QueryGuard.Injection
