import QueryGuard.Proofs.Sql.Lexing
import QueryGuard.Sql.Head

/-!
Heads and quotes. What a reader of heads finds before a single quote does not depend on what stands
behind the quote: no keyword and no blank has one. So texts that agree up to a quote have the same
leading word, and both or neither have the star of a `SELECT`.
-/

namespace QueryGuard

/-- The texts are one text, or they agree up to a single quote that both have. -/
def AgreeToQuote (as bs : List Char) : Prop :=
  as = bs ∨ ∃ cs x y, as = cs ++ Quote.single.char :: x ∧ bs = cs ++ Quote.single.char :: y

namespace AgreeToQuote

variable {as bs : List Char} {p : Char → Bool}

lemma takeWhile_eq (h : AgreeToQuote as bs) (hp : p Quote.single.char = false) :
    as.takeWhile p = bs.takeWhile p := by
  rcases h with rfl | ⟨cs, x, y, rfl, rfl⟩
  · rfl
  · rw [Text.takeWhile_append_cons hp, Text.takeWhile_append_cons hp]

lemma dropWhile (h : AgreeToQuote as bs) (hp : p Quote.single.char = false) :
    AgreeToQuote (as.dropWhile p) (bs.dropWhile p) := by
  rcases h with rfl | ⟨cs, x, y, rfl, rfl⟩
  · exact .inl rfl
  · refine .inr ⟨cs.dropWhile p, x, y, ?_, ?_⟩
    · exact Text.dropWhile_append_cons hp cs x
    · exact Text.dropWhile_append_cons hp cs y

lemma head?_eq (h : AgreeToQuote as bs) : as.head? = bs.head? := by
  rcases h with rfl | ⟨cs, x, y, rfl, rfl⟩
  · rfl
  · cases cs <;> rfl

lemma skipGap (h : AgreeToQuote as bs) : AgreeToQuote (Head.skipGap as) (Head.skipGap bs) :=
  h.dropWhile (by decide)

end AgreeToQuote

namespace Head

variable {as bs : List Char}

lemma keyword?_append_quote {word : String} (hw : Quote.single.char ∉ Text.lower word.toList)
    {cs x : List Char} (h : cs.length < word.toList.length) :
    keyword? word (cs ++ Quote.single.char :: x) = none := by
  have hq : Quote.single.char ∈ (cs ++ Quote.single.char :: x).take word.toList.length := by
    rw [List.take_append, List.mem_append]
    obtain ⟨n, hn⟩ := Nat.exists_eq_add_of_lt h
    refine .inr ?_
    rw [hn, Nat.add_assoc, Nat.add_sub_cancel_left, List.take_succ_cons]
    exact List.mem_cons_self
  have hb : ¬ Text.beginsWithWord word.toList (cs ++ Quote.single.char :: x) := by
    rw [Text.beginsWithWord, Text.sameWord_iff]
    intro e
    exact hw (e ▸ List.mem_map.2 ⟨_, hq, by decide⟩)
  exact if_neg fun h => hb h.1

/-- The keyword stands before the quote or does not stand there at all. -/
lemma keyword?_agree {word : String} (hw : Quote.single.char ∉ Text.lower word.toList)
    (h : AgreeToQuote as bs) : Option.Rel AgreeToQuote (keyword? word as) (keyword? word bs) := by
  rcases h with rfl | ⟨cs, x, y, rfl, rfl⟩
  · cases keyword? word as with
    | none => exact .none
    | some rest => exact .some (.inl rfl)
  · by_cases hn : word.toList.length ≤ cs.length
    · have hrest : AgreeToQuote (cs.drop word.toList.length ++ Quote.single.char :: x)
          (cs.drop word.toList.length ++ Quote.single.char :: y) := .inr ⟨_, x, y, rfl, rfl⟩
      simp only [keyword?, Text.beginsWithWord, List.take_append_of_le_length hn,
        List.drop_append_of_le_length hn, hrest.head?_eq]
      split
      · exact .some hrest
      · exact .none
    · have hn := Nat.lt_of_not_le hn
      rw [keyword?_append_quote hw hn, keyword?_append_quote hw hn]
      exact .none

lemma anyKeyword?_agree {words : List String}
    (hw : ∀ w ∈ words, Quote.single.char ∉ Text.lower w.toList) (h : AgreeToQuote as bs) :
    Option.Rel AgreeToQuote (anyKeyword? words as) (anyKeyword? words bs) := by
  induction words with
  | nil => exact .none
  | cons w ws ih =>
    have ih := ih fun v hv => hw v (List.mem_cons_of_mem _ hv)
    have hk := keyword?_agree (hw w List.mem_cons_self) h
    simp only [anyKeyword?, List.findSome?_cons] at ih ⊢
    revert hk
    generalize keyword? w as = a
    generalize keyword? w bs = b
    rintro (⟨hr⟩ | -)
    · exact .some hr
    · exact ih

lemma leadingWord?_agree (h : AgreeToQuote as bs) : leadingWord? as = leadingWord? bs := by
  rw [leadingWord?, h.skipGap.takeWhile_eq (by decide), leadingWord?]

lemma skipKeyword_agree {words : List String}
    (hw : ∀ w ∈ words, Quote.single.char ∉ Text.lower w.toList) (h : AgreeToQuote as bs) :
    AgreeToQuote (((anyKeyword? words as).map skipGap).getD as)
      (((anyKeyword? words bs).map skipGap).getD bs) := by
  have hk := anyKeyword?_agree hw h
  revert hk
  generalize anyKeyword? words as = a
  generalize anyKeyword? words bs = b
  rintro (⟨hr⟩ | -)
  · exact hr.skipGap
  · exact h

/-- The star of a `SELECT` stands before the quote or does not stand there at all. -/
lemma isSome_star?_agree (h : AgreeToQuote as bs) : (star? as).isSome = (star? bs).isSome := by
  have hk : Option.Rel AgreeToQuote (keyword? "select" (skipGap as))
      (keyword? "select" (skipGap bs)) := keyword?_agree (by decide) h.skipGap
  unfold star?
  revert hk
  generalize keyword? "select" (skipGap as) = a
  generalize keyword? "select" (skipGap bs) = b
  rintro (⟨hr⟩ | -)
  · have hw : ∀ w ∈ ["distinct", "all"], Quote.single.char ∉ Text.lower w.toList := by decide
    have hs := skipKeyword_agree hw hr.skipGap
    unfold guard
    simp only [Option.bind_eq_bind, Option.bind_some, hs.head?_eq]
    split <;> rfl
  · rfl

end Head

end QueryGuard
