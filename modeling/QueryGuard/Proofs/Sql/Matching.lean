import QueryGuard.Proofs.Sql.Anchor
import QueryGuard.Review

/-!
Where the parts of parenthesised lists stand. A list reaches from a parenthesis to a later one, and
the tokens of an item without inner parentheses stand side by side between marks. Both are kept by
every step of the matching.
-/

namespace QueryGuard

namespace ParenList

variable {ts us : List Token}

/-- The tokens of the item stand side by side, with a mark in front of them and one behind. -/
def Stands (ts : List Token) (i : ListItem) : Prop :=
  ∃ pre o post c, ts = pre ++ o :: (i.tokens ++ c :: post) ∧
    (o.kind = .openParen ∨ o.kind = .comma) ∧ (c.kind = .comma ∨ c.kind = .closeParen)

/-- The list reaches from its opening to its closing parenthesis. -/
def Spans (ts : List Token) (l : ParenList) : Prop :=
  ∃ pre mid post, ts = pre ++ l.opening :: (mid ++ l.closing :: post) ∧
    l.opening.kind = .openParen ∧ l.closing.kind = .closeParen

lemma Stands.append {i : ListItem} (h : Stands ts i) (us : List Token) : Stands (ts ++ us) i := by
  obtain ⟨pre, o, post, c, rfl, ho, hc⟩ := h
  exact ⟨pre, o, post ++ us, c, by simp, ho, hc⟩

lemma Spans.append {l : ParenList} (h : Spans ts l) (us : List Token) : Spans (ts ++ us) l := by
  obtain ⟨pre, mid, post, rfl, ho, hc⟩ := h
  exact ⟨pre, mid, post ++ us, by simp, ho, hc⟩

/-! ### What the matching keeps -/

/-- What is known of a matching once the tokens are read. -/
structure Matching.Follows (ts : List Token) (m : Matching) : Prop where
  /-- The item at hand of the innermost list is what was read last. -/
  atHand : ∀ u ∈ m.unclosed.head?, u.nested = false →
    ∃ pre o, ts = pre ++ o :: u.tokens.reverse ∧ (o.kind = .openParen ∨ o.kind = .comma)
  /-- A list stands in the item at hand of every other. -/
  outer : ∀ u ∈ m.unclosed.tail, u.nested = true
  opening : ∀ u ∈ m.unclosed, ∃ pre mid, ts = pre ++ u.opening :: mid ∧ u.opening.kind = .openParen
  items : ∀ u ∈ m.unclosed, ∀ i ∈ u.items, i.nested = false → Stands ts i
  closed : ∀ l ∈ m.closed, Spans ts l ∧ ∀ i ∈ l.items, i.nested = false → Stands ts i

namespace Matching.Follows

variable {m : Matching} {u : Unclosed} {us : List Unclosed} {ls : List ParenList}

lemma empty : Matching.empty.Follows [] := ⟨nofun, nofun, nofun, nofun, nofun⟩

lemma opening_append (h : m.Follows ts) (t : Token) : ∀ u ∈ m.unclosed, ∃ pre mid,
    ts ++ [t] = pre ++ u.opening :: mid ∧ u.opening.kind = .openParen := by
  intro u hu
  obtain ⟨pre, mid, e, ho⟩ := h.opening u hu
  exact ⟨pre, mid ++ [t], by rw [e]; simp, ho⟩

lemma items_append (h : m.Follows ts) (t : Token) : ∀ u ∈ m.unclosed, ∀ i ∈ u.items,
    i.nested = false → Stands (ts ++ [t]) i :=
  fun u hu i hi hn => (h.items u hu i hi hn).append [t]

lemma closed_append (h : m.Follows ts) (t : Token) : ∀ l ∈ m.closed,
    Spans (ts ++ [t]) l ∧ ∀ i ∈ l.items, i.nested = false → Stands (ts ++ [t]) i :=
  fun l hl => ⟨(h.closed l hl).1.append [t], fun i hi hn => ((h.closed l hl).2 i hi hn).append [t]⟩

/-- The item at hand stands in front of the mark that ends it. -/
lemma stands_item (h : Matching.Follows ts ⟨u :: us, ls⟩) {t : Token}
    (ht : t.kind = .comma ∨ t.kind = .closeParen) {i : ListItem} (hi : i ∈ u.item :: u.items)
    (hn : i.nested = false) : Stands (ts ++ [t]) i := by
  rcases List.mem_cons.1 hi with rfl | hi
  · obtain ⟨pre, o, e, ho⟩ := h.atHand u rfl hn
    exact ⟨pre, o, [], t, by rw [e]; simp [Unclosed.item], ho, ht⟩
  · exact h.items_append t u List.mem_cons_self i hi hn

lemma openParen (h : m.Follows ts) {t : Token} (ht : t.kind = .openParen) :
    (m.step t).Follows (ts ++ [t]) := by
  have hclosed := h.closed_append t
  have hopening := h.opening_append t
  have hitems := h.items_append t
  unfold Matching.step
  rw [ht]
  obtain ⟨_ | ⟨u, us⟩, ls⟩ := m
  -- a list is opened where none is open, and then inside another
  · refine ⟨fun u hu _ => ?_, nofun, fun u hu => ?_, fun u hu i hi => ?_, hclosed⟩
    · obtain rfl := Option.some.inj hu
      exact ⟨ts, t, rfl, .inl ht⟩
    · obtain rfl := List.mem_singleton.1 hu
      exact ⟨ts, [], rfl, ht⟩
    · obtain rfl := List.mem_singleton.1 hu
      exact absurd hi List.not_mem_nil
  · refine ⟨fun v hv _ => ?_, fun v hv => ?_, fun v hv => ?_, fun v hv i hi hn => ?_, hclosed⟩
    · obtain rfl := Option.some.inj hv
      exact ⟨ts, t, rfl, .inl ht⟩
    · rcases List.mem_cons.1 hv with rfl | hv
      · rfl
      · exact h.outer v hv
    · rcases List.mem_cons.1 hv with rfl | hv
      · exact ⟨ts, [], rfl, ht⟩
      · rcases List.mem_cons.1 hv with rfl | hv
        · exact hopening u List.mem_cons_self
        · exact hopening v (List.mem_cons_of_mem _ hv)
    · rcases List.mem_cons.1 hv with rfl | hv
      · exact absurd hi List.not_mem_nil
      · rcases List.mem_cons.1 hv with rfl | hv
        · exact hitems u List.mem_cons_self i hi hn
        · exact hitems v (List.mem_cons_of_mem _ hv) i hi hn

lemma closeParen (h : m.Follows ts) {t : Token} (ht : t.kind = .closeParen) :
    (m.step t).Follows (ts ++ [t]) := by
  have hclosed := h.closed_append t
  have hopening := h.opening_append t
  have hitems := h.items_append t
  unfold Matching.step
  rw [ht]
  obtain ⟨_ | ⟨u, us⟩, ls⟩ := m
  · exact ⟨nofun, nofun, nofun, nofun, hclosed⟩
  · refine ⟨fun v hv hn => ?_, fun v hv => h.outer v (List.mem_of_mem_tail hv),
      fun v hv => hopening v (List.mem_cons_of_mem _ hv),
      fun v hv => hitems v (List.mem_cons_of_mem _ hv), fun l hl => ?_⟩
    · -- the next list has this one in its item at hand
      rw [h.outer v (List.mem_of_mem_head? hv)] at hn
      cases hn
    · rcases List.mem_cons.1 hl with rfl | hl
      · obtain ⟨pre, mid, e, ho⟩ := h.opening u List.mem_cons_self
        refine ⟨⟨pre, mid, [], by rw [e]; simp [Unclosed.close], ho, ht⟩, fun i hi hn => ?_⟩
        refine h.stands_item (.inr ht) (i := i) ?_ hn
        simp only [Unclosed.close, List.mem_reverse] at hi
        split at hi
        · exact absurd hi List.not_mem_nil
        · exact hi
      · exact hclosed l hl

lemma comma (h : m.Follows ts) {t : Token} (ht : t.kind = .comma) :
    (m.step t).Follows (ts ++ [t]) := by
  have hclosed := h.closed_append t
  have hopening := h.opening_append t
  have hitems := h.items_append t
  unfold Matching.step
  rw [ht]
  obtain ⟨_ | ⟨u, us⟩, ls⟩ := m
  · exact ⟨nofun, nofun, nofun, nofun, hclosed⟩
  · refine ⟨fun v hv _ => ?_, h.outer, fun v hv => ?_, fun v hv i hi hn => ?_, hclosed⟩
    · obtain rfl := Option.some.inj hv
      exact ⟨ts, t, rfl, .inr ht⟩
    · rcases List.mem_cons.1 hv with rfl | hv
      · exact hopening u List.mem_cons_self
      · exact hopening v (List.mem_cons_of_mem _ hv)
    · rcases List.mem_cons.1 hv with rfl | hv
      · exact h.stands_item (.inl ht) hi hn
      · exact hitems v (List.mem_cons_of_mem _ hv) i hi hn

lemma push (h : m.Follows ts) (t : Token) : (m.inner (Unclosed.push · t)).Follows (ts ++ [t]) := by
  have hclosed := h.closed_append t
  have hopening := h.opening_append t
  have hitems := h.items_append t
  obtain ⟨_ | ⟨u, us⟩, ls⟩ := m
  · exact ⟨nofun, nofun, nofun, nofun, hclosed⟩
  · refine ⟨fun v hv hn => ?_, h.outer, fun v hv => ?_, fun v hv i hi hn => ?_, hclosed⟩
    · obtain rfl := Option.some.inj hv
      obtain ⟨pre, o, e, ho⟩ := h.atHand u rfl hn
      exact ⟨pre, o, by rw [e]; simp [Unclosed.push], ho⟩
    · rcases List.mem_cons.1 hv with rfl | hv
      · exact hopening u List.mem_cons_self
      · exact hopening v (List.mem_cons_of_mem _ hv)
    · rcases List.mem_cons.1 hv with rfl | hv
      · exact hitems u List.mem_cons_self i hi hn
      · exact hitems v (List.mem_cons_of_mem _ hv) i hi hn

/-- A step keeps what is known. -/
theorem step (h : m.Follows ts) (t : Token) : (m.step t).Follows (ts ++ [t]) := by
  by_cases ho : t.kind = .openParen
  · exact h.openParen ho
  · by_cases hc : t.kind = .closeParen
    · exact h.closeParen hc
    · by_cases hs : t.kind = .comma
      · exact h.comma hs
      · have e : m.step t = m.inner (Unclosed.push · t) := by
          unfold Matching.step
          split
          · contradiction
          · contradiction
          · contradiction
          · rfl
        rw [e]
        exact h.push t

theorem foldl (h : m.Follows ts) (us : List Token) :
    (us.foldl Matching.step m).Follows (ts ++ us) := by
  induction us generalizing ts m with
  | nil => rwa [List.append_nil]
  | cons t us ih =>
    rw [List.append_cons]
    exact ih (h.step t)

end Matching.Follows

/-- **A list reaches from its opening to its closing parenthesis**, and the tokens of its items
stand side by side where there are no inner parentheses. -/
theorem spans_of_mem_ofTokens {l : ParenList} (h : l ∈ ofTokens ts) :
    Spans ts l ∧ ∀ i ∈ l.items, i.nested = false → Stands ts i := by
  have hf := Matching.Follows.empty.foldl ts
  rw [List.nil_append] at hf
  exact hf.closed l (List.mem_reverse.1 h)

end ParenList

/-! ### The lists of a statement -/

/-- A row is a list, and it begins with a token. -/
lemma Statement.exists_list_of_mem_rowsFrom {lists : List ParenList} {ts : List DeepToken}
    {r : ValueRow} (h : r ∈ rowsFrom lists ts) :
    ∃ l ∈ lists, r.span = l.span ∧ ∃ u ∈ ts, l.opening.start = u.token.start := by
  fun_induction rowsFrom lists ts with
  | case1 => exact absurd h List.not_mem_nil
  | case2 => exact absurd h List.not_mem_nil
  | case3 t ts hk l hl ih =>
    rcases List.mem_cons.1 h with rfl | h
    · have hstart := List.find?_some hl
      rw [beq_iff_eq] at hstart
      exact ⟨l, List.mem_of_find?_eq_some hl, rfl, t, List.mem_cons_self, hstart⟩
    · obtain ⟨k, hk, e, u, hu, hstart⟩ := ih h
      have hu := (List.dropWhile_sublist _).subset hu
      exact ⟨k, hk, e, u, List.mem_cons_of_mem t hu, hstart⟩
  | case4 t ts hk ih =>
    obtain ⟨k, hk, e, u, hu, hstart⟩ := ih h
    exact ⟨k, hk, e, u, List.mem_cons_of_mem t hu, hstart⟩
  | case5 => exact absurd h List.not_mem_nil

/-- An item that is a literal is a string or a number, and may have a sign in front. -/
lemma ListItem.entry_eq_literal {i : ListItem} (h : i.entry = .literal) : i.nested = false ∧
    ∃ v, (v.kind = .string ∨ v.kind = .number) ∧
      (i.tokens = [v] ∨ ∃ s, s.kind = .symbol ∧ i.tokens = [s, v]) := by
  unfold entry at h
  split at h
  · cases h
  · next hn =>
    refine ⟨by simpa using hn, ?_⟩
    split at h
    · next v he =>
      split at h
      · cases h
      · split at h
        · next hv => exact ⟨v, hv, .inl he⟩
        · cases h
    · next s v he =>
      split at h
      · next hs =>
        have hk := hs.1
        rw [isSign, Bool.and_eq_true, beq_iff_eq] at hk
        exact ⟨v, .inr hs.2, .inr ⟨s, hk.1, he⟩⟩
      · cases h
    · cases h

/-- A literal that shares a list with placeholders is an item of the list. -/
lemma ParenList.exists_item_of_mem_hardcoded {ts : List Token} {l : ParenList}
    (h : l ∈ ofTokens ts) {span : Span} (hs : span ∈ l.hardcoded) :
    ∃ i : ListItem, Stands ts i ∧ i.span? = some span ∧
      ∃ v, (v.kind = .string ∨ v.kind = .number) ∧
        (i.tokens = [v] ∨ ∃ s, s.kind = .symbol ∧ i.tokens = [s, v]) := by
  unfold hardcoded at hs
  split at hs
  · obtain ⟨i, hi, he⟩ := List.mem_filterMap.1 hs
    split at he
    · next hk =>
      obtain ⟨hn, hv⟩ := ListItem.entry_eq_literal hk
      exact ⟨i, (spans_of_mem_ofTokens h).2 i hi hn, he, hv⟩
    · cases he
  · exact absurd hs List.not_mem_nil

namespace SqlText

variable {t : SqlText}

/-- A list of the first statement is found in the text. -/
lemma spans_of_mem_parenLists {l : ParenList} (h : l ∈ t.parenLists) : l.Spans t.tokens := by
  obtain ⟨us, hus, -⟩ := t.tokens_eq_append
  rw [hus]
  exact (ParenList.spans_of_mem_ofTokens h).1.append us

lemma exists_list_of_mem_valueRows {r : ValueRow} (h : r ∈ t.statement.valueRows) :
    ∃ l ∈ t.parenLists, r.span = l.span := by
  rw [valueRows_statement] at h
  split at h
  · obtain ⟨l, hl, e, -⟩ := Statement.exists_list_of_mem_rowsFrom h
    exact ⟨l, hl, e⟩
  · exact absurd h List.not_mem_nil

lemma spans_of_mem_valueRows {r : ValueRow} (h : r ∈ t.statement.valueRows) :
    ∃ l : ParenList, l.Spans t.tokens ∧ r.span = l.span := by
  obtain ⟨l, hl, e⟩ := exists_list_of_mem_valueRows h
  exact ⟨l, spans_of_mem_parenLists hl, e⟩

/-- A literal that shares a list with placeholders stands between marks. -/
lemma stands_of_mem_hardcoded {l : ParenList} (h : l ∈ t.parenLists) {span : Span}
    (hs : span ∈ l.hardcoded) :
    ∃ i : ListItem, ParenList.Stands t.tokens i ∧ i.span? = some span ∧
      ∃ v, (v.kind = .string ∨ v.kind = .number) ∧
        (i.tokens = [v] ∨ ∃ s, s.kind = .symbol ∧ i.tokens = [s, v]) := by
  obtain ⟨i, hi, hspan, hv⟩ := ParenList.exists_item_of_mem_hardcoded h hs
  obtain ⟨us, hus, -⟩ := t.tokens_eq_append
  exact ⟨i, hus ▸ hi.append us, hspan, hv⟩

end SqlText

end QueryGuard
