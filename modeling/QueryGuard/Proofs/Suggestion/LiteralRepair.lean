import Mathlib.Data.List.Nodup
import QueryGuard.Proofs.Guard.Origin
import QueryGuard.Proofs.Sql.Occurrence
import QueryGuard.Proofs.Sql.Replacement
import QueryGuard.Proofs.Suggestion.Gains

/-!
A literal that becomes a placeholder. Main statement: the text that is suggested for a literal next
to placeholders has a question mark in its place, one finding on such literals less and one
placeholder more, and the binds are those of the text with the value of the literal among them.
-/

namespace QueryGuard

open Token.Kind ParenList

variable {d : Dialect}

/-! ### Literals of a list -/

/-- The tokens of a literal are a string or a number, and may be a sign in front of it. -/
lemma ListItem.forall_of_literal {i : ListItem} {p : Token → Prop} (h : i.entry = .literal)
    (hp : ∀ {u : Token}, u.kind = .symbol ∨ u.kind = .string ∨ u.kind = .number → p u) :
    ∀ u ∈ i.tokens, p u := by
  obtain ⟨-, v, hv, htok | ⟨s, hs, htok⟩⟩ := entry_eq_literal h
  · rw [htok, List.forall_mem_singleton]
    exact hp (.inr hv)
  · rw [htok, List.forall_mem_cons, List.forall_mem_singleton]
    exact ⟨hp (.inl hs), hp (.inr hv)⟩

/-- An item reaches from its first token to its last. -/
lemma ListItem.exists_of_span? {i : ListItem} {span : Span} (h : i.span? = some span) :
    ∃ u v, i.tokens.head? = some u ∧ i.tokens.getLast? = some v ∧ span = ⟨u.start, v.stop⟩ := by
  unfold span? at h
  split at h
  · next u v hu hv => exact ⟨u, v, hu, hv, (Option.some.inj h).symm⟩
  · cases h

namespace ParenList

variable {ts : List Token} {l : ParenList}

/-- Without a parenthesis there is no list. -/
lemma ofTokens_eq_nil (h : ∀ u ∈ ts, u.kind ≠ .openParen) : ofTokens ts = [] := by
  refine List.eq_nil_iff_forall_not_mem.2 fun l hl => ?_
  obtain ⟨⟨pre, mid, post, rfl, ho, -⟩, -⟩ := spans_of_mem_ofTokens hl
  exact h l.opening (by simp) ho

/-- The literals of a list that holds a placeholder are those among its entries. -/
lemma length_hardcoded (l : ParenList) : l.hardcoded.length =
    if l.entries.contains .placeholder then l.entries.count .literal else 0 := by
  rw [hardcoded]
  split
  · rw [List.length_filterMap_eq_countP, entries, List.count, List.countP_map]
    refine List.countP_congr fun i _ => ?_
    by_cases hi : i.entry = .literal
    · obtain ⟨-, v, -, hv⟩ := ListItem.entry_eq_literal hi
      have hspan : i.span?.isSome := by
        rcases hv with hv | ⟨s, -, hv⟩
        · rw [ListItem.span?, hv]
          rfl
        · rw [ListItem.span?, hv]
          rfl
      simp [hi, hspan]
    · simp [hi]
  · rfl

/-- A literal of the list has its span, and a placeholder is an entry, too. -/
lemma exists_of_mem_hardcoded {span : Span} (h : span ∈ l.hardcoded) :
    Entry.placeholder ∈ l.entries ∧ ∃ i ∈ l.items, i.entry = .literal ∧ i.span? = some span := by
  unfold hardcoded at h
  split at h
  · next hp =>
    obtain ⟨i, hi, he⟩ := List.mem_filterMap.1 h
    split at he
    · next hk => exact ⟨List.contains_iff_mem.1 hp, i, hi, hk, he⟩
    · cases he
  · exact absurd h List.not_mem_nil

/-- The number of literals that share a list with placeholders. -/
def literalCount (ls : List ParenList) : Nat := (ls.flatMap hardcoded).length

@[simp] lemma literalCount_append (ls ls' : List ParenList) :
    literalCount (ls ++ ls') = literalCount ls + literalCount ls' := by
  rw [literalCount, List.flatMap_append, List.length_append, literalCount, literalCount]

@[simp] lemma literalCount_cons (l : ParenList) (ls : List ParenList) :
    literalCount (l :: ls) = l.hardcoded.length + literalCount ls := by
  rw [literalCount, List.flatMap_cons, List.length_append, literalCount]

lemma literalCount_relocate {g : Token → Token} (hg : Token.Relocates g) (ls : List ParenList) :
    literalCount (ls.map (relocate g)) = literalCount ls := by
  induction ls with
  | nil => rfl
  | cons l ls ih =>
    rw [List.map_cons, literalCount_cons, literalCount_cons, ih, l.length_hardcoded_relocate hg]

/-- A placeholder takes the place of a literal among the entries. -/
lemma length_hardcoded_of_entries {l l' : ParenList} {as bs : List Entry}
    (h : l.entries = as ++ .literal :: bs) (hp : Entry.placeholder ∈ l.entries)
    (h' : l'.entries = as ++ .placeholder :: bs) :
    l'.hardcoded.length + 1 = l.hardcoded.length := by
  have hp' : Entry.placeholder ∈ l'.entries := by
    rw [h']
    simp
  rw [length_hardcoded, if_pos (List.contains_iff_mem.2 hp'), length_hardcoded,
    if_pos (List.contains_iff_mem.2 hp), h, h']
  simp
  omega

/-- Tokens without parentheses have no part in the lists around them. -/
lemma literalCount_ofTokens_replace {front back xs ys : List Token} {g : Token → Token}
    (hg : Token.Relocates g) (hf : Nested (fun _ => True) (front.map (·.kind)))
    (hx : ∀ u ∈ xs, u.kind ≠ .openParen ∧ u.kind ≠ .closeParen)
    (hy : ∀ u ∈ ys, u.kind ≠ .openParen ∧ u.kind ≠ .closeParen) :
    literalCount (ofTokens (front ++ (ys ++ back.map g))) =
      literalCount (ofTokens (front ++ (xs ++ back))) := by
  have hflat : ∀ {xs : List Token}, (∀ u ∈ xs, u.kind ≠ .openParen ∧ u.kind ≠ .closeParen) →
      ∀ us, ofTokens (xs ++ us) = ofTokens us := by
    intro xs hx us
    have hn : Nested (fun _ => True) (xs.map (·.kind)) :=
      nested_of_forall (List.forall_mem_map.2 fun u hu => ⟨(hx u hu).1, (hx u hu).2, trivial⟩)
    rw [ofTokens_append_of_nested hn, ofTokens_eq_nil fun u hu => (hx u hu).1, List.nil_append]
  rw [ofTokens_append_of_nested hf, ofTokens_append_of_nested hf, hflat hx, hflat hy,
    ofTokens_map hg, literalCount_append, literalCount_append, literalCount_relocate hg]

end ParenList

namespace Parens

variable (p : Parens)

lemma closing_kind_relocate {g : Token → Token} (hg : Token.Relocates g) :
    (g p.closing).kind = .closeParen := (p.relocate hg).closing_kind

/-- The parentheses around other tokens, with the closing one at another place. -/
def around {g : Token → Token} (hg : Token.Relocates g) {ts : List Token}
    (h : Nested (fun _ => True) (ts.map (·.kind))) : Parens where
  opening := p.opening
  inner := ts
  closing := g p.closing
  opening_kind := p.opening_kind
  nested := h
  closing_kind := p.closing_kind_relocate hg

/-- **One literal less**: where a placeholder takes the place of a literal in a list that holds
another, the literals that share a list with placeholders are one less. -/
theorem exists_literalCount {span : Span} (h : span ∈ p.list.hardcoded) :
    ∃ (front back : List Token) (i : ListItem), p.inner = front ++ (i.tokens ++ back) ∧
      i ∈ p.list.items ∧ i.entry = .literal ∧ i.span? = some span ∧
      ∀ {q : Token} {g : Token → Token}, q.kind = .placeholder → Token.Relocates g →
        ∃ p' : Parens, p'.tokens = p.opening :: (front ++ q :: (back ++ [p.closing]).map g) ∧
          ∀ {pre : List Token}, (∀ u ∈ pre, g u = u) → ∀ post,
            literalCount (ofTokens (pre ++ (p'.tokens ++ post.map g))) + 1 =
              literalCount (ofTokens (pre ++ (p.tokens ++ post))) := by
  obtain ⟨hholder, i, hi, hk, hspan⟩ := exists_of_mem_hardcoded h
  obtain ⟨hn, v, hv, htok⟩ := ListItem.entry_eq_literal hk
  have hplain : ∀ u ∈ i.tokens, u.kind ≠ .openParen ∧ u.kind ≠ .closeParen :=
    ListItem.forall_of_literal hk fun hu => by rcases hu with hu | hu | hu <;> rw [hu] <;> decide
  obtain ⟨front, back, as, bs, hinner, hitems, hfront, hback, hnew⟩ :=
    (p.content.items_of_mem hi).exists_replace hi hn
  refine ⟨front, back, i, hinner, hi, hk, hspan, fun {q g} hq hg => ?_⟩
  obtain ⟨ho, hc, hs, hentry⟩ : q.kind ≠ .openParen ∧ q.kind ≠ .closeParen ∧ q.kind ≠ .comma ∧
      ListItem.entry ⟨[q], false⟩ = .placeholder := by
    refine ⟨?_, ?_, ?_, if_pos hq⟩ <;> rw [hq] <;> decide
  have hitems' := hnew ho hc hs hg
  let p' := p.around hg hitems'.nested
  refine ⟨p', by simp [p', around, tokens], fun {pre} hpre post => ?_⟩
  obtain ⟨later, hold, hnew⟩ := p.exists_ofTokens p' hg hpre post
  have hentries : p.list.entries = as.map ListItem.entry ++ .literal :: bs.map ListItem.entry := by
    rw [ParenList.entries, hitems, List.map_append, List.map_cons, hk]
  have hentries' : p'.list.entries =
      as.map ListItem.entry ++ .placeholder :: bs.map ListItem.entry := by
    have hne : p'.inner ≠ [] := by simp [p', around]
    rw [ParenList.entries, Matching.map_entry_eq p'.content (.items hne hitems'), List.map_append,
      List.map_cons, hentry, List.map_map]
    congr 2
    exact List.map_congr_left fun j _ => j.entry_relocate hg
  -- this list has one literal less, and the lists in it and around it are the same at other places
  have hone := length_hardcoded_of_entries hentries hholder hentries'
  have hin : literalCount (ofTokens p'.inner) = literalCount (ofTokens p.inner) := by
    rw [hinner]
    show literalCount (ofTokens (front ++ ([q] ++ back.map g))) = _
    exact literalCount_ofTokens_replace hg hfront hplain (by simpa using ⟨ho, hc⟩)
  rw [hold, hnew]
  simp only [literalCount_append, literalCount_cons, literalCount_relocate hg, hin]
  omega

end Parens

/-! ### The text with a question mark -/

/-- The placeholder, which is one further now, where what ended at byte `n` ends at byte `n'`. -/
def Placeholder.moveFrom (n n' : Nat) (p : Placeholder) : Placeholder :=
  { p with ordinal := p.ordinal + 1, offset := p.offset - n + n' }

/-- Placeholders behind a place move with their tokens. -/
lemma Token.filterMap_placeholder?_moveFrom {n n' : Nat} {ts : List Token}
    (h : ∀ u ∈ ts, n ≤ u.start) : (ts.map (moveFrom n n')).filterMap placeholder? =
      (ts.filterMap placeholder?).map fun x => (x.1, x.2 - n + n') := by
  rw [List.filterMap_map, List.map_filterMap]
  refine List.filterMap_congr fun u hu => ?_
  rw [Function.comp_apply, moveFrom_of_le (h u hu), placeholder?, placeholder?]
  split <;> rfl

lemma Lexeme.tokens_mark (pos : Nat) :
    tokens pos [mark none] = [⟨.placeholder, pos, ['?']⟩] := rfl

namespace SqlText

variable {t t' : SqlText} {span : Span} {as bs cs : List Lexeme}

/-- The findings on literals that share a list with placeholders. -/
lemma countP_review (t : SqlText) : t.review.countP (·.code == .hardcodedValue) =
    literalCount t.parenLists := by
  have hcode : ∀ fs : List Finding, fs.countP (·.code == .hardcodedValue) =
      (fs.map (·.code)).count .hardcodedValue := fun fs => by
    rw [List.count, List.countP_map]
    rfl
  have hwhere : (t.statement.whereFinding?.toList.map (·.code)).count .hardcodedValue = 0 := by
    refine List.count_eq_zero.2 fun hm => ?_
    obtain ⟨f, hf, hc⟩ := List.mem_map.1 hm
    obtain ⟨⟨message, rfl⟩, -⟩ := Statement.eq_of_mem_whereFinding? (Option.mem_toList.1 hf)
    cases hc
  have hstar : (if t.statement.star.isSome then [FindingCode.selectStar] else []).count
      .hardcodedValue = 0 := by
    split <;> rfl
  rw [hcode, map_code_review, List.count_append, List.count_append, hwhere, hstar,
    List.count_replicate_self, listsByOpening,
    ((List.mergeSort_perm _ _).flatMap_right _).length_eq, Nat.zero_add, literalCount]

/-- The text with a question mark in the place of the literal. -/
def withMark (t : SqlText) (as cs : List Lexeme) : SqlText :=
  ⟨t.dialect, Lexeme.textOf (as ++ ([Lexeme.mark none] ++ cs))⟩

/-- **Around a literal that shares a list with placeholders** the lexemes fall apart, and a question
mark in its place leaves one such literal less. -/
theorem exists_literalCut_of_mem_hardcoded {l : ParenList} (hl : l ∈ t.parenLists)
    (hs : span ∈ l.hardcoded) : ∃ as bs cs, t.LiteralCut span as bs cs ∧ span.start < span.stop ∧
      literalCount (t.withMark as cs).parenLists + 1 = literalCount t.parenLists := by
  obtain ⟨pre, p, post, hts, rfl⟩ := encloses_of_mem_ofTokens hl
  obtain ⟨front, back, i, hinner, hi, hk, hspan, hcount⟩ := p.exists_literalCount hs
  obtain ⟨hn, v, hv, htok⟩ := ListItem.entry_eq_literal hk
  obtain ⟨us, hus, -⟩ := t.tokens_eq_append
  have hstands : Stands t.tokens i := by
    rw [hus]
    exact ((spans_of_mem_ofTokens hl).2 i hi hn).append us
  obtain ⟨as, bs, cs, hcut⟩ := exists_literalCut hstands hspan hv htok
  obtain ⟨u, w, hu, hw, hends⟩ := ListItem.exists_of_span? hspan
  -- the literal is an item between the parentheses, with tokens in front and behind
  have e : t.tokens = (pre ++ p.opening :: front) ++
      (i.tokens ++ (back ++ p.closing :: (post ++ us))) := by
    rw [hus, hts, Parens.tokens, hinner]
    simp
  have hlt : span.start < span.stop := by
    rw [hends]
    exact ((start_of_tokens_eq e hu hw).2.1 u (List.mem_of_head? hu)).2
  refine ⟨as, bs, cs, hcut, hlt, ?_⟩
  have hread : (t.withMark as cs).ReadAs (as ++ ([Lexeme.mark none] ++ cs)) := hcut.readAs_mark
  obtain ⟨-, -, -, hrep⟩ := hcut.toCut.replaces hread e hu hw hends
  rw [Lexeme.tokens_mark] at hrep
  -- neither the item nor the mark ends the first statement
  have hflat : Nested (· ≠ .semicolon) (i.tokens.map (·.kind)) :=
    nested_of_forall (List.forall_mem_map.2 (ListItem.forall_of_literal hk fun hu => by
      rcases hu with hu | hu | hu <;> rw [hu] <;> decide))
  have hstmt : t.statementTokens.map (·.token) =
      (pre ++ p.opening :: front) ++ (i.tokens ++ (back ++ p.closing :: post)) := by
    rw [hts, Parens.tokens, hinner]
    simp
  have hmark : Nested (· ≠ .semicolon) [Token.Kind.placeholder] :=
    .cons (by decide) (by decide) (by decide) .nil
  have htokens := hrep.map_token hflat hmark hstmt
  obtain ⟨p', hp', hsum⟩ := hcount (q := ⟨.placeholder, span.start, ['?']⟩) rfl hrep.relocates
  have hcut' : (t.withMark as cs).statementTokens.map (·.token) =
      pre ++ (p'.tokens ++ post.map (Token.moveFrom span.stop
        (span.start + Text.width (Lexeme.textOf [Lexeme.mark none])))) := by
    rw [htokens, hp']
    simp
  rw [parenLists, hcut', parenLists, hts]
  exact hsum (fun x hx => hrep.fixes x (List.mem_append_left _ hx)) post

/-- **The placeholders around the literal stay**, and the question mark is one between them. -/
theorem LiteralCut.exists_placeholders (h : t.LiteralCut span as bs cs) : ∃ before after,
    t.placeholders = before ++ after ∧ (∀ p ∈ before, p.offset < span.start) ∧
      (∀ p ∈ after, span.stop ≤ p.offset) ∧
      (t.withMark as cs).placeholders =
        before ++ ⟨.positional, before.length + 1, span.start⟩ ::
          after.map (Placeholder.moveFrom span.stop (span.start + 1)) := by
  obtain ⟨has, -, hcs⟩ := h.toCut.places
  have hbs : (Lexeme.tokens span.start bs).filterMap Token.placeholder? = [] := by
    refine List.filterMap_eq_nil_iff.2 fun u hu => if_neg fun hk => ?_
    obtain ⟨l, hl, hkind, -⟩ := Lexeme.exists_lexeme_of_mem_tokens hu
    have hno := h.inside l hl
    rw [Lexeme.isPlaceholder, hkind, hk] at hno
    cases hno
  have hstart := h.start
  have htokens := h.readAs_mark.tokens
  rw [Lexeme.tokens_append, Lexeme.tokens_append, Nat.zero_add, ← hstart, Lexeme.tokens_mark]
    at htokens
  have hoffset : ∀ {ts : List Token} {p : Placeholder.Style × Nat},
      p ∈ ts.filterMap Token.placeholder? → ∃ u ∈ ts, p.2 = u.start := by
    intro ts p hp
    obtain ⟨u, hu, hx⟩ := List.mem_filterMap.1 hp
    obtain ⟨-, hx⟩ := Token.placeholder?_eq_some_iff.1 hx
    exact ⟨u, hu, congrArg Prod.snd hx⟩
  have hold := t.placeholders_eq_tokens
  rw [h.toCut.tokens_eq, List.filterMap_append, List.filterMap_append, hbs, List.nil_append,
    List.mapIdx_append] at hold
  refine ⟨_, _, hold, fun p hp => ?_, fun p hp => ?_, ?_⟩
  -- in front of the literal and behind it the placeholders are those of the tokens there
  · obtain ⟨i, hi, rfl⟩ := List.mem_mapIdx.1 hp
    obtain ⟨u, hu, e⟩ := hoffset (List.getElem_mem hi)
    exact e ▸ has u hu
  · obtain ⟨i, hi, rfl⟩ := List.mem_mapIdx.1 hp
    obtain ⟨u, hu, e⟩ := hoffset (List.getElem_mem hi)
    exact e ▸ hcs u hu
  -- with the mark there is one placeholder more, and the tokens behind it have moved
  · have hback : (Lexeme.tokens (span.start + 1) cs).filterMap Token.placeholder? =
        ((Lexeme.tokens span.stop cs).filterMap Token.placeholder?).map fun x =>
          (x.1, x.2 - span.stop + (span.start + 1)) := by
      rw [Lexeme.tokens_moveFrom span.stop, Token.filterMap_placeholder?_moveFrom hcs]
    rw [placeholders_eq_tokens, withMark, htokens, List.filterMap_append, List.mapIdx_append,
      List.length_mapIdx]
    refine congrArg _ ?_
    show List.mapIdx _ ((Placeholder.Style.positional, span.start) ::
      (Lexeme.tokens (span.start + 1) cs).filterMap _) = _
    rw [hback, List.mapIdx_cons, Nat.zero_add]
    refine congrArg _ (List.ext_getElem (by simp) fun i _ _ => ?_)
    simp [Placeholder.moveFrom]
    omega

end SqlText

/-! ### The binds -/

/-- Sorted by numbers that differ, a list has one order. -/
lemma mergeSort_eq_of_pairwise {α : Type*} {xs ys : List (Nat × α)} (h : xs.Perm ys)
    (hlt : ys.Pairwise fun x y => x.1 < y.1) : xs.mergeSort (fun x y => x.1 ≤ y.1) = ys := by
  have hperm := (List.mergeSort_perm xs fun x y => x.1 ≤ y.1).trans h
  have hsorted : (xs.mergeSort fun x y => x.1 ≤ y.1).Pairwise fun x y => x.1 ≤ y.1 := by
    refine (List.pairwise_mergeSort ?_ ?_ xs).imp of_decide_eq_true
    · exact fun x y z hxy hyz => decide_eq_true
        ((of_decide_eq_true hxy).trans (of_decide_eq_true hyz))
    · exact fun x y => by simpa using Nat.le_total x.1 y.1
  refine hperm.eq_of_pairwise (fun x y hx hy hxy hyx => ?_) hsorted (hlt.imp Nat.le_of_lt)
  have hne : ys.Pairwise fun x y => x.1 ≠ y.1 := hlt.imp Nat.ne_of_lt
  exact List.inj_on_of_nodup_map (List.pairwise_map.2 hne) (hperm.mem_iff.1 hx) hy
    (Nat.le_antisymm hxy hyx)

namespace Placeholder

/-- Placeholders that stand one behind the other are so with their binds. -/
lemma pairwise_zip {ps : List Placeholder} {bs : List Bind} (hlen : ps.length = bs.length)
    (hps : ps.Pairwise fun p q => p.offset < q.offset) :
    ((ps.map (·.offset)).zip bs).Pairwise fun x y => x.1 < y.1 := by
  have hlt : (ps.map (·.offset)).Pairwise (· < ·) := List.pairwise_map.2 hps
  have hfst : ((ps.map (·.offset)).zip bs).map Prod.fst = ps.map (·.offset) :=
    List.map_fst_zip (by simp [hlen])
  rw [← hfst] at hlt
  exact List.pairwise_map.1 hlt

lemma exists_of_mem_zip {ps : List Placeholder} {bs : List Bind} {x : Nat × Bind}
    (h : x ∈ (ps.map (·.offset)).zip bs) : ∃ p ∈ ps, p.offset = x.1 :=
  List.mem_map.1 (List.of_mem_zip h).1

end Placeholder

namespace Analysis

variable {a : Analysis} {f : Finding} {span : Span}

/-- The value of the literal is bound between those of the placeholders around it. -/
lemma binds_hardcoded (hp : a.placeholders = a.text.placeholders) (hf : f.span = some span)
    {before after : List Placeholder} (hsplit : a.placeholders = before ++ after)
    (hbefore : ∀ p ∈ before, p.offset < span.start)
    (hafter : ∀ p ∈ after, span.start < p.offset) : (a.hardcoded f).binds =
      a.binds.insertIdx before.length
        (.value (.ofLiteral (a.text.slice span.start span.stop))) := by
  have hlen : a.binds.length = before.length + after.length := by
    rw [binds, Bind.length_ofPlaceholders, hsplit, List.length_append]
  obtain ⟨xs, ys, hxs, hbinds⟩ : ∃ xs ys, before.length = xs.length ∧ a.binds = xs ++ ys :=
    ⟨a.binds.take before.length, a.binds.drop before.length, by simp; omega, by simp⟩
  have hys : after.length = ys.length := by
    rw [hbinds, List.length_append] at hlen
    omega
  have hlt : a.placeholders.Pairwise fun p q => p.offset < q.offset := by
    rw [hp]
    refine a.text.pairwise_placeholders.imp fun {p q} hle => ?_
    have hle : p.offset + Text.width p.text.toList ≤ q.offset := hle
    have := p.width_text_pos
    omega
  rw [hsplit] at hlt
  obtain ⟨hltb, hlta, -⟩ := List.pairwise_append.1 hlt
  -- the binds are sorted by places, and those of the placeholders are in order as they stand
  have hsorted : ((before.map (·.offset)).zip xs ++
      (span.start, Bind.value (.ofLiteral (a.text.slice span.start span.stop))) ::
        (after.map (·.offset)).zip ys).Pairwise fun x y => x.1 < y.1 := by
    refine List.pairwise_append.2 ⟨Placeholder.pairwise_zip hxs hltb,
      List.pairwise_cons.2 ⟨fun x hx => ?_, Placeholder.pairwise_zip hys hlta⟩,
      fun x hx y hy => ?_⟩
    · obtain ⟨p, hp, e⟩ := Placeholder.exists_of_mem_zip hx
      exact e ▸ hafter p hp
    · obtain ⟨p, hp, e⟩ := Placeholder.exists_of_mem_zip hx
      rw [← e]
      rcases List.mem_cons.1 hy with rfl | hy
      · exact hbefore p hp
      · obtain ⟨q, hq, e'⟩ := Placeholder.exists_of_mem_zip hy
        rw [← e']
        exact (hbefore p hp).trans (hafter q hq)
  rw [hardcoded, hf]
  dsimp only
  rw [hsplit, hbinds, hxs, insertIdx_length_append, List.map_append,
    List.zip_append (by simpa using hxs), List.append_assoc,
    mergeSort_eq_of_pairwise (List.perm_append_comm.append_left _) hsorted, List.map_append,
    List.singleton_append, List.map_cons, List.map_snd_zip (by simp [hxs]),
    List.map_snd_zip (by simp [hys])]

/-- In the text `t` a question mark stands in the place of a literal of the analysed text, and its
value is bound between those of the placeholders in front of it and those behind it. -/
structure RepairsLiteral (a : Analysis) (f : Finding) (t : SqlText)
    (front literal back : List Char) (before after : List Placeholder) : Prop where
  chars : a.text.chars = front ++ (literal ++ back)
  span : f.span = some ⟨Text.width front, Text.width front + Text.width literal⟩
  chars' : t.chars = front ++ '?' :: back
  /-- One literal less shares a list with placeholders. -/
  findings : t.review.countP (·.code == .hardcodedValue) + 1 =
    a.text.review.countP (·.code == .hardcodedValue)
  placeholders : a.placeholders = before ++ after
  before_lt : ∀ p ∈ before, p.offset < Text.width front
  le_after : ∀ p ∈ after, Text.width front + Text.width literal ≤ p.offset
  placeholders' : t.placeholders = before ++ ⟨.positional, before.length + 1, Text.width front⟩ ::
    after.map (.moveFrom (Text.width front + Text.width literal) (Text.width front + 1))
  binds : (a.template f).binds = a.binds.insertIdx before.length (.value (.ofLiteral literal))

/-- **The template for a literal repairs it.** -/
theorem repairsLiteral_hardcoded (hs : a.statement = a.text.statement)
    (hp : a.placeholders = a.text.placeholders) (h : f ∈ a.text.review)
    (hc : f.code = .hardcodedValue) : ∃ front literal back before after,
      a.RepairsLiteral f (a.rewritten f) front literal back before after := by
  have hex := (explains_of_mem_review hs h).1
  rw [Explains, hc] at hex
  obtain ⟨l, hl, span, hspan, hf⟩ := hex
  obtain ⟨as, bs, cs, hcut, hlt, hcount⟩ := SqlText.exists_literalCut_of_mem_hardcoded hl hspan
  obtain ⟨before, after, hsplit, hbefore, hafter, hnew⟩ := hcut.exists_placeholders
  have ht : a.template f = a.hardcoded f := by rw [template, hc]
  have hstart := hcut.start
  have hstop := hcut.stop
  have hchars : (a.hardcoded f).chars = Lexeme.textOf as ++ '?' :: Lexeme.textOf cs := by
    have hq : "?".toList = ['?'] := by decide +kernel
    rw [hardcoded, hf]
    refine (hcut.apply_replace "?").trans ?_
    rw [hq]
    rfl
  have hold : a.text.chars =
      Lexeme.textOf as ++ (Lexeme.textOf bs ++ Lexeme.textOf cs) := by
    rw [hcut.readAs.chars, Lexeme.textOf_append, Lexeme.textOf_append]
  -- the text that the template writes is the old one with the mark in place of the literal
  have hmark : a.rewritten f = a.text.withMark as cs := by
    rw [rewritten, ht, hchars, SqlText.withMark, Lexeme.textOf_append]
    rfl
  have hslice : a.text.slice span.start span.stop = Lexeme.textOf bs := by
    rw [SqlText.slice, hold, hstop, hstart]
    exact Text.slice_append _ _ _
  rw [hstart] at hbefore
  rw [hstop] at hafter
  refine ⟨Lexeme.textOf as, Lexeme.textOf bs, Lexeme.textOf cs, before, after, hold, ?_, ?_, ?_,
    hp.trans hsplit, hbefore, hafter, ?_, ?_⟩
  · rw [hf, ← hstop, ← hstart]
  · rw [rewritten, ht, hchars]
  · rw [hmark, SqlText.countP_review, SqlText.countP_review, hcount]
  · rw [hmark, hnew, hstop, hstart]
  · rw [ht, binds_hardcoded hp hf (hp.trans hsplit) (hstart ▸ hbefore) fun p hp => ?_, hslice]
    rw [hstop, hstart] at hlt
    rw [hstart]
    exact hlt.trans_le (hafter p hp)

end Analysis

/-- **The suggestion for a literal next to placeholders repairs exactly this literal.** -/
theorem Query.repairsLiteral_suggestion {q : Query} {f : Finding}
    (h : f ∈ (q.analysis d).text.review) (hc : f.code = .hardcodedValue) :
    ∃ front literal back before after, (q.analysis d).RepairsLiteral f
      (SqlText.ofString d (Suggestion.ofFinding (q.analysis d) f).query)
        front literal back before after := by
  have hquery : SqlText.ofString d (Suggestion.ofFinding (q.analysis d) f).query =
      (q.analysis d).rewritten f := (q.analysis d).ofString_query f
  rw [hquery]
  exact Analysis.repairsLiteral_hardcoded rfl rfl h hc

/-- A sign, a comment and a number between two placeholders. -/
def Query.signedLiteral : Query := .raw "INSERT INTO t VALUES (?, -/**/5, :x)"

/-- The finding on it. -/
def Query.signedFinding : Finding :=
  (signedLiteral.analysis .standard).text.literalFinding ⟨25, 31⟩

theorem Query.repairsLiteral_signedFinding :
    (signedFinding ∈ (signedLiteral.analysis .standard).text.review ∧
      signedFinding.code = .hardcodedValue) ∧
      ∃ front literal back before after, (signedLiteral.analysis .standard).RepairsLiteral
        signedFinding (SqlText.ofString .standard
          (Suggestion.ofFinding (signedLiteral.analysis .standard) signedFinding).query)
            front literal back before after := by
  have h : signedFinding ∈ (signedLiteral.analysis .standard).text.review := by decide +kernel
  exact ⟨⟨h, rfl⟩, repairsLiteral_suggestion h rfl⟩

end QueryGuard
