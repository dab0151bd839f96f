import QueryGuard.Proofs.Sql.HeadPrefix
import QueryGuard.Proofs.Sql.InsertRoundTrip

/-!
Where the rows of an `INSERT` come from. They are the lists directly behind the first word `VALUES`
or `VALUE` outside parentheses, whatever clause the word stands in. Main statement: where a `SELECT`
stands behind the column list, field counts are found to differ exactly when the lists behind such a
word have not as many items as there are columns.
-/

namespace QueryGuard

open ParenList

/-! ### The rows of a statement -/

/-- The token is the word `VALUES` or `VALUE` outside parentheses. -/
def DeepToken.isValues (u : DeepToken) : Bool := u.isTopWord "values" || u.isTopWord "value"

lemma DeepToken.isValues_iff {u : DeepToken} : u.isValues ↔
    u.depth = 0 ∧ (u.token.isWord "values" ∨ u.token.isWord "value") := by
  simp [isValues, isTopWord, isTop, and_or_left]

namespace SqlText

open Statement

variable {t : SqlText} {pre post : List DeepToken} {v : DeepToken} {lists : List Parens}

/-- The first word `VALUES` or `VALUE` outside parentheses stands between these tokens. -/
structure ValuesAt (t : SqlText) (pre : List DeepToken) (v : DeepToken) (post : List DeepToken) :
    Prop where
  tokens : t.statementTokens = pre ++ v :: post
  first : ∀ u ∈ pre, u.isValues = false
  isValues : v.isValues

/-- Without such a word there are no rows. -/
lemma valueRows_eq_nil (h : ∀ u ∈ t.statementTokens, u.isValues = false) :
    t.statement.valueRows = [] := by
  have hafter : after DeepToken.isValues t.statementTokens = [] := by
    rw [after, List.dropWhile_eq_nil_iff.2 fun u hu => by rw [h u hu]; rfl, List.drop_nil]
  have hrows : Statement.rows t.parenLists t.statementTokens = [] := by
    show rowsFrom _ (after DeepToken.isValues _) = []
    rw [hafter]
    unfold rowsFrom
    rfl
  rw [valueRows_statement, hrows, ite_self]

lemma ValuesAt.kind (h : t.ValuesAt pre v post) : v.token.kind = .word := by
  rcases (DeepToken.isValues_iff.1 h.isValues).2 with hw | hw
  · exact (Token.isWord_iff.1 hw).1
  · exact (Token.isWord_iff.1 hw).1

/-- Behind the word the parentheses are counted from none. -/
lemma ValuesAt.ofTokens_eq (h : t.ValuesAt pre v post) (us : List Token) :
    DeepToken.ofTokens 0 (pre.map (·.token) ++ v.token :: us) =
      pre ++ v :: DeepToken.ofTokens 0 us := by
  have e := t.ofTokens_statementTokens
  have hk := h.kind
  have hcons : ∀ n us, DeepToken.ofTokens n (v.token :: us) =
      ⟨v.token, n⟩ :: DeepToken.ofTokens n us :=
    DeepToken.ofTokens_cons (by rw [hk]; decide) (by rw [hk]; decide)
  rw [h.tokens] at e
  have hpre := DeepToken.ofTokens_of_append e
  rw [List.map_append, List.map_cons, DeepToken.ofTokens_append, hpre, hcons] at e
  obtain ⟨hv, -⟩ := List.cons.inj (List.append_cancel_left e)
  have hzero : DeepToken.depthAfter 0 (pre.map (·.token)) = 0 :=
    (congrArg DeepToken.depth hv).trans (DeepToken.isValues_iff.1 h.isValues).1
  rw [hzero] at hv
  rw [DeepToken.ofTokens_append, hpre, hzero, hcons, hv]

lemma ValuesAt.ofTokens_post (h : t.ValuesAt pre v post) :
    DeepToken.ofTokens 0 (post.map (·.token)) = post := by
  have e := t.ofTokens_statementTokens
  rw [h.tokens, List.map_append, List.map_cons, h.ofTokens_eq] at e
  exact (List.cons.inj (List.append_cancel_left e)).2

/-- **The rows of an `INSERT`** are the lists behind the first `VALUES` or `VALUE`. -/
theorem ValuesAt.valueRows_eq (h : t.ValuesAt pre v post) (hk : t.statement.kind = .insert)
    (hl : ListsFrom (post.map (·.token)) lists) : t.statement.valueRows = lists.map Parens.row := by
  have hafter : after DeepToken.isValues t.statementTokens = post := by
    rw [after, h.tokens, List.dropWhile_append_of_pos fun u hu => by rw [h.first u hu]; rfl,
      List.dropWhile_cons_of_neg (by rw [h.isValues]; decide), List.drop_one, List.tail_cons]
  have htokens : t.statementTokens.map (·.token) =
      (pre.map (·.token) ++ [v.token]) ++ post.map (·.token) := by
    rw [h.tokens, List.map_append, List.map_cons, List.append_assoc, List.singleton_append]
  have hs := t.pairwise_lt_tokens
  obtain ⟨us, hus, -⟩ := t.tokens_eq_append
  rw [hus, htokens] at hs
  rw [valueRows_statement, if_pos hk, parenLists, htokens]
  show rowsFrom _ (after DeepToken.isValues _) = _
  rw [hafter, ← h.ofTokens_post, DeepToken.map_token_ofTokens]
  exact hl.rowsFrom_eq (List.pairwise_append.1 hs).1

lemma ValuesAt.ne_select (h : t.ValuesAt pre v post) : ¬ v.token.isWord "select" := by
  intro hs
  have hs := (Token.isWord_iff.1 hs).2
  rcases (DeepToken.isValues_iff.1 h.isValues).2 with hw | hw
  · exact absurd (hs.symm.trans (Token.isWord_iff.1 hw).2) (by decide)
  · exact absurd (hs.symm.trans (Token.isWord_iff.1 hw).2) (by decide)

/-- The tokens of the statement stand one behind the other. -/
lemma start_lt_of_statementTokens {xs ys : List DeepToken} {u : DeepToken}
    (h : t.statementTokens = xs ++ u :: ys) : ∀ w ∈ ys, u.token.start < w.token.start := by
  obtain ⟨us, hus, -⟩ := t.tokens_eq_append
  have hs := t.pairwise_lt_tokens
  rw [hus] at hs
  have hs := List.pairwise_map.1 (List.pairwise_append.1 hs).1
  rw [h] at hs
  exact (List.pairwise_cons.1 (List.pairwise_append.1 hs).2.1).1

lemma kind_of_columns {columns : List String} (h : t.statement.columns = some columns) :
    t.statement.kind = .insert := by
  by_contra hk
  rw [columns_statement, if_neg hk] at h
  cases h

/-- **The findings on field counts** are on the lists that have not as many items as there are
columns. -/
theorem ValuesAt.map_span_reconcile (h : t.ValuesAt pre v post) {columns : List String}
    (hc : t.statement.columns = some columns) (hl : ListsFrom (post.map (·.token)) lists)
    (ps : List Placeholder) (supplied : Supplied) :
    ((reconcile ps supplied t.statement).filter (·.code == .fieldCountMismatch)).map (·.span) =
      (lists.filter fun p => itemCount p.inner ≠ columns.length).map (some ·.span) := by
  have hk := kind_of_columns hc
  have hcount : (fun r : ValueRow => decide (r.entries.length ≠ columns.length)) ∘ Parens.row =
      fun p => decide (itemCount p.inner ≠ columns.length) :=
    funext fun p => by rw [Function.comp_apply, p.length_entries_row]
  rw [Reconciliation.map_span_reconcile hk hc, h.valueRows_eq hk hl, List.filter_map, List.map_map,
    hcount]
  rfl

/-! ### A `SELECT` behind the column list -/

/-- The column list ends in front of the byte `n`, and the next token is the word `SELECT`. -/
structure SelectsAt (t : SqlText) (n : Nat) (s : DeepToken) : Prop where
  columns : t.ColumnsEndAt n
  next : ∃ ws rest, t.statementTokens = ws ++ s :: rest ∧ (∀ w ∈ ws, w.token.start < n) ∧
    n ≤ s.token.start
  isWord : s.token.isWord "select"

/-- **Behind a `SELECT` field counts are found to differ** exactly when the lists that follow the
first `VALUES` or `VALUE` have not as many items as there are columns. The word stands in front of
the end of the column list or behind the `SELECT`, and may be any part of a clause. -/
theorem SelectsAt.forall_reconcile_iff {n : Nat} {s : DeepToken} (h : t.SelectsAt n s)
    {columns : List String} (hc : t.statement.columns = some columns) (ps : List Placeholder)
    (supplied : Supplied) :
    (∀ f ∈ reconcile ps supplied t.statement, f.code ≠ .fieldCountMismatch) ↔
      ∀ pre v post lists, t.ValuesAt pre v post →
        (v.token.start < n ∨ s.token.start < v.token.start) →
          ListsFrom (post.map (·.token)) lists → ∀ p ∈ lists, itemCount p.inner = columns.length := by
  have hnone : (∀ f ∈ reconcile ps supplied t.statement, f.code ≠ .fieldCountMismatch) ↔
      ((reconcile ps supplied t.statement).filter (·.code == .fieldCountMismatch)).map (·.span) =
        [] := by
    rw [List.map_eq_nil_iff, List.filter_eq_nil_iff]
    simp
  rw [hnone]
  constructor
  · intro hno pre v post lists hv _ hl p hp
    rw [hv.map_span_reconcile hc hl, List.map_eq_nil_iff, List.filter_eq_nil_iff] at hno
    simpa using hno p hp
  · intro hall
    by_cases hany : ∃ u ∈ t.statementTokens, u.isValues
    -- the first such word has lists behind it, which may be none, and they are the rows
    · obtain ⟨u, hu, hvalues⟩ := hany
      obtain ⟨v, hv⟩ := Option.isSome_iff_exists.1 (List.find?_isSome.2 ⟨u, hu, hvalues⟩)
      obtain ⟨hvalues, pre, post, htokens, hfirst⟩ := List.find?_eq_some_iff_append.1 hv
      have hat : t.ValuesAt pre v post := ⟨htokens, fun u hu => by simpa using hfirst u hu, hvalues⟩
      obtain ⟨lists, hl⟩ := exists_listsFrom (post.map (·.token))
      rw [hat.map_span_reconcile hc hl, List.map_eq_nil_iff, List.filter_eq_nil_iff]
      have hplace : v.token.start < n ∨ s.token.start < v.token.start := by
        obtain ⟨ws, rest, hsplit, hws, -⟩ := h.next
        have hmem : v ∈ ws ++ s :: rest := by
          rw [← hsplit, htokens]
          simp
        rcases List.mem_append.1 hmem with hm | hm
        · exact .inl (hws v hm)
        · right
          rcases List.mem_cons.1 hm with rfl | hm
          · exact absurd h.isWord hat.ne_select
          · exact t.start_lt_of_statementTokens hsplit v hm
      exact fun p hp => by simpa using hall pre v post lists hat hplace hl p hp
    -- without such a word there are no rows
    · have hno : ∀ u ∈ t.statementTokens, u.isValues = false := fun u hu =>
        Bool.eq_false_iff.2 fun hv => hany ⟨u, hu, hv⟩
      rw [Reconciliation.map_span_reconcile (kind_of_columns hc) hc, valueRows_eq_nil hno]
      rfl

/-- An update of a row that is there already takes a value of the row that would go in. -/
def onDuplicate : SqlText :=
  .ofString .mysql "INSERT INTO t (a, b) SELECT 1, 2 ON DUPLICATE KEY UPDATE a = VALUES(a)"

/-- The `SELECT` of the text. -/
def onDuplicateSelect : DeepToken := ⟨⟨.word, 21, "SELECT".toList⟩, 0⟩

lemma selectsAt_onDuplicate : onDuplicate.SelectsAt 20 onDuplicateSelect where
  columns := ⟨by decide +kernel, by decide +kernel⟩
  next := ⟨onDuplicate.statementTokens.take 8, onDuplicate.statementTokens.drop 9,
    by decide +kernel, by decide +kernel, by decide⟩
  isWord := by decide +kernel

theorem forall_reconcile_iff_onDuplicate :
    (onDuplicate.SelectsAt 20 onDuplicateSelect ∧
      onDuplicate.statement.columns = some ["a", "b"]) ∧
    ((∀ f ∈ reconcile [] (.bound (.positional [])) onDuplicate.statement,
        f.code ≠ .fieldCountMismatch) ↔
      ∀ pre v post lists, onDuplicate.ValuesAt pre v post →
        (v.token.start < 20 ∨ onDuplicateSelect.token.start < v.token.start) →
          ListsFrom (post.map (·.token)) lists → ∀ p ∈ lists, itemCount p.inner = 2) := by
  have hc : onDuplicate.statement.columns = some ["a", "b"] := by decide +kernel
  exact ⟨⟨selectsAt_onDuplicate, hc⟩, selectsAt_onDuplicate.forall_reconcile_iff hc _ _⟩

/-- Not only a `VALUES` clause supplies rows: the list behind `VALUES` in a later clause is taken
for one. -/
theorem not_forall_reconcile : ¬ ∀ (t : SqlText) (n : Nat) (s : DeepToken) (columns : List String)
    (supplied : Supplied), t.SelectsAt n s → t.statement.columns = some columns →
      ∀ f ∈ reconcile t.placeholders supplied t.statement, f.code ≠ .fieldCountMismatch := by
  intro h
  have hno := h onDuplicate 20 onDuplicateSelect ["a", "b"] (.bound (.positional []))
    selectsAt_onDuplicate (by decide +kernel)
  exact absurd hno (by decide +kernel)

end SqlText

end QueryGuard
