import Mathlib.Data.List.Nodup
import QueryGuard.Proofs.Guard.Origin
import QueryGuard.Proofs.Sql.Anchor
import QueryGuard.Proofs.Sql.Nesting
import QueryGuard.Proofs.Sql.Ranges

/-!
Columns that are named like a clause. A word behind a point, such as the last of `t.limit`, names a
column, but a clause is found by its words alone. Main statement: columns are told from the clauses
of an `UPDATE` or `DELETE` exactly when it has no word `WHERE` or one that stands behind no point,
and the first word that begins a later clause stands behind no point either.
-/

namespace QueryGuard

/-- The token is a point. -/
def Token.isPoint (u : Token) : Bool := u.kind == .symbol && u.text == ['.']

/-! ### The first clause behind `WHERE` -/

namespace Statement

variable {ts pre post : List DeepToken} {w : DeepToken} {n : Nat}

/-- The word begins a clause behind `WHERE`, where the tokens `later` follow it. -/
def Opens (w : DeepToken) (later : List DeepToken) : Prop :=
  w.isTop ∧ opensTail w.token (later.head?.map (·.token))

/-- The first word that begins a clause behind `WHERE` stands between these tokens. -/
structure TailAt (ts pre : List DeepToken) (w : DeepToken) (post : List DeepToken) : Prop where
  tokens : ts = pre ++ w :: post
  opens : Opens w post
  first : ∀ xs u ys, pre = xs ++ u :: ys → ¬ Opens u (ys ++ w :: post)

lemma tail?_cons_of_opens (h : Opens w ts) : tail? (w :: ts) = some w.token.start := by
  rw [tail?, if_pos (Bool.and_eq_true_iff.2 h)]

lemma tail?_cons_of_not_opens (h : ¬ Opens w ts) : tail? (w :: ts) = tail? ts := by
  rw [tail?, if_neg fun e => h (Bool.and_eq_true_iff.1 e)]

lemma TailAt.tail?_eq (h : TailAt ts pre w post) : tail? ts = some w.token.start := by
  obtain ⟨rfl, hw, hfirst⟩ := h
  induction pre with
  | nil => exact tail?_cons_of_opens hw
  | cons u pre ih =>
    rw [List.cons_append, tail?_cons_of_not_opens (hfirst [] u pre rfl)]
    refine ih fun xs v ys e => hfirst (u :: xs) v ys ?_
    rw [e, List.cons_append]

lemma exists_tailAt (h : tail? ts = some n) :
    ∃ pre w post, TailAt ts pre w post ∧ w.token.start = n := by
  induction ts with
  | nil => cases h
  | cons u ts ih =>
    by_cases hu : Opens u ts
    · rw [tail?_cons_of_opens hu] at h
      refine ⟨[], u, ts, ⟨rfl, hu, fun xs v ys e => ?_⟩, Option.some.inj h⟩
      simp at e
    · rw [tail?_cons_of_not_opens hu] at h
      obtain ⟨pre, w, post, ⟨rfl, hw, hfirst⟩, hn⟩ := ih h
      refine ⟨u :: pre, w, post, ⟨rfl, hw, fun xs v ys e => ?_⟩, hn⟩
      cases xs with
      | nil =>
        obtain ⟨rfl, rfl⟩ := List.cons.inj e
        exact hu
      | cons x xs => exact hfirst xs v ys (List.cons.inj e).2

lemma TailAt.kind (h : TailAt ts pre w post) : w.token.kind = .word :=
  (opensTailWord_of_opensTail h.opens.2).1

end Statement

namespace SqlText

variable {t : SqlText} {u v : Token} {pre post : List DeepToken} {w : DeepToken}

/-- A point stands right in front of the token. -/
def IsQualified (t : SqlText) (u : Token) : Prop := ∃ p ∈ t.tokens, p.isPoint ∧ [p, u] <:+: t.tokens

instance (t : SqlText) (u : Token) : Decidable (t.IsQualified u) :=
  inferInstanceAs (Decidable (∃ p ∈ t.tokens, p.isPoint ∧ [p, u] <:+: t.tokens))

/-- A column behind a point is never taken for a clause of the statement. -/
structure PassesOverColumns (t : SqlText) : Prop where
  /-- A `WHERE` behind a point is none. -/
  reported : (∀ w ∈ t.statementTokens, w.isTopWord "where" → t.IsQualified w.token) →
    ∃ f ∈ t.review, f.code = .missingWhere
  /-- No clause is put in front of a word behind a point. -/
  anchored : ∀ u ∈ t.tokens, u.kind = .word → t.IsQualified u → t.statement.whereAnchor ≠ u.start

/-! ### The finding -/

lemma exists_missingWhere_iff (h : t.statement.kind = .update ∨ t.statement.kind = .delete) :
    (∃ f ∈ t.review, f.code = .missingWhere) ↔
      ∀ w ∈ t.statementTokens, ¬ w.isTopWord "where" := by
  have hwhere : t.statement.hasWhere = false ↔
      ∀ w ∈ t.statementTokens, ¬ w.isTopWord "where" := by
    rw [hasWhere_statement, List.any_eq_false]
  rw [← hwhere]
  constructor
  · rintro ⟨f, hf, hc⟩
    have hex := (explains_of_mem_review (a := ⟨t, t.placeholders, t.statement, .raw⟩) rfl hf).1
    rw [Analysis.Explains, hc] at hex
    exact hex.1
  · intro hw
    obtain ⟨f, hf⟩ : ∃ f, f ∈ t.statement.whereFinding? := by
      rcases h with h | h
      · exact ⟨_, by rw [Statement.whereFinding?, hw, h]; rfl⟩
      · exact ⟨_, by rw [Statement.whereFinding?, hw, h]; rfl⟩
    obtain ⟨⟨message, rfl⟩, -⟩ := Statement.eq_of_mem_whereFinding? hf
    refine ⟨_, List.mem_append_left _ (List.mem_append_left _ (Option.mem_toList.2 hf)), rfl⟩

/-! ### The anchor -/

/-- No two tokens start at one byte. -/
lemma eq_of_start_eq (hu : u ∈ t.tokens) (hv : v ∈ t.tokens) (h : u.start = v.start) : u = v := by
  have hnodup : (t.tokens.map (·.start)).Nodup :=
    List.pairwise_map.2 (t.pairwise_lt_tokens.imp Nat.ne_of_lt)
  exact List.inj_on_of_nodup_map hnodup hu hv h

lemma mem_tokens_of_mem_statementTokens (h : w ∈ t.statementTokens) : w.token ∈ t.tokens := by
  obtain ⟨us, hus, -⟩ := t.tokens_eq_append
  rw [hus]
  exact List.mem_append_left _ (List.mem_map_of_mem h)

/-- Where the first statement ends no word starts. -/
lemma start_ne_stop_of_getLast (hw : w ∈ t.statementTokens.getLast?) (hu : u ∈ t.tokens)
    (hk : u.kind = .word) : u.start ≠ w.token.stop := by
  obtain ⟨us, hus, hcases⟩ := t.tokens_eq_append
  obtain ⟨xs, hs⟩ := List.getLast?_eq_some_iff.1 hw
  rw [hs, List.map_append, List.map_singleton, List.append_assoc, List.singleton_append] at hus
  have hp := t.pairwise_stop_tokens
  rw [hus, List.pairwise_append, List.pairwise_cons] at hp
  obtain ⟨-, ⟨hlater, hus'⟩, hfront⟩ := hp
  have hlt := start_lt_stop hu
  have hw' := start_lt_stop (mem_tokens_of_mem_statementTokens (List.mem_of_mem_getLast? hw))
  have hmem := hu
  rw [hus, List.mem_append, List.mem_cons] at hmem
  rcases hmem with hmem | rfl | hmem
  · have := hfront u hmem w.token List.mem_cons_self
    omega
  · omega
  · -- the semicolon stands between the statement and the word
    rcases hcases with ⟨rfl, -⟩ | ⟨v, us', rfl, hv, -, -⟩
    · cases hmem
    · rcases List.mem_cons.1 hmem with rfl | hmem
      · rw [hk] at hv
        cases hv
      · have hvu := (List.pairwise_cons.1 hus').1 u hmem
        have hwv := hlater v List.mem_cons_self
        have hv' : v.start < v.stop := start_lt_stop (t := t) (by rw [hus]; simp)
        omega

lemma IsQualified.start_pos (h : t.IsQualified u) : 0 < u.start := by
  obtain ⟨p, -, -, xs, ys, e⟩ := h
  have hp := t.pairwise_lt_tokens
  rw [← e, List.append_assoc, List.pairwise_append] at hp
  have hpu := (List.pairwise_cons.1 hp.2.1).1 u List.mem_cons_self
  omega

/-- **The anchor is the start of a word behind a point** only where that word is the first to begin
a clause behind `WHERE`. -/
theorem exists_tailAt_of_whereAnchor (hu : u ∈ t.tokens) (hk : u.kind = .word)
    (hq : t.IsQualified u) (h : t.statement.whereAnchor = u.start) :
    ∃ pre w post, Statement.TailAt t.statementTokens pre w post ∧ w.token = u := by
  rw [whereAnchor_statement, Statement.anchor] at h
  cases htail : Statement.tail? t.statementTokens with
  | some n =>
    rw [htail, Option.getD_some] at h
    obtain ⟨pre, w, post, hw, hn⟩ := Statement.exists_tailAt htail
    have hmem : w ∈ t.statementTokens := by rw [hw.tokens]; simp
    exact ⟨pre, w, post, hw,
      eq_of_start_eq (mem_tokens_of_mem_statementTokens hmem) hu (hn.trans h)⟩
  | none =>
    rw [htail, Option.getD_none] at h
    cases hlast : t.statementTokens.getLast? with
    | none =>
      rw [hlast] at h
      exact absurd h hq.start_pos.ne
    | some w =>
      rw [hlast] at h
      exact absurd h.symm (start_ne_stop_of_getLast hlast hu hk)

/-! ### Columns and clauses -/

/-- **Columns are told from clauses** exactly when one of the words `WHERE` outside parentheses, if
there are any, stands behind no point, and neither does the first word that begins a clause behind
`WHERE`. -/
theorem passesOverColumns_iff (h : t.statement.kind = .update ∨ t.statement.kind = .delete) :
    t.PassesOverColumns ↔
      ((∃ w ∈ t.statementTokens, w.isTopWord "where") →
        ∃ w ∈ t.statementTokens, w.isTopWord "where" ∧ ¬ t.IsQualified w.token) ∧
      ∀ pre w post, Statement.TailAt t.statementTokens pre w post → ¬ t.IsQualified w.token := by
  constructor
  · rintro ⟨hreported, hanchored⟩
    constructor
    · rintro ⟨w, hw, htop⟩
      by_contra! hall
      exact (exists_missingWhere_iff h).1 (hreported hall) w hw htop
    · intro pre w post hw hq
      have hmem : w ∈ t.statementTokens := by rw [hw.tokens]; simp
      refine hanchored w.token (mem_tokens_of_mem_statementTokens hmem) hw.kind hq ?_
      rw [whereAnchor_statement, Statement.anchor, hw.tail?_eq, Option.getD_some]
  · rintro ⟨hwhere, htail⟩
    constructor
    · intro hall
      refine (exists_missingWhere_iff h).2 fun w hw htop => ?_
      obtain ⟨v, hv, hvtop, hvq⟩ := hwhere ⟨w, hw, htop⟩
      exact hvq (hall v hv hvtop)
    · intro u hu hk hq hanchor
      obtain ⟨pre, w, post, hw, rfl⟩ := exists_tailAt_of_whereAnchor hu hk hq hanchor
      exact htail pre w post hw hq

/-- An `UPDATE` whose `WHERE` and `LIMIT` are clauses. -/
def setsColumn : SqlText := ⟨.standard, "UPDATE t SET t.a = 1 WHERE b = 2 LIMIT 3".toList⟩

/-- An `UPDATE` without clauses that sets a column named `where`. -/
def setsWhere : SqlText := ⟨.mysql, "UPDATE t SET t.where = 1".toList⟩

/-- An `UPDATE` without clauses that reads a column named `limit`. -/
def readsLimit : SqlText := ⟨.mysql, "UPDATE t SET a = t.limit + 1".toList⟩

theorem passesOverColumns_setsColumn :
    setsColumn.statement.kind = .update ∧ setsColumn.PassesOverColumns := by
  have hk : setsColumn.statement.kind = .update := by decide +kernel
  refine ⟨hk, (passesOverColumns_iff (.inl hk)).2 ⟨fun _ => ?_, fun pre w post hw hq => ?_⟩⟩
  · decide +kernel
  · have htail : ∀ w ∈ setsColumn.statementTokens, setsColumn.IsQualified w.token →
        Statement.tail? setsColumn.statementTokens ≠ some w.token.start := by decide +kernel
    exact htail w (by rw [hw.tokens]; simp) hq hw.tail?_eq

/-- A column that is set is taken for a `WHERE`, and one that is read for a `LIMIT`. -/
theorem not_passesOverColumns :
    (setsWhere.statement.kind = .update ∧ ¬ setsWhere.PassesOverColumns) ∧
      readsLimit.statement.kind = .update ∧ ¬ readsLimit.PassesOverColumns := by
  have hwhere : (∀ w ∈ setsWhere.statementTokens, w.isTopWord "where" →
      setsWhere.IsQualified w.token) ∧ ¬ ∃ f ∈ setsWhere.review, f.code = .missingWhere := by
    decide +kernel
  have hlimit : ∃ u ∈ readsLimit.tokens, u.kind = .word ∧ readsLimit.IsQualified u ∧
      readsLimit.statement.whereAnchor = u.start := by decide +kernel
  refine ⟨⟨by decide +kernel, fun h => hwhere.2 (h.reported hwhere.1)⟩, by decide +kernel, ?_⟩
  intro h
  obtain ⟨u, hu, hk, hq, hanchor⟩ := hlimit
  exact h.anchored u hu hk hq hanchor

end SqlText

end QueryGuard
