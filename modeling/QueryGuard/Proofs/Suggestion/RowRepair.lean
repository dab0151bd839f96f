import Mathlib.Logic.Function.Iterate
import QueryGuard.Proofs.Sql.Replacement
import QueryGuard.Proofs.Sql.ValuesClause
import QueryGuard.Proofs.Suggestion.Gains
import QueryGuard.Proofs.Suggestion.RebuiltRow

/-!
A rebuilt row, read again. Main statement: where the column list of an `INSERT` ends in front of its
`VALUES`, the text that is suggested for a row with too many or too few entries has a placeholder
for each column in this row and the same entries in the others, and one finding on field counts
less. So the first such finding, repaired again and again, leaves none.
-/

namespace QueryGuard

open ParenList Statement

/-! ### Rows of question marks -/

/-- The items of a row of question marks are placeholders. -/
lemma Lexeme.lists_entries (pos n : Nat) :
    Lists (tokens pos (entries n)) (List.replicate n .placeholder) := by
  have hmark : ∀ pos, IsItem [⟨.placeholder, pos, ['?']⟩] .placeholder := fun pos =>
    ⟨List.cons_ne_nil _ _, .cons nofun nofun nofun .nil, rfl⟩
  induction n using entries.induct generalizing pos with
  | case1 => exact .empty
  | case2 => exact .one (hmark pos)
  | case3 n ih =>
    exact .cons (c := ⟨.comma, pos + 1, [',']⟩) (hmark pos) rfl (ih (pos + 1 + 1 + 1))

namespace Parens

/-- The parentheses of a row of question marks that starts at byte `pos`. -/
def ofRow (pos n : Nat) : Parens where
  opening := ⟨.openParen, pos, ['(']⟩
  inner := Lexeme.tokens (pos + 1) (Lexeme.entries n)
  closing := ⟨.closeParen, pos + 1 + Text.width (Lexeme.textOf (Lexeme.entries n)), [')']⟩
  opening_kind := rfl
  nested := (Lexeme.lists_entries (pos + 1) n).nested
  closing_kind := rfl

lemma tokens_ofRow (pos n : Nat) : (ofRow pos n).tokens = Lexeme.tokens pos (Lexeme.row n) := by
  have hopen : Lexeme.tokens pos (Lexeme.row n) = (ofRow pos n).opening ::
      Lexeme.tokens (pos + 1) (Lexeme.entries n ++ [Lexeme.single ')']) := rfl
  rw [hopen, Lexeme.tokens_append]
  rfl

lemma entries_ofRow (pos n : Nat) :
    (ofRow pos n).list.entries = List.replicate n .placeholder :=
  (ofRow pos n).entries_list (Lexeme.lists_entries (pos + 1) n)

end Parens

/-! ### The statement with a rebuilt row -/

namespace SqlText

variable {t t' : SqlText} {pre post : List DeepToken} {v : DeepToken} {p : Parens}
  {ps qs : List Parens} {as bs cs : List Lexeme} {n : Nat}

/-- The head begins with the lexemes in front of a token of the statement. -/
lemma ReadAs.takeBytes_statementHead (h : t.ReadAs (as ++ cs))
    (hw : Lexeme.tokens 0 as <+: t.statementTokens.map (·.token))
    (hn : n ≤ Text.width (Lexeme.textOf as)) :
    Text.takeBytes n t.statementHead = Text.takeBytes n (Lexeme.maskOf as) := by
  have hstop := width_le_statementStop as cs h hw
  rw [← Lexeme.width_maskOf] at hn hstop
  rw [statementHead, h.masked, Lexeme.maskOf_append, Text.takeBytes_append_of_ge hstop,
    Text.takeBytes_append_of_le hn]

/-- **A row of question marks may take the place of a row.** The columns and the other rows are
those of the statement as it was. -/
theorem ValuesAt.exists_of_row (h : t.ValuesAt pre v post) (he : t.ColumnsEndBy v.token.start)
    (hl : ListsFrom (post.map (·.token)) (ps ++ p :: qs)) (hcut : t.Cut p.span as bs cs)
    (h' : t'.ReadAs (as ++ (Lexeme.row n ++ cs))) :
    (t'.statement.kind = t.statement.kind ∧ t'.statement.columns = t.statement.columns ∧
      t'.ColumnsEndBy v.token.start) ∧
    ∃ post' lists, t'.ValuesAt pre v post' ∧ ListsFrom (post'.map (·.token)) lists ∧
      lists.map (·.list.entries) = ps.map (·.list.entries) ++
        List.replicate n .placeholder :: qs.map (·.list.entries) := by
  obtain ⟨front, back, hpost, hnew⟩ := hl.exists_replace
  obtain ⟨us, hus, -⟩ := t.tokens_eq_append
  have hstmt : t.statementTokens.map (·.token) =
      (pre.map (·.token) ++ v.token :: front) ++ (p.tokens ++ back) := by
    rw [h.tokens, List.map_append, List.map_cons, hpost, List.append_assoc, List.cons_append]
  have htokens : t.tokens =
      (pre.map (·.token) ++ v.token :: front) ++ (p.tokens ++ (back ++ us)) := by
    rw [hus, hstmt]
    simp
  -- the row is cut out of the tokens, and the question marks are put in
  have hlast : p.tokens.getLast? = some p.closing := by
    rw [Parens.tokens, ← List.cons_append, List.getLast?_concat]
  obtain ⟨has, -, -, hrep⟩ := hcut.replaces h' htokens rfl hlast rfl
  rw [← Parens.tokens_ofRow] at hrep
  generalize Token.moveFrom _ _ = g at hrep
  have hstmt' := hrep.map_token p.nested_tokens (Parens.ofRow p.span.start n).nested_tokens hstmt
  refine ⟨he.head_eq ?_, DeepToken.ofTokens 0 (front ++ ((Parens.ofRow p.span.start n).tokens ++
    back.map g)), ps ++ Parens.ofRow p.span.start n :: qs.map (Parens.relocate · hrep.relocates),
    ⟨?_, h.first, h.isValues⟩, ?_, ?_⟩
  · -- what stands in front of the word `VALUES` is part of both heads
    have hle : v.token.start ≤ Text.width (Lexeme.textOf as) := by
      rw [← hcut.start]
      refine (hcut.places.1 v.token ?_).le
      rw [has]
      simp
    rw [h'.takeBytes_statementHead ⟨_, has ▸ hstmt'.symm⟩ hle,
      hcut.readAs.takeBytes_statementHead ⟨_, has ▸ hstmt.symm⟩ hle]
  · rw [← t'.ofTokens_statementTokens, hstmt', List.append_assoc, List.cons_append, h.ofTokens_eq]
  · rw [DeepToken.map_token_ofTokens]
    exact hnew _ hrep.relocates
  · rw [List.map_append, List.map_cons, Parens.entries_ofRow, List.map_map]
    congr 2
    exact List.map_congr_left fun q _ => by
      rw [Function.comp_apply, q.list_relocate, ParenList.entries_relocate hrep.relocates]

end SqlText

/-- The column list of the `INSERT` ends in front of its first `VALUES` or `VALUE`. -/
def SqlText.ColumnsBeforeValues (t : SqlText) : Prop :=
  ∃ pre v post, t.ValuesAt pre v post ∧ t.ColumnsEndBy v.token.start

/-! ### The findings on field counts -/

namespace Analysis

variable {a b : Analysis} {f : Finding}

/-- The findings on rows with too many or too few entries. -/
def fieldCountFindings (a : Analysis) : List Finding :=
  (reconcile a.placeholders a.supplied a.statement).filter (·.code == .fieldCountMismatch)

/-- There is one for each row whose entries are not as many as the columns. -/
lemma length_fieldCountFindings (hk : a.statement.kind = .insert) {columns : List String}
    (hc : a.statement.columns = some columns) : a.fieldCountFindings.length =
      (a.statement.valueRows.map (·.entries)).countP (·.length ≠ columns.length) := by
  have hlen := congrArg List.length
    (Reconciliation.map_span_reconcile hk hc a.placeholders a.supplied)
  rw [List.length_map, List.length_map] at hlen
  rw [fieldCountFindings, hlen, List.countP_map, List.countP_eq_length_filter]
  rfl

/-- Such a finding is on a row of an `INSERT`. -/
lemma exists_of_mem_fieldCountFindings (hf : f ∈ a.fieldCountFindings) :
    f.code = .fieldCountMismatch ∧ a.statement.kind = .insert ∧
      ∃ columns r, a.statement.columns = some columns ∧ r ∈ a.statement.valueRows ∧
        r.entries.length ≠ columns.length ∧ f.span = some r.span := by
  obtain ⟨hrec, hcode⟩ := List.mem_filter.1 hf
  have hcode : f.code = .fieldCountMismatch := by simpa using hcode
  have hex := explains_of_mem_reconcile hrec
  rw [Explains, hcode] at hex
  obtain ⟨hk, columns, hc, -⟩ := hex
  have hmem : f.span ∈ (a.statement.valueRows.filter
      (·.entries.length ≠ columns.length)).map (some ·.span) := by
    rw [← Reconciliation.map_span_reconcile hk hc a.placeholders a.supplied]
    exact List.mem_map_of_mem hf
  obtain ⟨r, hr, hspan⟩ := List.mem_map.1 hmem
  obtain ⟨hr, hne⟩ := List.mem_filter.1 hr
  exact ⟨hcode, hk, columns, r, hc, hr, of_decide_eq_true hne, hspan.symm⟩

/-- In `b` row number `k` of `a`, where the finding is, has a placeholder for each column, the
columns and the other rows are the same, and there is one finding on field counts less. -/
structure RepairsRow (a : Analysis) (f : Finding) (k : Nat) (b : Analysis) : Prop where
  span : ∃ r, a.statement.valueRows[k]? = some r ∧ f.span = some r.span
  columns : b.statement.columns = a.statement.columns
  entries : b.statement.valueRows.map (·.entries) =
    (a.statement.valueRows.map (·.entries)).set k (.replicate a.columns.length .placeholder)
  findings : b.fieldCountFindings.length + 1 = a.fieldCountFindings.length

/-- **The template for a row repairs it**, and it leaves the column list in front of `VALUES`. -/
theorem repairsRow_fieldCount (hs : a.statement = a.text.statement)
    (hv : a.text.ColumnsBeforeValues) (hf : f ∈ a.fieldCountFindings)
    (hb : b.text = a.rewritten f) (hbs : b.statement = b.text.statement) :
    (∃ k, a.RepairsRow f k b) ∧ b.text.ColumnsBeforeValues := by
  obtain ⟨pre, v, post, hat, hend⟩ := hv
  obtain ⟨hcode, hk, columns, r, hc, hr, hne, hspan⟩ := exists_of_mem_fieldCountFindings hf
  obtain ⟨span, as, bs, cs, hfspan, hcut, -, hread⟩ := rebuilds_fieldCount hs ⟨r, hr, hspan⟩
  have htext : b.text = ⟨a.text.dialect, (a.fieldCount f).chars⟩ := by
    rw [hb, rewritten, template, hcode]
  rw [← htext] at hread
  -- the row of the finding is one of the lists behind `VALUES`
  obtain ⟨lists, hl⟩ := exists_listsFrom (post.map (·.token))
  have hrows : a.statement.valueRows = lists.map Parens.row := by
    rw [hs] at hk ⊢
    exact hat.valueRows_eq hk hl
  rw [hrows] at hr
  obtain ⟨p, hp, rfl⟩ := List.mem_map.1 hr
  obtain ⟨ps, qs, rfl⟩ := List.append_of_mem hp
  obtain rfl : span = p.span := Option.some.inj (hfspan.symm.trans hspan)
  obtain ⟨⟨hkind, hcols, hend'⟩, post', lists', hat', hl', hentries⟩ :=
    hat.exists_of_row hend hl hcut hread
  rw [← hbs, ← hs] at hkind hcols
  have hrows' : b.statement.valueRows = lists'.map Parens.row := by
    rw [← hkind, hbs] at hk
    rw [hbs]
    exact hat'.valueRows_eq hk hl'
  have hmap : ∀ ls : List Parens, (ls.map Parens.row).map (·.entries) =
      ls.map (·.list.entries) := fun ls => List.map_map
  have hold : a.statement.valueRows.map (·.entries) =
      ps.map (·.list.entries) ++ p.list.entries :: qs.map (·.list.entries) := by
    rw [hrows, hmap, List.map_append, List.map_cons]
  have hnew : b.statement.valueRows.map (·.entries) = ps.map (·.list.entries) ++
      List.replicate a.columns.length .placeholder :: qs.map (·.list.entries) := by
    rw [hrows', hmap, hentries]
  refine ⟨⟨ps.length, ⟨p.row, ?_, hspan⟩, hcols, ?_, ?_⟩, pre, v, post', hat', hend'⟩
  · rw [hrows, List.map_append, List.map_cons, List.getElem?_append_right (by simp)]
    simp
  · rw [hnew, hold, List.set_append_right _ _ (by simp)]
    simp
  · have hcolumns : a.columns = columns := by rw [Analysis.columns, hc, Option.getD_some]
    have hne : p.list.entries.length ≠ columns.length := hne
    rw [length_fieldCountFindings (hkind.trans hk) (hcols.trans hc),
      length_fieldCountFindings hk hc, hnew, hold, hcolumns]
    simp [hne]
    omega

end Analysis

/-! ### Repairing a query -/

namespace Query

variable {q : Query} {d : Dialect}

/-- The query with another SQL text. -/
def withSql (sql : String) : Query → Query
  | raw _ => raw sql
  | prepared _ params => prepared sql params

lemma sql_withSql (sql : String) (q : Query) : (q.withSql sql).sql = sql := by
  cases q <;> rfl

/-- The query with the text that is suggested for the first finding on field counts, if there is
one. -/
def repairRow (d : Dialect) (q : Query) : Query :=
  match (q.analysis d).fieldCountFindings with
  | [] => q
  | f :: _ => q.withSql (Suggestion.ofFinding (q.analysis d) f).query

/-- **The suggestion for a row with too many or too few entries repairs exactly this row**, and
repaired one by one, the rows leave no such finding. -/
theorem repairsRow_suggestion (hv : (q.analysis d).text.ColumnsBeforeValues) :
    (∀ f ∈ (q.analysis d).fieldCountFindings, ∃ k, (q.analysis d).RepairsRow f k
      ((q.withSql (Suggestion.ofFinding (q.analysis d) f).query).analysis d)) ∧
    ∀ m, (((repairRow d)^[m] q).analysis d).fieldCountFindings.length =
      (q.analysis d).fieldCountFindings.length - m := by
  have hstep : ∀ {q : Query}, (q.analysis d).text.ColumnsBeforeValues →
      ∀ f ∈ (q.analysis d).fieldCountFindings,
        (∃ k, (q.analysis d).RepairsRow f k
          ((q.withSql (Suggestion.ofFinding (q.analysis d) f).query).analysis d)) ∧
        ((q.withSql (Suggestion.ofFinding (q.analysis d) f).query).analysis
          d).text.ColumnsBeforeValues := by
    intro q hv f hf
    refine Analysis.repairsRow_fieldCount rfl hv hf ?_ rfl
    show SqlText.ofString d _ = _
    rw [sql_withSql]
    exact (q.analysis d).ofString_query f
  refine ⟨fun f hf => (hstep hv f hf).1, fun m => ?_⟩
  -- with one finding less after each repair; without findings a repair changes nothing
  induction m generalizing q with
  | zero => rfl
  | succ m ih =>
    rw [Function.iterate_succ_apply]
    cases hfs : (q.analysis d).fieldCountFindings with
    | nil =>
      have hrepair : q.repairRow d = q := by rw [repairRow, hfs]
      rw [hrepair, ih hv, hfs]
      simp
    | cons f fs =>
      have hrepair : q.repairRow d =
          q.withSql (Suggestion.ofFinding (q.analysis d) f).query := by rw [repairRow, hfs]
      obtain ⟨⟨k, hk⟩, hv'⟩ := hstep hv f (hfs ▸ List.mem_cons_self)
      have hone := hk.findings
      rw [hrepair, ih hv', ← hfs, ← hone]
      omega

/-- A row with an entry too many, and one with an entry too few behind a comment. -/
def twoRows : Query := .raw "INSERT INTO t (a, b) VALUES (1, f(x, 2), ?), /* ( */ ('x'); SELECT 1"

theorem repairsRow_twoRows : (twoRows.analysis .standard).text.ColumnsBeforeValues ∧
    (∀ f ∈ (twoRows.analysis .standard).fieldCountFindings, ∃ k,
      (twoRows.analysis .standard).RepairsRow f k ((twoRows.withSql
        (Suggestion.ofFinding (twoRows.analysis .standard) f).query).analysis .standard)) ∧
    ∀ m, (((repairRow .standard)^[m] twoRows).analysis .standard).fieldCountFindings.length =
      2 - m := by
  have hv : (twoRows.analysis .standard).text.ColumnsBeforeValues :=
    ⟨(twoRows.analysis .standard).text.statementTokens.take 8, ⟨⟨.word, 21, "VALUES".toList⟩, 0⟩,
      (twoRows.analysis .standard).text.statementTokens.drop 9,
      ⟨by decide +kernel, by decide +kernel, by decide +kernel⟩, by decide +kernel⟩
  have htwo : (twoRows.analysis .standard).fieldCountFindings.length = 2 := by decide +kernel
  exact ⟨hv, htwo ▸ repairsRow_suggestion hv⟩

end Query

end QueryGuard
