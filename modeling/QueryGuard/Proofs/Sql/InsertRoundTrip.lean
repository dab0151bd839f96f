import QueryGuard.Proofs.Guard.Origin
import QueryGuard.Proofs.Sql.InsertHead
import QueryGuard.Proofs.Sql.Ranges
import QueryGuard.Proofs.Sql.Rows

/-!
Reading a written `INSERT`. Main statement: whatever names, entries and gaps an `INSERT` with a
column list is written with, it is read as an `INSERT` into that table with those columns and those
rows, and the findings on field counts are on the rows that are too long or too short.
-/

namespace QueryGuard

open Lexeme

variable {d : Dialect}

/-! ### Findings on field counts -/

namespace Reconciliation

lemma map_span_filterMap_mapIdx (n : Nat) (rs : List ValueRow) (f : Nat → ValueRow → Finding)
    (hf : ∀ i r, (f i r).span = some r.span) :
    ((rs.mapIdx fun i r => if r.entries.length ≠ n then some (f i r) else none).filterMap id).map
        (·.span) = (rs.filter (·.entries.length ≠ n)).map (some ·.span) := by
  induction rs generalizing f with
  | nil => rfl
  | cons r rs ih =>
    have ih := ih (fun i => f (i + 1)) fun i => hf (i + 1)
    rw [List.mapIdx_cons]
    by_cases hr : r.entries.length = n
    · simpa [hr] using ih
    · simpa [hr, hf] using ih

/-- **The findings on field counts** of an `INSERT` with a column list: one for each row that has
not as many entries as there are columns, in order and at its place. -/
theorem map_span_reconcile {s : Statement} {columns : List String} (hk : s.kind = .insert)
    (hc : s.columns = some columns) (ps : List Placeholder) (supplied : Supplied) :
    ((reconcile ps supplied s).filter (·.code == .fieldCountMismatch)).map (·.span) =
      (s.valueRows.filter (·.entries.length ≠ columns.length)).map (some ·.span) := by
  have hother : ((Placeholder.mixedFinding? ps).toList ++ bindings ps supplied).filter
      (·.code == .fieldCountMismatch) = [] := by
    refine List.filter_eq_nil_iff.2 fun f hf => ?_
    rcases List.mem_append.1 hf with hf | hf
    · obtain ⟨message, rfl⟩ := Placeholder.eq_of_mem_mixedFinding? (Option.mem_toList.1 hf)
      exact nofun
    · rcases code_of_mem_bindings hf with ⟨h, -⟩ | h | h
      · simp [h]
      · simp [h]
      · simp [h]
  have hrows : (rows s).filter (·.code == .fieldCountMismatch) = rows s := by
    refine List.filter_eq_self.2 fun f hf => ?_
    rw [(mem_of_mem_rows hf).1]
    rfl
  rw [reconcile, List.filter_append, hother, hrows, List.nil_append, rows, hk, hc]
  exact map_span_filterMap_mapIdx _ _ _ fun _ _ => rfl

end Reconciliation

namespace InsertForm

variable (i : InsertForm d)

/-- The statement as a string. -/
def sql : String := String.ofList i.text

lemma ofString_sql : SqlText.ofString d i.sql = ⟨d, i.text⟩ := by
  rw [SqlText.ofString, sql, String.toList_ofList]

/-! ### Tokens and rows -/

/-- The tokens of the statement are all tokens of the text, and its rows are read off them. -/
lemma rows_statementTokens :
    (SqlText.mk d i.text).statementStop = (SqlText.mk d i.text).width ∧
      Statement.rows (SqlText.mk d i.text).parenLists (SqlText.mk d i.text).statementTokens =
        i.valueRows := by
  obtain ⟨ws, o, cs, c, v, htokens, hws, ho, hcs, hc, hv⟩ := i.exists_tokens
  have hrows := i.rows_rowLexemes (Text.width i.front)
  have hvk : v.kind = .word := (Token.isWord_iff.1 hv).1
  have hnested : Token.Kind.Nested (· ≠ .semicolon)
      ((SqlText.mk d i.text).tokens.map (·.kind)) := by
    rw [htokens, List.map_append, List.map_cons, List.map_append, List.map_cons, List.map_cons, ho,
      hc, hvk]
    refine .append (Token.Kind.nested_of_forall fun k hk => ?_)
      (.parens hcs (.cons (by decide) (by decide) (by decide) (hrows.nested (by decide))))
    obtain ⟨w, hw, rfl⟩ := List.mem_map.1 hk
    exact (hws w hw).1
  obtain ⟨hts, hstop⟩ := SqlText.statement_of_nested _ hnested
  refine ⟨hstop, ?_⟩
  have hlt := (SqlText.mk d i.text).pairwise_lt_tokens
  rw [SqlText.parenLists, hts, DeepToken.map_token_ofTokens]
  rw [htokens] at hlt ⊢
  refine Statement.rows_eq (fun w hw => ?_) ho hcs hc hv hrows hlt
  obtain ⟨⟨hopen, hclose, -⟩, hvalues, hvalue⟩ := hws w hw
  exact ⟨hopen, hclose, hvalues, hvalue⟩

/-! ### The head -/

lemma statementHead_eq : (SqlText.mk d i.text).statementHead = maskOf i.lexemes := by
  have h : (SqlText.mk d i.text).ReadAs (i.lexemes ++ []) := by
    rw [List.append_nil]
    exact i.readAs
  have hw : (SqlText.mk d i.text).width = Text.width (textOf i.lexemes) := by
    rw [i.textOf_lexemes]
    rfl
  rw [SqlText.statementHead, i.rows_statementTokens.1, hw, h.takeBytes_masked]

lemma leadingWord?_insert :
    Head.leadingWord? i.insert.text = some (String.ofList i.insert.text) := by
  have hne := i.insert.text_ne_nil (by decide)
  have hletters : ∀ c ∈ i.insert.text, Text.isAlphabetic c := fun c hc =>
    i.insert.isAlphabetic_of_mem (by decide) hc
  have hskip : Head.skipGap i.insert.text = i.insert.text := by
    have h := i.insert.isGap_of_head?_text (by decide) (s := [])
    rw [List.append_nil] at h
    exact Head.skipGap_of_head? h
  rw [Head.leadingWord?, hskip, List.takeWhile_eq_self_iff.2 hletters]
  obtain ⟨c, cs, hc⟩ := List.exists_cons_of_ne_nil hne
  rw [hc]

lemma kind_eq : (SqlText.mk d i.text).statement.kind = .insert := by
  have hword : Head.leadingWord? (SqlText.mk d i.text).statementHead =
      some (String.ofList i.insert.text) := by
    have hw : Text.width i.insert.text ≤ (SqlText.mk d i.text).statementStop := by
      rw [i.rows_statementTokens.1, SqlText.width]
      show Text.width i.insert.text ≤ Text.width i.text
      rw [text, front, List.append_assoc, Text.width_append]
      exact Nat.le_add_right _ _
    have hread : ∃ rs, i.lexemes = [] ++ word i.insert.text :: rs := ⟨_, rfl⟩
    obtain ⟨rs, hrs⟩ := hread
    have hreading := i.readAs.reading
    rw [SqlText.statementHead, i.readAs.masked, ← i.leadingWord?_insert]
    rw [hrs] at hreading ⊢
    refine leadingWord?_eq hreading (List.forall_mem_nil _) rfl ?_
    rwa [textOf_nil, Text.width_nil, Nat.zero_add]
  have hlower : Text.lower (String.ofList i.insert.text).toList = "insert".toList := by
    rw [String.toList_ofList, i.insert.lower_eq]
  rw [SqlText.kind_statement, hword, Statement.Kind.ofKeyword]
  simp only [Text.sameWord, hlower]
  decide

lemma table_eq : (SqlText.mk d i.text).statement.table = some i.tableName := by
  have hk := i.kind_eq
  rw [SqlText.kind_statement] at hk
  dsimp only [SqlText.statement]
  rw [hk, i.statementHead_eq, i.insert?_maskOf]
  rfl

lemma columns_eq : (SqlText.mk d i.text).statement.columns = some i.columnNames := by
  have hk := i.kind_eq
  rw [SqlText.kind_statement] at hk
  dsimp only [SqlText.statement]
  rw [hk, i.statementHead_eq, i.insert?_maskOf]
  rfl

lemma valueRows_eq : (SqlText.mk d i.text).statement.valueRows = i.valueRows := by
  rw [SqlText.valueRows_statement, if_pos i.kind_eq, i.rows_statementTokens.2]

/-! ### Reading back -/

/-- **A written `INSERT` is read back exactly**: its kind, the name of its table, its columns, and
its rows with their entries and places. The findings on field counts are one for each row that has
not as many entries as there are columns, in order and at the place of the row. -/
theorem statement_sql (supplied : Supplied) :
    (SqlText.ofString d i.sql).statement.kind = .insert ∧
      (SqlText.ofString d i.sql).statement.table = some i.tableName ∧
      (SqlText.ofString d i.sql).statement.columns = some i.columnNames ∧
      (SqlText.ofString d i.sql).statement.valueRows = i.valueRows ∧
      ((reconcile (SqlText.ofString d i.sql).placeholders supplied
          (SqlText.ofString d i.sql).statement).filter (·.code == .fieldCountMismatch)).map
            (·.span) =
        (i.valueRows.filter (·.entries.length ≠ i.columns.length)).map (some ·.span) := by
  rw [i.ofString_sql]
  refine ⟨i.kind_eq, i.table_eq, i.columns_eq, i.valueRows_eq, ?_⟩
  rw [Reconciliation.map_span_reconcile i.kind_eq i.columns_eq, i.valueRows_eq, columnNames,
    List.length_map]

/-- Two rows for one column, of which the first has two entries. -/
def twoForOne : InsertForm .standard where
  insert := ⟨"Insert".toList, by decide⟩
  afterInsert := [.blank ' ' rfl]
  into := ⟨"into".toList, by decide⟩
  afterInto := [.blank ' ' rfl]
  table := [.bare 's' [] (by decide) nofun, .bare 't' [] (by decide) nofun]
  afterTable := [.blank ' ' rfl]
  columns := [⟨[], .bare 'a' [] (by decide) nofun, []⟩]
  afterColumns := [.blank ' ' rfl]
  values := ⟨"VALUES".toList, by decide⟩
  rows :=
    [⟨[.blank ' ' rfl], .entries [⟨[], .mark, [], nofun⟩,
        ⟨[.blank ' ' rfl], .signed '-' [] ⟨'1', [], [], by decide, nofun, .inl rfl⟩ (.inl rfl) nofun,
          [], by decide⟩] nofun, [.block [] (by decide)]⟩,
      ⟨[], .entries [⟨[], .number ⟨'2', ['.', '5'], [], by decide, List.all_eq_true.1 (by decide),
        .inl rfl⟩, [], by decide⟩] nofun, []⟩]
  afterInsert_ne := nofun
  afterInto_ne := nofun
  table_ne := nofun
  table_words := by decide
  columns_ne := nofun
  rows_ne := nofun

theorem statement_twoForOne :
    twoForOne.sql = "Insert into s.t (a) VALUES (?, -1)/**/,(2.5)" ∧
      (SqlText.ofString .standard twoForOne.sql).statement.valueRows =
        [⟨[.placeholder, .literal], 27, 34⟩, ⟨[.literal], 39, 44⟩] ∧
      ((reconcile (SqlText.ofString .standard twoForOne.sql).placeholders .raw
          (SqlText.ofString .standard twoForOne.sql).statement).filter
            (·.code == .fieldCountMismatch)).map (·.span) = [some ⟨27, 34⟩] := by
  obtain ⟨-, -, -, hrows, hfindings⟩ := statement_sql twoForOne .raw
  exact ⟨by decide, hrows.trans (by decide), hfindings.trans (by decide)⟩

end InsertForm

end QueryGuard
