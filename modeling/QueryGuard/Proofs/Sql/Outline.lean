import QueryGuard.Proofs.Sql.Head
import QueryGuard.Proofs.Sql.Relocation

/-!
The outline of a text: what is found in it, without the places and without what its literals say.
Main statement: texts have the same outline when the tokens of one are those of the other at other
places and their heads agree up to a quote.
-/

namespace QueryGuard

namespace SqlText

/-! ### The parts of a statement -/

variable (t : SqlText)

lemma kind_statement : t.statement.kind = .ofKeyword (Head.leadingWord? t.statementHead) := by
  dsimp only [statement]
  split <;> rfl

lemma stop_statement : t.statement.stop = t.statementStop := by
  dsimp only [statement]
  split <;> rfl

lemma hasWhere_statement :
    t.statement.hasWhere = t.statementTokens.any (·.isTopWord "where") := by
  dsimp only [statement]
  split <;> rfl

lemma columns_statement : t.statement.columns =
    if t.statement.kind = .insert then (Head.insert? t.statementHead).bind (·.2) else none := by
  rw [kind_statement]
  dsimp only [statement]
  split <;> next h => simp [h]

lemma setColumns_statement : t.statement.setColumns =
    if t.statement.kind = .update then Statement.assigned t.statementTokens else [] := by
  rw [kind_statement]
  dsimp only [statement]
  split <;> next h => simp [h]

lemma valueRows_statement : t.statement.valueRows =
    if t.statement.kind = .insert then Statement.rows t.parenLists t.statementTokens else [] := by
  rw [kind_statement]
  dsimp only [statement]
  split <;> next h => simp [h]

lemma isSome_star_statement : t.statement.star.isSome =
    (t.statement.kind == .select && (Head.star? t.statementHead).isSome) := by
  rw [kind_statement]
  dsimp only [statement]
  split <;> next h => simp [h]

/-! ### The codes of the findings -/

lemma map_code_review : t.review.map (·.code) =
    t.statement.whereFinding?.toList.map (·.code) ++
      (if t.statement.star.isSome then [.selectStar] else []) ++
        List.replicate (t.listsByOpening.flatMap ParenList.hardcoded).length .hardcodedValue := by
  rw [review, List.map_append, List.map_append, List.map_map]
  congr 1
  · congr 1
    rw [Statement.starFinding?]
    cases t.statement.star <;> rfl
  · exact List.map_const' ..

end SqlText

lemma Statement.map_code_whereFinding? {s s' : Statement} (hk : s'.kind = s.kind)
    (hw : s'.hasWhere = s.hasWhere) :
    s'.whereFinding?.toList.map (·.code) = s.whereFinding?.toList.map (·.code) := by
  dsimp only [whereFinding?]
  rw [hw, hk]
  split
  · rfl
  · split <;> rfl

/-! ### Outlines -/

/-- What is found in a text, without the places and without what its literals say. -/
structure Outline where
  /-- The placeholders, each with its number. -/
  placeholders : List (Placeholder.Style × Nat)
  tokens : List Token.Kind
  kind : Statement.Kind
  hasWhere : Bool
  setColumns : List String
  /-- The entries of each row. -/
  valueRows : List (List Entry)
  findings : List FindingCode
  deriving DecidableEq, Repr

namespace SqlText

/-- The outline of the text. -/
def outline (t : SqlText) : Outline where
  placeholders := t.placeholders.map fun p => (p.style, p.ordinal)
  tokens := t.tokens.map (·.kind)
  kind := t.statement.kind
  hasWhere := t.statement.hasWhere
  setColumns := t.statement.setColumns
  valueRows := t.statement.valueRows.map (·.entries)
  findings := t.review.map (·.code)

variable {t t' : SqlText} {g : Token → Token}

/-- **The outline does not depend on places**, nor on the texts of strings. -/
theorem outline_eq (h : Token.Relocates g) (ho : Token.KeepsOrder g t.tokens)
    (e : t'.tokens = t.tokens.map g)
    (hp : t'.placeholders.map (fun p => (p.style, p.ordinal)) =
      t.placeholders.map fun p => (p.style, p.ordinal))
    (hh : AgreeToQuote t'.statementHead t.statementHead) : t'.outline = t.outline := by
  have hts := statementTokens_map h e
  have hkind : t'.statement.kind = t.statement.kind := by
    rw [kind_statement, Head.leadingWord?_agree hh, kind_statement]
  have hwhere : t'.statement.hasWhere = t.statement.hasWhere := by
    rw [hasWhere_statement, hts, Statement.any_isTopWord_map h, hasWhere_statement]
  have hset : t'.statement.setColumns = t.statement.setColumns := by
    rw [setColumns_statement, hkind, hts, Statement.assigned,
      Statement.after_map fun t => t.isTopWord_relocate h "set", Statement.targets_map h,
      setColumns_statement, Statement.assigned]
  have hrows : t'.statement.valueRows.map (·.entries) =
      t.statement.valueRows.map (·.entries) := by
    rw [valueRows_statement, valueRows_statement, hkind, hts, parenLists_map h e]
    split
    · exact Statement.rows_map h ho (fun l => mem_tokens_of_mem_parenLists)
        fun u => token_mem_of_mem_statementTokens
    · rfl
  have hstar : t'.statement.star.isSome = t.statement.star.isSome := by
    rw [isSome_star_statement, hkind, Head.isSome_star?_agree hh, isSome_star_statement]
  have hfind : t'.review.map (·.code) = t.review.map (·.code) := by
    rw [map_code_review, map_code_review, hstar, length_hardcoded_map h e,
      Statement.map_code_whereFinding? hkind hwhere]
  have htok : t'.tokens.map (·.kind) = t.tokens.map (·.kind) := by
    rw [e, List.map_map]
    exact List.map_congr_left fun u _ => h.kind u
  simp only [outline, hp, htok, hkind, hwhere, hset, hrows, hfind]

end SqlText

end QueryGuard
