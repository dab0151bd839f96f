import QueryGuard.Proofs.Guard.Origin
import QueryGuard.Proofs.Sql.Clause

/-!
What is suggested for an `UPDATE` or `DELETE` of a whole table. Main statement: the suggested text
is the text with one clause put in at the anchor, it has a `WHERE` clause, and its new placeholder
stands where the new bind stands among the binds.
-/

namespace QueryGuard

variable {d : Dialect}

/-- A name of letters, digits and underscores that does not begin with a digit. -/
def IsPlainName (name : String) : Prop :=
  name.toList.head?.any Placeholder.beginsName ∧ ∀ c ∈ name.toList, Placeholder.continuesName c

lemma insertIdx_length_append {α : Type*} (xs ys : List α) (x : α) :
    (xs ++ ys).insertIdx xs.length x = xs ++ x :: ys := by
  induction xs with
  | nil => rfl
  | cons y xs ih => rw [List.length_cons, List.cons_append, List.insertIdx_succ_cons, ih]; rfl

namespace Analysis

/-- The style of the placeholder in the new clause. -/
def whereStyle (a : Analysis) : Placeholder.Style :=
  if Placeholder.protocol a.placeholders = .named then .named a.idColumn else .positional

/-- The text has one clause more than that of the analysis, and it is a `WHERE` clause. -/
structure Repairs (a : Analysis) (t : SqlText) : Prop where
  chars : t.chars = Text.takeBytes a.statement.whereAnchor a.text.chars ++
    (a.whereClause.toList ++ Text.dropBytes a.statement.whereAnchor a.text.chars)
  /-- The anchor does not cut a character. -/
  boundary : Text.width (Text.takeBytes a.statement.whereAnchor a.text.chars) =
    a.statement.whereAnchor
  kind : t.statement.kind = a.statement.kind
  hasWhere : t.statement.hasWhere = true
  clean : ∀ g ∈ t.review, g.code ≠ .missingWhere
  placeholders : IsPlainName a.idColumn → a.bindsBeforeWhere ≤ a.placeholders.length ∧
    t.placeholders.map (·.style) =
      (a.placeholders.map (·.style)).insertIdx a.bindsBeforeWhere a.whereStyle

/-! ### The clause -/

/-- The blank behind a clause that stands in front of a later one. -/
def gapAfter (cs : List Lexeme) : List Lexeme :=
  if (Lexeme.textOf cs).head?.any Text.isAlphabetic then [Lexeme.blank] else []

/-- The placeholder of the clause. -/
def holder (a : Analysis) : Lexeme :=
  match a.whereStyle with
  | .positional => Lexeme.mark (some ' ')
  | .named name => Lexeme.named name.toList

/-- The condition of the clause, up to its placeholder. -/
def conditionFront (a : Analysis) : List Char := ' ' :: (a.idColumn.toList ++ [' ', '=', ' '])

variable {a : Analysis} {as cs : List Lexeme}

lemma whereClause_eq (ha : a.statement = a.text.statement) (h : a.text.AnchorSplit as cs) :
    a.whereClause.toList = Lexeme.textOf (SqlText.gapBefore cs) ++ ("WHERE".toList ++
      (a.conditionFront ++ (a.holder.text ++ Lexeme.textOf (gapAfter cs)))) := by
  have htail : Text.dropBytes a.statement.whereAnchor a.text.chars = Lexeme.textOf cs := by
    rw [ha, h.anchor, h.readAs.chars, Lexeme.textOf_append, Text.dropBytes_width_append]
  have hholder : (if Placeholder.protocol a.placeholders = .named then ":" ++ a.idColumn
      else "?").toList = a.holder.text := by
    unfold holder whereStyle
    split
    · rw [String.toList_append]
      rfl
    · rfl
  unfold whereClause SqlText.gapBefore gapAfter conditionFront
  rw [htail, ← hholder]
  by_cases hb : (Lexeme.textOf cs).head?.any Text.isAlphabetic
  · simp [hb, Lexeme.blank]
  · simp [hb, Lexeme.blank]

lemma reads_holder (h : IsPlainName a.idColumn) {rest : List Char}
    (hr : ∀ c ∈ rest.head?, Token.continuesWord c = false) :
    a.holder.Reads d (some ' ') rest := by
  unfold holder whereStyle
  split_ifs
  · refine Lexeme.reads_named h.1 h.2 (fun c hc => ?_) (by decide)
    have := hr c hc
    simp only [Token.continuesWord, Bool.or_eq_false_iff] at this
    simp [Placeholder.continuesName, this]
  · exact Lexeme.reads_mark _ _

lemma styles_holder (a : Analysis) : Lexeme.styles [a.holder] = [a.whereStyle] := by
  unfold holder
  cases hs : a.whereStyle with
  | positional => rfl
  | named name =>
    show [Placeholder.Style.named (String.ofList name.toList)] = _
    rw [String.ofList_toList]

/-- The lexemes behind the word `WHERE`, where the column is a plain name. -/
def condition (a : Analysis) (cs : List Lexeme) : List Lexeme :=
  [Lexeme.blank, Lexeme.word a.idColumn.toList, Lexeme.blank, Lexeme.single '=', Lexeme.blank,
    a.holder] ++ (gapAfter cs ++ cs)

lemma textOf_condition (a : Analysis) (cs : List Lexeme) : Lexeme.textOf (a.condition cs) =
    a.conditionFront ++ (a.holder.text ++ (Lexeme.textOf (gapAfter cs) ++ Lexeme.textOf cs)) := by
  simp [condition, conditionFront, Lexeme.blank, Lexeme.word, Lexeme.single]

lemma styles_condition (a : Analysis) (cs : List Lexeme) :
    Lexeme.styles (a.condition cs) = a.whereStyle :: Lexeme.styles cs := by
  have hfront : Lexeme.styles [Lexeme.blank, Lexeme.word a.idColumn.toList, Lexeme.blank,
      Lexeme.single '=', Lexeme.blank] = [] := rfl
  have hgap : Lexeme.styles (gapAfter cs) = [] := by
    unfold gapAfter
    split
    · rfl
    · rfl
  have happ : a.condition cs = [Lexeme.blank, Lexeme.word a.idColumn.toList, Lexeme.blank,
      Lexeme.single '=', Lexeme.blank] ++ ([a.holder] ++ (gapAfter cs ++ cs)) := rfl
  rw [happ, Lexeme.styles_append, Lexeme.styles_append, Lexeme.styles_append, hfront, hgap,
    styles_holder]
  rfl

/-- Nothing goes on over the placeholder of the clause, and what stands behind it is read as
before. -/
lemma reading_gapAfter (h : a.text.AnchorSplit as cs) :
    (∀ c ∈ (Lexeme.textOf (gapAfter cs ++ cs)).head?, Token.continuesWord c = false) ∧
      ∀ before, Lexeme.Reading a.text.dialect [] before (gapAfter cs ++ cs) := by
  have hcs := (Lexeme.reading_append.1 h.readAs.reading).2
  rcases h.cases with ⟨hb, -⟩ | ⟨hb, hnext, -⟩
  · have hgap : gapAfter cs = [Lexeme.blank] := if_pos hb
    obtain ⟨c, hc, ha⟩ := (Option.any_eq_true _ _).1 hb
    have hne : ∀ {e : Char}, Text.isAlphabetic e = false → (Lexeme.textOf cs).head? ≠ some e := by
      rintro e he hce
      obtain rfl := Option.some.inj (hc.symm.trans hce)
      rw [ha] at he
      cases he
    rw [hgap]
    refine ⟨fun e he => ?_, fun before => ⟨Lexeme.reads_blank _ _, hcs.congr_before ?_ ?_⟩⟩
    · obtain rfl := Option.some.inj he
      decide
    · exact fun e => absurd e (hne (by decide))
    · exact fun e => absurd e (hne (by decide))
  · have hgap : gapAfter cs = [] := by rw [gapAfter, hb]; rfl
    rw [hgap]
    refine ⟨fun c hc => (Lexeme.parts_iff.1 (hnext c hc)).1, fun before => hcs.congr_before ?_ ?_⟩
    · exact fun e => (Lexeme.parts_iff.1 (hnext _ e)).2.1 rfl
    · exact fun e => (Lexeme.parts_iff.1 (hnext _ e)).2.2 rfl

/-- A plain name is a word. -/
lemma reads_plainName {name : String} (h : IsPlainName name) {rest : List Char}
    (hr : ∀ c ∈ rest.head?, Token.continuesWord c = false) (before : Option Char) :
    (Lexeme.word name.toList).Reads d before rest := by
  obtain ⟨c, hc, hb⟩ := (Option.any_eq_true _ _).1 h.1
  obtain ⟨s, hs⟩ := List.head?_eq_some_iff.1 hc
  have hall := h.2
  rw [hs] at hall ⊢
  refine Lexeme.reads_word hb (fun x hx => ?_) hr _
  have hx := hall x (List.mem_cons_of_mem _ hx)
  simp only [Placeholder.continuesName] at hx
  rw [Token.continuesWord, hx, Bool.true_or]

lemma reading_condition (hname : IsPlainName a.idColumn) (h : a.text.AnchorSplit as cs) :
    Lexeme.Reading a.text.dialect [] (some 'E') (a.condition cs) := by
  obtain ⟨hnext, hrest⟩ := reading_gapAfter h
  have hword : (Lexeme.word a.idColumn.toList).Reads a.text.dialect (some ' ') (' ' ::
      Lexeme.textOf ([Lexeme.single '=', Lexeme.blank, a.holder] ++ (gapAfter cs ++ cs)) ++ []) :=
    reads_plainName hname (fun x hx => by
      obtain rfl := Option.some.inj hx
      decide) _
  have hholder : a.holder.Reads a.text.dialect (some ' ')
      (Lexeme.textOf (gapAfter cs ++ cs) ++ []) := by
    rw [List.append_nil]
    exact reads_holder hname hnext
  exact ⟨Lexeme.reads_blank _ _, hword, Lexeme.reads_blank _ _,
    Lexeme.reads_single (by decide) (by decide) (by decide) (by decide) _ _,
    Lexeme.reads_blank _ _, hholder, hrest _⟩

/-! ### The text with the clause -/

lemma chars_missingWhere (a : Analysis) : a.missingWhere.chars =
    Text.takeBytes a.statement.whereAnchor a.text.chars ++
      (a.whereClause.toList ++ Text.dropBytes a.statement.whereAnchor a.text.chars) :=
  Edit.apply_singleton _ _

/-- The anchor parts the text between its lexemes. -/
lemma bytes_at_anchor (hs : a.statement = a.text.statement) (h : a.text.AnchorSplit as cs) :
    Text.takeBytes a.statement.whereAnchor a.text.chars = Lexeme.textOf as ∧
      Text.dropBytes a.statement.whereAnchor a.text.chars = Lexeme.textOf cs := by
  rw [hs, h.anchor, h.readAs.chars, Lexeme.textOf_append, Text.takeBytes_width_append,
    Text.dropBytes_width_append]
  exact ⟨rfl, rfl⟩

/-- The clause is one word and what stands behind it. -/
lemma textOf_withWhere (hs : a.statement = a.text.statement) (h : a.text.AnchorSplit as cs)
    {ms : List Lexeme} (hm : Lexeme.textOf ms = a.conditionFront ++ (a.holder.text ++
      (Lexeme.textOf (gapAfter cs) ++ Lexeme.textOf cs))) :
    Lexeme.textOf (SqlText.withWhere as cs ms) = a.missingWhere.chars := by
  obtain ⟨hfront, hback⟩ := bytes_at_anchor hs h
  rw [chars_missingWhere, hfront, hback, whereClause_eq hs h, SqlText.withWhere,
    Lexeme.textOf_append, Lexeme.textOf_append, Lexeme.textOf_cons, hm]
  simp [Lexeme.word]

/-- **The text with the clause is read as its lexemes**, where the column is a plain name. -/
theorem readAs_missingWhere (hs : a.statement = a.text.statement) (h : a.text.AnchorSplit as cs)
    (ho : ¬ a.text.OpensAtAnchor) (hname : IsPlainName a.idColumn) :
    SqlText.ReadAs ⟨a.text.dialect, a.missingWhere.chars⟩
      (SqlText.withWhere as cs (a.condition cs)) := by
  have hread := h.readAs_withWhere ho (reading_condition hname h) (by
    rw [textOf_condition]
    intro c hc
    obtain rfl := Option.some.inj hc
    decide)
  rwa [textOf_withWhere hs h (textOf_condition a cs)] at hread

lemma styles_withWhere (a : Analysis) (as cs : List Lexeme) :
    Lexeme.styles (SqlText.withWhere as cs (a.condition cs)) =
      Lexeme.styles as ++ a.whereStyle :: Lexeme.styles cs := by
  have hgap : Lexeme.styles (SqlText.gapBefore cs) = [] := by
    unfold SqlText.gapBefore
    split
    · rfl
    · rfl
  have hword : Lexeme.styles (Lexeme.word "WHERE".toList :: a.condition cs) =
      a.whereStyle :: Lexeme.styles cs := styles_condition a cs
  rw [SqlText.withWhere, Lexeme.styles_append, Lexeme.styles_append, hgap, List.nil_append, hword]

/-! ### The verdict -/

/-- **The template repairs the statement.** -/
theorem repairs_missingWhere (a : Analysis) (hs : a.statement = a.text.statement)
    (hp : a.placeholders = a.text.placeholders)
    (hkind : a.statement.kind = .update ∨ a.statement.kind = .delete)
    (hdepth : DeepToken.depthAfter 0 (a.text.statementTokens.map (·.token)) = 0)
    (hcl : a.text.ClosesLiterals) : a.Repairs ⟨a.text.dialect, a.missingWhere.chars⟩ := by
  obtain ⟨as, cs, h⟩ := a.text.exists_anchorSplit
  have hanchor : a.statement.whereAnchor = Text.width (Lexeme.textOf as) := by rw [hs, h.anchor]
  have ho : ¬ a.text.OpensAtAnchor := fun ho => ho.1 hcl
  -- the text behind the word `WHERE`, read in any way
  obtain ⟨ms, hms, hread⟩ := Lexeme.exists_reading a.text.dialect (some 'E')
    (a.conditionFront ++ (a.holder.text ++ (Lexeme.textOf (gapAfter cs) ++ Lexeme.textOf cs)))
  have hnext : ∀ c ∈ (Lexeme.textOf ms).head?, Token.continuesWord c = false := by
    rw [hms]
    intro c hc
    obtain rfl := Option.some.inj hc
    decide
  have hreadAs := h.readAs_withWhere ho hread hnext
  rw [textOf_withWhere hs h hms] at hreadAs
  rw [hs] at hkind
  obtain ⟨hk, hw⟩ := h.statement_withWhere hdepth hkind hreadAs
  refine ⟨a.chars_missingWhere, ?_, ?_, hw, ?_, fun hname => ?_⟩
  · rw [(bytes_at_anchor hs h).1, hanchor]
  · rw [hk, hs]
  · intro g hg hc
    have hex := (explains_of_mem_review
      (a := ⟨⟨a.text.dialect, a.missingWhere.chars⟩, a.placeholders,
        SqlText.statement ⟨a.text.dialect, a.missingWhere.chars⟩, .raw⟩) rfl hg).1
    rw [Explains, hc] at hex
    have hno : (SqlText.statement ⟨a.text.dialect, a.missingWhere.chars⟩).hasWhere = false := hex.1
    rw [hw] at hno
    cases hno
  · have hnew := (readAs_missingWhere hs h ho hname).styles
    rw [styles_withWhere] at hnew
    have hold := h.readAs.styles
    rw [Lexeme.styles_append] at hold
    have hcount : a.bindsBeforeWhere = (Lexeme.styles as).length := by
      rw [bindsBeforeWhere, hp, hanchor, h.readAs.countP_offset]
    refine ⟨?_, ?_⟩
    · rw [bindsBeforeWhere]
      exact List.countP_le_length
    · rw [hp, hold, hcount, insertIdx_length_append, hnew]

end Analysis

/-- **The suggestion for an `UPDATE` or `DELETE` without a `WHERE` clause repairs it.** The bind of
the new placeholder has the place of the placeholder. -/
theorem Query.repairs_suggestion {q : Query} {f : Finding} (hf : f ∈ q.findings d)
    (hc : f.code = .missingWhere)
    (hdepth : DeepToken.depthAfter 0 ((q.analysis d).text.statementTokens.map (·.token)) = 0)
    (hcl : (q.analysis d).text.ClosesLiterals) :
    (q.analysis d).Repairs (SqlText.ofString d (Suggestion.ofFinding (q.analysis d) f).query) ∧
      ((q.analysis d).template f).binds = (q.analysis d).binds.insertIdx
        (q.analysis d).bindsBeforeWhere (q.analysis d).whereBind := by
  have hex := Query.explains_of_mem_findings hf
  rw [Analysis.Explains, hc] at hex
  have ht : (q.analysis d).template f = (q.analysis d).missingWhere := by
    rw [Analysis.template, hc]
  refine ⟨?_, ?_⟩
  · have hrep := (q.analysis d).repairs_missingWhere rfl rfl hex.2 hdepth hcl
    rw [Suggestion.ofFinding, ht, SqlText.ofString, String.toList_ofList]
    exact hrep
  · rw [ht]
    rfl

/-- A placeholder, a string and a later clause. -/
theorem Query.repairs_suggestion_update :
    (Finding.ofCode .missingWhere "UPDATE without a WHERE clause modifies every row in t" ∈
        (Query.raw "UPDATE t SET a = ?, b = 'x' LIMIT 1").findings .standard ∧
      DeepToken.depthAfter 0 (((Query.raw "UPDATE t SET a = ?, b = 'x' LIMIT 1").analysis
        .standard).text.statementTokens.map (·.token)) = 0 ∧
      ((Query.raw "UPDATE t SET a = ?, b = 'x' LIMIT 1").analysis .standard).text.ClosesLiterals) ∧
      ((Query.raw "UPDATE t SET a = ?, b = 'x' LIMIT 1").analysis .standard).Repairs
        (SqlText.ofString .standard (Suggestion.ofFinding
          ((Query.raw "UPDATE t SET a = ?, b = 'x' LIMIT 1").analysis .standard)
          (.ofCode .missingWhere "UPDATE without a WHERE clause modifies every row in t")).query) := by
  have hf : Finding.ofCode .missingWhere "UPDATE without a WHERE clause modifies every row in t" ∈
      (Query.raw "UPDATE t SET a = ?, b = 'x' LIMIT 1").findings .standard := by decide +kernel
  have hdepth : DeepToken.depthAfter 0 (((Query.raw "UPDATE t SET a = ?, b = 'x' LIMIT 1").analysis
      .standard).text.statementTokens.map (·.token)) = 0 := by decide +kernel
  have htext : ∀ s ∈ ((Query.raw "UPDATE t SET a = ?, b = 'x' LIMIT 1").analysis
      .standard).text.segments, s.kind = .literal → s.text = ['\x27', 'x', '\x27'] := by
    decide +kernel
  have hcl : ((Query.raw "UPDATE t SET a = ?, b = 'x' LIMIT 1").analysis
      .standard).text.ClosesLiterals := fun s hs hk =>
    ⟨.single, ['x'], .cons (.plain 'x' (by decide) (by decide)) .nil, htext s hs hk⟩
  exact ⟨⟨hf, hdepth, hcl⟩, (Query.repairs_suggestion hf rfl hdepth hcl).1⟩

end QueryGuard
