import QueryGuard.Proofs.Sql.Written

/-!
Written `INSERT` statements: a table, a column list and rows, with gaps between the tokens, and what
the statement is meant to say. Main statements: the text of a written statement is read as its
lexemes, and the tokens behind `VALUES` are its rows.
-/

namespace QueryGuard

open Lexeme

variable {d : Dialect}

/-! ### Columns -/

/-- A column of the column list, with the gaps around it. -/
structure ColumnForm (d : Dialect) where
  before : Gap d
  name : Identifier d
  after : Gap d

namespace ColumnForm

variable (c : ColumnForm d)

def text : List Char := c.before.text ++ (c.name.text ++ c.after.text)

def lexemes : List Lexeme := c.before.lexemes ++ c.name.lexeme :: c.after.lexemes

lemma textOf_lexemes : textOf c.lexemes = c.text := by
  rw [lexemes, textOf_append, textOf_cons, Gap.textOf_lexemes, Gap.textOf_lexemes,
    Identifier.text_lexeme, text]

lemma reading {before : Option Char} {rest : List Char} (hr : ∀ x ∈ rest.head?, Token.Stops x) :
    Reading d rest before c.lexemes := by
  refine reading_append.2 ⟨c.before.reading _ _, c.name.reads ?_ _, c.after.reading _ _⟩
  rw [Gap.textOf_lexemes]
  exact c.after.stops_head? hr

lemma kinds_lexemes : ∃ k, kinds c.lexemes = [k] ∧ (k = .word ∨ k = .string ∨ k = .identifier) := by
  obtain ⟨k, hk, h⟩ : ∃ k, c.name.lexeme.token? = some k ∧
      (k = .word ∨ k = .string ∨ k = .identifier) := by
    rcases c.name.token?_lexeme with h | h | h
    · exact ⟨_, h, .inl rfl⟩
    · exact ⟨_, h, .inr (.inl rfl)⟩
    · exact ⟨_, h, .inr (.inr rfl)⟩
  refine ⟨k, ?_, h⟩
  rw [lexemes, kinds, List.filterMap_append, List.filterMap_cons, hk]
  show kinds c.before.lexemes ++ k :: kinds c.after.lexemes = [k]
  rw [kinds_gap, kinds_gap, List.nil_append]

end ColumnForm

/-! ### Rows -/

/-- An entry of a row, with the gaps around it. No dash stands in front of the dashes of a
comment. -/
structure EntrySlot (d : Dialect) where
  before : Gap d
  form : EntryForm d
  after : Gap d
  apart : form.text.getLast? = some '-' → after.text.head? ≠ some '-'

/-- What stands between the parentheses of a row. -/
inductive RowBody (d : Dialect) where
  | empty (gap : Gap d)
  | entries (slots : List (EntrySlot d)) (hne : slots ≠ [])

/-- A row of a `VALUES` clause, with the gaps around it. -/
structure RowForm (d : Dialect) where
  before : Gap d
  body : RowBody d
  after : Gap d

lemma Token.noLonger_of_mem_marks {c : Char} (hc : c ∈ [',', '(', ')']) (x : Option Char) :
    NoLonger x c := noLonger_of_all (by decide) hc x

lemma Token.stops_of_mem_marks {c : Char} (hc : c ∈ [',', '(', ')']) : Stops c :=
  (noLonger_of_mem_marks hc none).stops

lemma Lexeme.reads_paren {c : Char} (hc : c ∈ [',', '(', ')']) (before : Option Char)
    (rest : List Char) : (single c).Reads d before rest := by
  simp only [List.mem_cons, List.not_mem_nil, or_false] at hc
  rcases hc with rfl | rfl | rfl
  · exact reads_single (by decide) (by decide) (by decide) (by decide) before rest
  · exact reads_single (by decide) (by decide) (by decide) (by decide) before rest
  · exact reads_single (by decide) (by decide) (by decide) (by decide) before rest

namespace EntrySlot

variable (s : EntrySlot d)

def text : List Char := s.before.text ++ (s.form.text ++ s.after.text)

def lexemes : List Lexeme := s.before.lexemes ++ (s.form.lexemes ++ s.after.lexemes)

lemma textOf_lexemes : textOf s.lexemes = s.text := by
  rw [lexemes, textOf_append, textOf_append, Gap.textOf_lexemes, Gap.textOf_lexemes,
    EntryForm.textOf_lexemes, text]

lemma reading {before : Option Char} (hb : Placeholder.bars before = false) {rest : List Char}
    (hr : ∀ y ∈ rest.head?, Token.NoLonger none y) : Reading d rest before s.lexemes := by
  refine reading_append.2 ⟨s.before.reading _ _, reading_append.2 ⟨?_, s.after.reading _ _⟩⟩
  rw [Gap.textOf_lexemes]
  refine (s.form.reading.congr_bars (s.before.bars_after hb)).of_halts s.form.ends ?_
  rw [s.form.textOf_lexemes]
  exact s.after.halts s.apart hr

lemma isItem (pos : Nat) : ParenList.IsItem (tokens pos s.lexemes) s.form.entry := by
  rw [lexemes, tokens_append, tokens_append, Gap.tokens_lexemes, Gap.tokens_lexemes,
    List.nil_append, List.append_nil]
  exact s.form.isItem _

end EntrySlot

namespace RowBody

/-- The body as it is written. -/
def text : RowBody d → List Char
  | empty gap => gap.text
  | entries slots _ => [','].intercalate (slots.map EntrySlot.text)

/-- The entries that the row is to be read with. -/
def read : RowBody d → List Entry
  | empty _ => []
  | entries slots _ => slots.map (·.form.entry)

def lexemes : RowBody d → List Lexeme
  | empty gap => gap.lexemes
  | entries slots _ => [single ','].intercalate (slots.map EntrySlot.lexemes)

lemma textOf_lexemes (b : RowBody d) : textOf b.lexemes = b.text := by
  cases b with
  | empty gap => exact gap.textOf_lexemes
  | entries slots _ => exact textOf_intercalate EntrySlot.textOf_lexemes ',' slots

/-- A body is read in front of its closing parenthesis. -/
lemma reading (b : RowBody d) {before : Option Char} (hb : Placeholder.bars before = false)
    (rest : List Char) : Reading d (')' :: rest) before b.lexemes := by
  cases b with
  | empty gap => exact gap.reading _ _
  | entries slots _ =>
    refine reading_intercalate (by decide) (fun _ _ _ _ => reads_paren (by decide) _ _) ?_ hb
    intro ls hls before s hb hs
    obtain ⟨slot, -, rfl⟩ := List.mem_map.1 hls
    refine slot.reading hb ?_
    rcases hs with hs | rfl
    · exact Text.forall_head? hs (Token.noLonger_of_mem_marks (by decide) none)
    · exact Text.forall_head? rfl (Token.noLonger_of_mem_marks (by decide) none)

lemma lists_slots (pos : Nat) (s : EntrySlot d) (slots : List (EntrySlot d)) :
    ParenList.Lists (tokens pos ([single ','].intercalate ((s :: slots).map EntrySlot.lexemes)))
      ((s :: slots).map (·.form.entry)) := by
  induction slots generalizing pos s with
  | nil =>
    have h : [single ','].intercalate ([s].map EntrySlot.lexemes) = s.lexemes :=
      List.append_nil _
    rw [h]
    exact .one (s.isItem pos)
  | cons s' slots ih =>
    have h : [single ','].intercalate ((s :: s' :: slots).map EntrySlot.lexemes) =
        s.lexemes ++ single ',' ::
          [single ','].intercalate ((s' :: slots).map EntrySlot.lexemes) := rfl
    rw [h, tokens_append, tokens_cons]
    exact .cons (s.isItem pos) rfl (ih _ s')

/-- **The tokens between the parentheses of a row are its entries.** -/
theorem lists (b : RowBody d) (pos : Nat) : ParenList.Lists (tokens pos b.lexemes) b.read := by
  cases b with
  | empty gap =>
    rw [lexemes, Gap.tokens_lexemes]
    exact .empty
  | entries slots hne =>
    obtain ⟨s, slots, rfl⟩ := List.exists_cons_of_ne_nil hne
    exact lists_slots pos s slots

end RowBody

namespace RowForm

variable (r : RowForm d)

/-- The row from its opening to its closing parenthesis. -/
def list : List Char := '(' :: (r.body.text ++ [')'])

/-- The row as it is written. -/
def text : List Char := r.before.text ++ (r.list ++ r.after.text)

def lexemes : List Lexeme :=
  r.before.lexemes ++ single '(' :: (r.body.lexemes ++ single ')' :: r.after.lexemes)

/-- The row that a text has where the row is written at byte `pos`. -/
def valueRow (pos : Nat) : ValueRow where
  entries := r.body.read
  span := ⟨pos + Text.width r.before.text, pos + Text.width r.before.text + Text.width r.list⟩

/-- The rows of a text where the rows are written at byte `pos`, with commas between them. -/
def valueRows (pos : Nat) : List (RowForm d) → List ValueRow
  | [] => []
  | r :: rs => r.valueRow pos :: valueRows (pos + Text.width r.text + Text.width [',']) rs

lemma textOf_lexemes : textOf r.lexemes = r.text := by
  rw [lexemes, textOf_append, textOf_cons, textOf_append, textOf_cons, Gap.textOf_lexemes,
    Gap.textOf_lexemes, RowBody.textOf_lexemes, text, list]
  simp [single]

lemma reading (before : Option Char) (rest : List Char) : Reading d rest before r.lexemes :=
  reading_append.2 ⟨r.before.reading _ _, reads_paren (by decide) _ _,
    reading_append.2 ⟨r.body.reading (by decide) _, reads_paren (by decide) _ _,
      r.after.reading _ _⟩⟩

/-- The tokens of a row are a list in parentheses that reaches as far as the row. -/
lemma exists_tokens (pos : Nat) : ∃ o mid c, tokens pos r.lexemes = o :: (mid ++ [c]) ∧
    o.kind = .openParen ∧ ParenList.Lists mid r.body.read ∧ c.kind = .closeParen ∧
      r.valueRow pos = ⟨r.body.read, o.start, c.stop⟩ := by
  refine ⟨⟨.openParen, pos + Text.width r.before.text, ['(']⟩, _, ⟨.closeParen,
      pos + Text.width r.before.text + Text.width ['('] + Text.width r.body.text, [')']⟩,
    ?_, rfl, r.body.lists (pos + Text.width r.before.text + Text.width ['(']), rfl, ?_⟩
  · rw [lexemes, tokens_append, tokens_cons, tokens_append, tokens_cons, Gap.tokens_lexemes,
      Gap.tokens_lexemes, Gap.textOf_lexemes, RowBody.textOf_lexemes]
    rfl
  · rw [valueRow, Token.stop, list, ← List.singleton_append, Text.width_append, Text.width_append]
    simp only [Nat.add_assoc]

/-- **The tokens of written rows are those rows.** -/
theorem rows (r : RowForm d) (rs : List (RowForm d)) (pos : Nat) :
    Statement.Rows (tokens pos ([single ','].intercalate ((r :: rs).map RowForm.lexemes)))
      (valueRows pos (r :: rs)) := by
  induction rs generalizing pos r with
  | nil =>
    obtain ⟨o, mid, c, htokens, ho, hm, hc, hrow⟩ := r.exists_tokens pos
    have h : [single ','].intercalate ([r].map RowForm.lexemes) = r.lexemes := List.append_nil _
    rw [h, htokens, valueRows, hrow]
    exact .one ho hm hc
  | cons r' rs ih =>
    obtain ⟨o, mid, c, htokens, ho, hm, hc, hrow⟩ := r.exists_tokens pos
    have h : [single ','].intercalate ((r :: r' :: rs).map RowForm.lexemes) =
        r.lexemes ++ single ',' ::
          [single ','].intercalate ((r' :: rs).map RowForm.lexemes) := rfl
    have hcut : ∀ s ts, o :: (mid ++ [c]) ++ s :: ts = o :: (mid ++ c :: s :: ts) := by simp
    rw [h, tokens_append, tokens_cons, htokens, valueRows, hrow, r.textOf_lexemes]
    exact hcut _ _ ▸ .cons ho hm hc rfl (ih r' _)

end RowForm

/-! ### Statements -/

/-- An `INSERT` with a column list as it is written. -/
structure InsertForm (d : Dialect) where
  insert : Spelling "insert"
  afterInsert : Gap d
  into : Spelling "into"
  afterInto : Gap d
  /-- The parts of the name of the table. -/
  table : List (Identifier d)
  afterTable : Gap d
  columns : List (ColumnForm d)
  afterColumns : Gap d
  values : Spelling "values"
  rows : List (RowForm d)
  afterInsert_ne : afterInsert ≠ []
  afterInto_ne : afterInto ≠ []
  table_ne : table ≠ []
  /-- No part of the name is the word with which the rows begin. -/
  table_words : ∀ p ∈ table, ¬ p.IsBare "value" ∧ ¬ p.IsBare "values"
  columns_ne : columns ≠ []
  rows_ne : rows ≠ []

namespace InsertForm

variable (i : InsertForm d)

/-- The statement up to the word `VALUES`. -/
def front : List Char :=
  i.insert.text ++ (i.afterInsert.text ++ (i.into.text ++ (i.afterInto.text ++
    (['.'].intercalate (i.table.map Identifier.text) ++ (i.afterTable.text ++
      '(' :: ([','].intercalate (i.columns.map ColumnForm.text) ++
        ')' :: (i.afterColumns.text ++ i.values.text)))))))

/-- The statement as it is written. -/
def text : List Char := i.front ++ [','].intercalate (i.rows.map RowForm.text)

/-- The names of the columns, without their quotes. -/
def columnNames : List String := i.columns.map fun c => String.ofList c.name.name

/-- The name of the table: its parts without their quotes, joined by points. -/
def tableName : String := ".".intercalate (i.table.map fun p => String.ofList p.name)

/-- The rows that the statement is to be read with. -/
def valueRows : List ValueRow := RowForm.valueRows (Text.width i.front) i.rows

/-! ### Its lexemes -/

/-- The lexemes of the name of the table. -/
def tableLexemes : List Lexeme := [single '.'].intercalate (i.table.map fun p => [p.lexeme])

/-- The lexemes of the column list, without its parentheses. -/
def columnLexemes : List Lexeme := [single ','].intercalate (i.columns.map ColumnForm.lexemes)

/-- The lexemes of the rows. -/
def rowLexemes : List Lexeme := [single ','].intercalate (i.rows.map RowForm.lexemes)

/-- The lexemes up to the name of the table. -/
def nameLexemes : List Lexeme :=
  word i.insert.text :: (i.afterInsert.lexemes ++
    word i.into.text :: (i.afterInto.lexemes ++ i.tableLexemes))

/-- The lexemes behind the name of the table, up to the rows. -/
def listLexemes : List Lexeme :=
  i.afterTable.lexemes ++ single '(' :: (i.columnLexemes ++
    single ')' :: (i.afterColumns.lexemes ++ [word i.values.text]))

def lexemes : List Lexeme := i.nameLexemes ++ (i.listLexemes ++ i.rowLexemes)

lemma textOf_tableLexemes :
    textOf i.tableLexemes = ['.'].intercalate (i.table.map Identifier.text) :=
  textOf_intercalate (fun p => by simp) '.' i.table

lemma textOf_columnLexemes :
    textOf i.columnLexemes = [','].intercalate (i.columns.map ColumnForm.text) :=
  textOf_intercalate ColumnForm.textOf_lexemes ',' i.columns

lemma textOf_front : textOf (i.nameLexemes ++ i.listLexemes) = i.front := by
  simp [nameLexemes, listLexemes, front, textOf_tableLexemes, textOf_columnLexemes,
    Gap.textOf_lexemes, word, single]

lemma textOf_lexemes : textOf i.lexemes = i.text := by
  rw [lexemes, ← List.append_assoc, textOf_append, textOf_front, text, rowLexemes,
    textOf_intercalate RowForm.textOf_lexemes]

/-! ### Reading it -/

lemma reads_point {rest : List Char} (hr : ∀ c ∈ rest.head?, c.isDigit = false)
    (before : Option Char) : (single '.').Reads d before rest := by
  refine .bare (Dialect.opener?_of_opensNothing (by decide) _) ?_
  have hnum : Token.beginsNumber '.' ([] ++ rest) = false := by
    cases rest with
    | nil => rfl
    | cons c r => exact hr c rfl
  unfold Token.lexeme
  rw [at?_of_parts (by decide), hnum]
  rfl

lemma reading_tableLexemes {before : Option Char} (hb : Placeholder.bars before = false)
    {rest : List Char} (hr : ∀ x ∈ rest.head?, Token.Stops x) :
    Reading d rest before i.tableLexemes := by
  refine reading_intercalate (by decide) ?_ ?_ hb
  · intro ls hls before s
    obtain ⟨p, -, rfl⟩ := List.mem_map.1 hls
    obtain ⟨c, cs, hc⟩ := List.exists_cons_of_ne_nil p.text_ne_nil
    refine reads_point (fun x hx => p.isDigit_of_head?_text ?_) before
    rw [textOf_cons, Identifier.text_lexeme, hc] at hx
    rw [hc]
    exact hx
  · intro ls hls before s _ hs
    obtain ⟨p, -, rfl⟩ := List.mem_map.1 hls
    refine ⟨p.reads ?_ before, trivial⟩
    rw [textOf_nil, List.nil_append]
    rcases hs with hs | rfl
    · exact Text.forall_head? hs ⟨by decide, by decide⟩
    · exact hr

lemma reading_columnLexemes {before : Option Char} (hb : Placeholder.bars before = false)
    (rest : List Char) : Reading d (')' :: rest) before i.columnLexemes := by
  refine reading_intercalate (by decide) (fun _ _ _ _ => reads_paren (by decide) _ _) ?_ hb
  intro ls hls before s _ hs
  obtain ⟨c, -, rfl⟩ := List.mem_map.1 hls
  refine c.reading ?_
  rcases hs with hs | rfl
  · exact Text.forall_head? hs (Token.stops_of_mem_marks (by decide))
  · exact Text.forall_head? rfl (Token.stops_of_mem_marks (by decide))

lemma reading_rowLexemes {before : Option Char} (hb : Placeholder.bars before = false) :
    Reading d [] before i.rowLexemes := by
  refine reading_intercalate (by decide) (fun _ _ _ _ => reads_paren (by decide) _ _) ?_ hb
  intro ls hls before s _ _
  obtain ⟨r, -, rfl⟩ := List.mem_map.1 hls
  exact r.reading before s

/-- Behind `VALUES` no word goes on. -/
lemma stops_rowLexemes : ∀ x ∈ (textOf i.rowLexemes).head?, Token.Stops x := by
  obtain ⟨r, rs, hr⟩ := List.exists_cons_of_ne_nil i.rows_ne
  rw [rowLexemes, hr, List.map_cons, intercalate_cons, textOf_append, r.textOf_lexemes,
    RowForm.text, List.append_assoc]
  exact r.before.stops_head? (Text.forall_head? rfl (Token.stops_of_mem_marks (by decide)))

lemma reading_nameLexemes {rest : List Char} (hr : ∀ x ∈ rest.head?, Token.Stops x) :
    Reading d rest none i.nameLexemes := by
  have hgap : ∀ {g : Gap d} (hg : g ≠ []) (s : List Lexeme),
      ∀ x ∈ (textOf (g.lexemes ++ s) ++ rest).head?, Token.Stops x := by
    intro g hg s
    rw [textOf_append, Gap.textOf_lexemes, List.append_assoc]
    exact Gap.stops_head?_of_ne_nil hg _
  refine ⟨i.insert.reads (by decide) (by decide) (hgap i.afterInsert_ne _) _,
    reading_append.2 ⟨i.afterInsert.reading _ _,
      i.into.reads (by decide) (by decide) (hgap i.afterInto_ne _) _,
      reading_append.2 ⟨i.afterInto.reading _ _, i.reading_tableLexemes ?_ hr⟩⟩⟩
  exact Gap.bars_after_of_ne_nil i.afterInto_ne _

lemma reading_listLexemes {rest : List Char} (hr : ∀ x ∈ rest.head?, Token.Stops x)
    (before : Option Char) : Reading d rest before i.listLexemes :=
  reading_append.2 ⟨i.afterTable.reading _ _, reads_paren (by decide) _ _,
    reading_append.2 ⟨i.reading_columnLexemes (by decide) _, reads_paren (by decide) _ _,
      reading_append.2 ⟨i.afterColumns.reading _ _,
        i.values.reads (by decide) (by decide) hr _, trivial⟩⟩⟩

/-- **The text of a written statement is read as its lexemes.** -/
theorem readAs : (SqlText.mk d i.text).ReadAs i.lexemes := by
  refine ⟨i.textOf_lexemes.symm, reading_append.2 ⟨i.reading_nameLexemes ?_,
    reading_append.2 ⟨i.reading_listLexemes ?_ _, i.reading_rowLexemes ?_⟩⟩⟩
  · rw [List.append_nil, textOf_append, listLexemes, textOf_append, Gap.textOf_lexemes,
      List.append_assoc]
    exact i.afterTable.stops_head? (Text.forall_head? rfl (Token.stops_of_mem_marks (by decide)))
  · rw [List.append_nil]
    exact i.stops_rowLexemes
  · rw [listLexemes, after_append, after, after_append, after, after_append]
    exact i.values.bars_last? (by decide)

/-! ### Its tokens -/

/-- The word `VALUES` does not stand in front of the column list, and neither does a mark of lists
or of the end of a statement. -/
lemma plain_of_mem_nameLexemes {l : Lexeme} (hl : l ∈ i.nameLexemes) {k : Token.Kind}
    (hk : l.token? = some k) : (k ≠ .openParen ∧ k ≠ .closeParen ∧ k ≠ .semicolon) ∧
      (k = .word → Text.lower l.text ≠ "value".toList ∧ Text.lower l.text ≠ "values".toList) := by
  have hgap : ∀ g : Gap d, l ∉ g.lexemes := fun g hg => by
    rw [Gap.token?_of_mem_lexemes hg] at hk
    cases hk
  rw [nameLexemes, List.mem_cons, List.mem_append, List.mem_cons, List.mem_append] at hl
  -- the lexemes are `INSERT`, a gap, `INTO`, a gap and the parts of the name
  rcases hl with rfl | hl | rfl | hl | hl
  · obtain rfl := Option.some.inj hk
    refine ⟨by decide, fun _ => ?_⟩
    rw [word, i.insert.lower_eq]
    decide
  · exact absurd hl (hgap _)
  · obtain rfl := Option.some.inj hk
    refine ⟨by decide, fun _ => ?_⟩
    rw [word, i.into.lower_eq]
    decide
  · exact absurd hl (hgap _)
  · rcases mem_intercalate hl with rfl | ⟨ls, hls, hl⟩
    · obtain rfl := Option.some.inj hk
      exact ⟨by decide, fun h => absurd h (by decide)⟩
    · obtain ⟨p, hp, rfl⟩ := List.mem_map.1 hls
      obtain rfl := List.mem_singleton.1 hl
      constructor
      · rcases p.token?_lexeme with h | h | h
        · obtain rfl := Option.some.inj (hk.symm.trans h)
          decide
        · obtain rfl := Option.some.inj (hk.symm.trans h)
          decide
        · obtain rfl := Option.some.inj (hk.symm.trans h)
          decide
      · rintro rfl
        obtain ⟨c, cs, hc, hcs, rfl⟩ := Identifier.exists_eq_bare hk
        exact i.table_words _ hp

lemma nested_columnLexemes : Token.Kind.Nested (fun _ => True) (kinds i.columnLexemes) := by
  refine Token.Kind.nested_of_forall fun k hk => ?_
  obtain ⟨l, hl, hk⟩ := List.mem_filterMap.1 hk
  rcases mem_intercalate hl with rfl | ⟨ls, hls, hl⟩
  · obtain rfl := Option.some.inj hk
    decide
  · obtain ⟨c, -, rfl⟩ := List.mem_map.1 hls
    obtain ⟨k', hkinds, h⟩ := c.kinds_lexemes
    have hmem : k ∈ kinds c.lexemes := List.mem_filterMap.2 ⟨l, hl, hk⟩
    rw [hkinds, List.mem_singleton] at hmem
    rcases h with rfl | rfl | rfl
    · exact hmem ▸ ⟨nofun, nofun, trivial⟩
    · exact hmem ▸ ⟨nofun, nofun, trivial⟩
    · exact hmem ▸ ⟨nofun, nofun, trivial⟩

lemma rows_rowLexemes (pos : Nat) :
    Statement.Rows (tokens pos i.rowLexemes) (RowForm.valueRows pos i.rows) := by
  obtain ⟨r, rs, hr⟩ := List.exists_cons_of_ne_nil i.rows_ne
  rw [rowLexemes, hr]
  exact RowForm.rows r rs pos

lemma exists_tokens_listLexemes (pos : Nat) : ∃ p q r s, tokens pos i.listLexemes =
    ⟨.openParen, p, ['(']⟩ :: (tokens q i.columnLexemes ++
      [⟨.closeParen, r, [')']⟩, ⟨.word, s, i.values.text⟩]) := by
  rw [listLexemes, tokens_append, tokens_cons, tokens_append, tokens_cons, tokens_append,
    Gap.tokens_lexemes, Gap.tokens_lexemes]
  exact ⟨_, _, _, _, rfl⟩

/-- The tokens of a written statement: words and names, the column list, `VALUES`, and the rows. -/
theorem exists_tokens : ∃ ws o cs c v, (SqlText.mk d i.text).tokens =
      ws ++ o :: (cs ++ c :: v :: tokens (Text.width i.front) i.rowLexemes) ∧
    (∀ w ∈ ws, (w.kind ≠ .openParen ∧ w.kind ≠ .closeParen ∧ w.kind ≠ .semicolon) ∧
      w.isWord "values" = false ∧ w.isWord "value" = false) ∧
    o.kind = .openParen ∧ Token.Kind.Nested (fun _ => True) (cs.map (·.kind)) ∧
      c.kind = .closeParen ∧ v.isWord "values" := by
  have htokens : (SqlText.mk d i.text).tokens = tokens 0 i.nameLexemes ++
      (tokens (Text.width (textOf i.nameLexemes)) i.listLexemes ++
        tokens (Text.width i.front) i.rowLexemes) := by
    rw [i.readAs.tokens, lexemes, tokens_append, tokens_append, ← i.textOf_front, textOf_append,
      Text.width_append, Nat.zero_add]
  obtain ⟨p, q, r, s, hlist⟩ := i.exists_tokens_listLexemes (Text.width (textOf i.nameLexemes))
  refine ⟨tokens 0 i.nameLexemes, ⟨.openParen, p, ['(']⟩, tokens q i.columnLexemes,
    ⟨.closeParen, r, [')']⟩, ⟨.word, s, i.values.text⟩, ?_, fun w hw => ?_, rfl, ?_, rfl, ?_⟩
  · rw [htokens, hlist]
    simp
  -- no token of the name is the word behind the column list
  · obtain ⟨l, hl, hk, ht⟩ := exists_lexeme_of_mem_tokens hw
    obtain ⟨hkind, hword⟩ := i.plain_of_mem_nameLexemes hl hk
    have hlower : Text.lower "value".toList = "value".toList ∧
        Text.lower "values".toList = "values".toList := by decide
    have hne : ∀ {x : String}, (w.kind = .word → Text.lower l.text ≠ Text.lower x.toList) →
        w.isWord x = false := by
      intro x hx
      rw [← Bool.not_eq_true, Token.isWord_iff, ← ht]
      exact fun h => hx h.1 h.2
    exact ⟨hkind, hne fun h => hlower.2 ▸ (hword h).2, hne fun h => hlower.1 ▸ (hword h).1⟩
  · rw [map_kind_tokens]
    exact i.nested_columnLexemes
  · have hvalues : Text.sameWord i.values.text "values".toList = true := by
      rw [Text.sameWord_iff, i.values.lower_eq]
      decide
    rw [Token.isWord, hvalues]
    rfl

end InsertForm

end QueryGuard
