import QueryGuard.Proofs.Sql.InsertForm

/-!
The head of a written `INSERT`. The head is read from a text with blanks in the place of comments,
where every gap is a run of blanks. Main statement: the readers of heads give back the name of the
table and the names of the columns that were written.
-/

namespace QueryGuard

open Lexeme

variable {d : Dialect}

namespace Head

variable {g s cs rest : List Char}

/-! ### Gaps and keywords -/

lemma isGap_eq_false_of_class {p : Char → Bool}
    (hp : [' ', '\t', '\r', '\n'].all fun c => !p c) {c : Char} (hc : p c) : isGap c = false := by
  rw [← Bool.not_eq_true]
  intro hg
  have hmem : c ∈ [' ', '\t', '\r', '\n'] := by
    simpa [isGap, or_assoc] using hg
  have := List.all_eq_true.1 hp c hmem
  rw [hc] at this
  cases this

lemma skipGap_of_head? (hs : ∀ c ∈ s.head?, isGap c = false) : skipGap s = s := by
  cases s with
  | nil => rfl
  | cons c s => exact List.dropWhile_cons_of_neg (by simp [hs c rfl])

lemma gap?_append (hne : g ≠ []) (hg : ∀ c ∈ g, isGap c)
    (hs : ∀ c ∈ s.head?, isGap c = false) : gap? (g ++ s) = some s := by
  obtain ⟨c, g, rfl⟩ := List.exists_cons_of_ne_nil hne
  have hc : ((c :: g) ++ s).head?.any isGap = true := hg c List.mem_cons_self
  rw [gap?, if_pos hc, skipGap_append hg, skipGap_of_head? hs]

lemma keyword?_append {w : String} (spelling : Spelling w) (hw : Text.lower w.toList = w.toList)
    (hr : ∀ c ∈ rest.head?, Token.continuesWord c = false) :
    keyword? w (spelling.text ++ rest) = some rest := by
  have hlen : w.toList.length = spelling.text.length := by
    rw [← spelling.lower_eq, Text.lower, List.length_map]
  have hsame : Text.beginsWithWord w.toList (spelling.text ++ rest) = true := by
    rw [Text.beginsWithWord, hlen, List.take_left, Text.sameWord_iff, hw, spelling.lower_eq]
  have hnext : ¬ rest.head?.any Token.continuesWord = true := by
    cases rest with
    | nil => exact Bool.false_ne_true
    | cons c r =>
      have hc := hr c rfl
      rw [List.head?_cons, Option.any_some, hc]
      exact Bool.false_ne_true
  simp only [keyword?, hlen, List.drop_left]
  exact if_pos ⟨hsame, hnext⟩

/-- A keyword is not there where another text stands in the place of its first characters. -/
lemma keyword?_eq_none {w : String} {n : Nat} (hn : n ≤ w.toList.length)
    (h : (Text.lower w.toList).take n ≠ (Text.lower cs).take n) : keyword? w cs = none := by
  refine if_neg fun hk => h ?_
  have hb := hk.1
  rw [Text.beginsWithWord, Text.sameWord_iff] at hb
  rw [hb, Text.lower, Text.lower, List.map_take, List.take_take, Nat.min_eq_left hn]

lemma skipModifiers_eq {words : List String} (hg : gap? cs = some s)
    (hw : anyKeyword? words s = none) : skipModifiers words cs = cs := by
  rw [skipModifiers]
  split
  · rfl
  · next h =>
    obtain rfl := Option.some.inj (hg.symm.trans h)
    split
    · rfl
    · next h' =>
      rw [hw] at h'
      cases h'

/-! ### Names -/

lemma closing?_of_continuesWord {c : Char} (hc : Token.continuesWord c) : closing? c = none := by
  have hne : ∀ e, Token.continuesWord e = false → c ≠ e := by
    rintro e he rfl
    rw [hc] at he
    cases he
  simp [closing?, hne '[' (by decide), hne Quote.double.char (by decide),
    hne Quote.back.char (by decide)]

lemma closing?_char {q : Quote} (hq : q ≠ .single) : closing? q.char = some q.char := by
  cases q with
  | single => exact absurd rfl hq
  | double => rfl
  | back => rfl

/-- **A written name is read back** without its quotes. -/
theorem identifier?_append (i : Identifier d)
    (hs : ∀ c ∈ s.head?, Token.continuesWord c = false) :
    identifier? (i.text ++ s) = some (i.name, s) := by
  cases i with
  | bare c cs hc hcs =>
    have hw := Token.continuesWord_of_beginsWord hc
    have htake : (cs ++ s).takeWhile Token.continuesWord = cs :=
      Text.takeWhile_append_of_forall hcs hs
    have hdrop : (cs ++ s).dropWhile Token.continuesWord = s := by
      rw [List.dropWhile_append_of_pos hcs]
      cases s with
      | nil => rfl
      | cons e s => exact List.dropWhile_cons_of_neg (by simp [hs e rfl])
    show identifier? (c :: (cs ++ s)) = some (c :: cs, s)
    simp only [identifier?, closing?_of_continuesWord hw, hw, if_true, htake, hdrop]
  | quoted q name hq hb hn =>
    have hne : ∀ c ∈ name, decide (c ≠ q.char) = true := fun c hc =>
      decide_eq_true fun e => hn (e ▸ hc)
    have htext : (Identifier.quoted q name hq hb hn).text ++ s =
        q.char :: (name ++ q.char :: s) := by
      simp [Identifier.text]
    have hdrop : (name ++ q.char :: s).dropWhile (· ≠ q.char) = q.char :: s := by
      rw [List.dropWhile_append_of_pos hne, List.dropWhile_cons_of_neg (by simp)]
    have htake : (name ++ q.char :: s).takeWhile (· ≠ q.char) = name := by
      rw [List.takeWhile_append_of_pos hne, List.takeWhile_cons_of_neg (by simp), List.append_nil]
    rw [htext]
    simp only [identifier?, closing?_char hq, hdrop, htake]
    rfl

/-- A point goes on with no name, and neither does what stands behind the last part. -/
lemma stops_parts (ps : List (Identifier d))
    (hs : ∀ c ∈ s.head?, Token.continuesWord c = false ∧ c ≠ '.') :
    ∀ c ∈ (ps.flatMap (fun p => '.' :: p.text) ++ s).head?, Token.continuesWord c = false := by
  cases ps with
  | nil => exact fun c hc => (hs c hc).1
  | cons p ps => exact Text.forall_head? rfl (by decide)

lemma dottedParts_append (ps : List (Identifier d))
    (hs : ∀ c ∈ s.head?, Token.continuesWord c = false ∧ c ≠ '.') :
    dottedParts (ps.flatMap (fun p => '.' :: p.text) ++ s) = (ps.map Identifier.name, s) := by
  induction ps with
  | nil =>
    cases s with
    | nil => rw [List.flatMap_nil, List.nil_append, dottedParts]; rfl
    | cons c s =>
      rw [List.flatMap_nil, List.nil_append, dottedParts, if_neg (hs c rfl).2]
      rfl
  | cons p ps ih =>
    have hname := identifier?_append p (stops_parts ps hs)
    rw [List.flatMap_cons, List.append_assoc, List.cons_append, dottedParts, if_pos rfl]
    split
    · next h =>
      rw [hname] at h
      cases h
    · next h =>
      rw [hname] at h
      obtain ⟨rfl, rfl⟩ := Prod.mk.inj (Option.some.inj h)
      rw [ih]
      rfl

/-- **The parts of a written table name are read back.** -/
theorem tableName?_append {ps : List (Identifier d)} (hne : ps ≠ [])
    (hs : ∀ c ∈ s.head?, Token.continuesWord c = false ∧ c ≠ '.') :
    tableName? (['.'].intercalate (ps.map Identifier.text) ++ s) =
      some (".".intercalate (ps.map fun p => String.ofList p.name), s) := by
  obtain ⟨p, ps, rfl⟩ := List.exists_cons_of_ne_nil hne
  have hflat : (ps.map Identifier.text).flatMap ('.' :: ·) =
      ps.flatMap fun p => '.' :: p.text := List.flatMap_map ..
  rw [List.map_cons, intercalate_cons, hflat, List.append_assoc, tableName?,
    identifier?_append p (stops_parts ps hs)]
  simp only [Option.bind_eq_bind, Option.bind_some, dottedParts_append ps hs, List.map_cons,
    List.map_map]
  rfl

/-! ### Column lists -/

lemma commaParts_of_comma {name after : List Char} (h : skipGap cs = ',' :: after)
    (hi : identifier? (skipGap after) = some (name, rest)) :
    commaParts cs = (name :: (commaParts rest).1, (commaParts rest).2) := by
  rw [commaParts]
  split
  · next h' =>
    rw [h] at h'
    cases h'
  · next c after' h' =>
    obtain ⟨rfl, rfl⟩ := List.cons.inj (h.symm.trans h')
    rw [if_pos rfl]
    split
    · next hi' =>
      rw [hi] at hi'
      cases hi'
    · next hi' =>
      obtain ⟨rfl, rfl⟩ := Prod.mk.inj (Option.some.inj (hi.symm.trans hi'))
      rfl

lemma commaParts_of_ne (h : ∀ c ∈ (skipGap cs).head?, c ≠ ',') : commaParts cs = ([], cs) := by
  rw [commaParts]
  split
  · rfl
  · next c after h' => exact if_neg (h c (by rw [h']; rfl))

end Head

/-- The column in a text with blanks in the place of comments. -/
def ColumnForm.masked (c : ColumnForm d) : List Char :=
  maskOf c.before.lexemes ++ (c.name.text ++ maskOf c.after.lexemes)

lemma ColumnForm.maskOf_lexemes (c : ColumnForm d) : maskOf c.lexemes = c.masked := by
  rw [lexemes, maskOf_append, maskOf_cons, Identifier.mask_lexeme, masked]

/-- A word that begins with a letter begins with no gap. -/
lemma Spelling.isGap_of_head?_text {w : String} (spelling : Spelling w)
    (hw : w.toList.head?.any (·.isAlpha)) {s : List Char} :
    ∀ c ∈ (spelling.text ++ s).head?, Head.isGap c = false := by
  have hlower := spelling.lower_eq
  cases htext : spelling.text with
  | nil =>
    rw [htext] at hlower
    rw [← hlower] at hw
    cases hw
  | cons e cs =>
    rw [htext] at hlower
    rw [← hlower] at hw
    refine Text.forall_head? rfl ?_
    exact Head.isGap_eq_false_of_class (p := Text.isAlphabetic) (by decide)
      (Head.isAlphabetic_of_toLower hw)

lemma Identifier.isGap_of_head?_text (i : Identifier d) {s : List Char} :
    ∀ c ∈ (i.text ++ s).head?, Head.isGap c = false := by
  cases i with
  | bare e cs he =>
    exact Text.forall_head? rfl
      (Head.isGap_eq_false_of_class (p := Token.beginsWord) (by decide) he)
  | quoted q =>
    refine Text.forall_head? rfl ?_
    cases q <;> decide

namespace Head

variable {g s : List Char}

lemma skipGap_masked (c : ColumnForm d) (s : List Char) :
    skipGap (c.masked ++ s) = c.name.text ++ (maskOf c.after.lexemes ++ s) := by
  rw [ColumnForm.masked, List.append_assoc, List.append_assoc,
    skipGap_append fun _ => Gap.isGap_of_mem_maskOf]
  exact skipGap_of_head? c.name.isGap_of_head?_text

/-- Behind a name stand blanks, or what comes behind them. -/
lemma stops_gap (hg : ∀ c ∈ g, isGap c) (hs : ∀ c ∈ s.head?, Token.continuesWord c = false) :
    ∀ c ∈ (g ++ s).head?, Token.continuesWord c = false := by
  cases g with
  | nil => exact hs
  | cons e g => exact Text.forall_head? rfl (continuesWord_of_isGap (hg e List.mem_cons_self))

lemma stops_columns (cs : List (ColumnForm d)) (s : List Char) :
    ∀ c ∈ (cs.flatMap (fun c => ',' :: c.masked) ++ ')' :: s).head?,
      Token.continuesWord c = false := by
  cases cs with
  | nil => exact Text.forall_head? rfl (by decide)
  | cons c cs => exact Text.forall_head? rfl (by decide)

lemma commaParts_append (cs : List (ColumnForm d)) (hg : ∀ c ∈ g, isGap c) (s : List Char) :
    ∃ g', (∀ c ∈ g', isGap c) ∧
      commaParts (g ++ (cs.flatMap (fun c => ',' :: c.masked) ++ ')' :: s)) =
        (cs.map (·.name.name), g' ++ ')' :: s) := by
  induction cs generalizing g with
  | nil =>
    refine ⟨g, hg, commaParts_of_ne ?_⟩
    rw [List.flatMap_nil, List.nil_append, skipGap_append hg,
      skipGap_of_head? (Text.forall_head? rfl (by decide))]
    exact Text.forall_head? rfl (by decide)
  | cons c cs ih =>
    have hafter : ∀ x ∈ maskOf c.after.lexemes, isGap x := fun _ => Gap.isGap_of_mem_maskOf
    obtain ⟨g', hg', hrest⟩ := ih hafter
    refine ⟨g', hg', ?_⟩
    have hcomma : skipGap (g ++ ((c :: cs).flatMap (fun c => ',' :: c.masked) ++ ')' :: s)) =
        ',' :: (c.masked ++ (cs.flatMap (fun c => ',' :: c.masked) ++ ')' :: s)) := by
      rw [skipGap_append hg, List.flatMap_cons, List.append_assoc]
      exact skipGap_of_head? (Text.forall_head? rfl (by decide))
    have hname := identifier?_append c.name (stops_gap hafter (stops_columns cs s))
    rw [← skipGap_masked] at hname
    rw [commaParts_of_comma hcomma hname, hrest]
    rfl

/-- **A written column list is read back.** -/
theorem columnList?_append {cs : List (ColumnForm d)} (hne : cs ≠ []) (s : List Char) :
    columnList? ('(' :: ([','].intercalate (cs.map ColumnForm.masked) ++ ')' :: s)) =
      some (cs.map fun c => String.ofList c.name.name) := by
  obtain ⟨c, cs, rfl⟩ := List.exists_cons_of_ne_nil hne
  have hafter : ∀ x ∈ maskOf c.after.lexemes, isGap x := fun _ => Gap.isGap_of_mem_maskOf
  have hflat : (cs.map ColumnForm.masked).flatMap (',' :: ·) =
      cs.flatMap fun c => ',' :: c.masked := List.flatMap_map ..
  have hname := identifier?_append c.name (stops_gap hafter (stops_columns cs s))
  rw [← skipGap_masked] at hname
  obtain ⟨g, hg, hrest⟩ := commaParts_append cs hafter s
  have hclose : (skipGap (g ++ ')' :: s)).head? = some ')' := by
    rw [skipGap_append hg, skipGap_of_head? (Text.forall_head? rfl (by decide))]
    rfl
  rw [List.map_cons, intercalate_cons, hflat, List.append_assoc]
  simp only [columnList?, List.head?_cons, guard, if_true, List.drop_one, List.tail_cons, hname,
    Option.bind_eq_bind, Option.bind_some, Option.pure_def, hrest, hclose, List.map_cons,
    List.map_map]
  rfl

/-! ### The whole head -/

lemma stops_gap_of_ne_nil (hne : g ≠ []) (hg : ∀ c ∈ g, isGap c) (s : List Char) :
    ∀ c ∈ (g ++ s).head?, Token.continuesWord c = false := by
  obtain ⟨e, g, rfl⟩ := List.exists_cons_of_ne_nil hne
  exact Text.forall_head? rfl (continuesWord_of_isGap (hg e List.mem_cons_self))

/-- No modifier stands where the word `INTO` does: they differ in their first two letters. -/
lemma anyKeyword?_into (into : Spelling "into") (s : List Char) :
    anyKeyword? ["low_priority", "delayed", "high_priority", "ignore"] (into.text ++ s) = none := by
  have htake : (Text.lower (into.text ++ s)).take 2 = ['i', 'n'] := by
    have h := into.lower_eq
    rw [Text.lower] at h
    rw [Text.lower, List.map_append, h]
    rfl
  have hall : ∀ w ∈ ["low_priority", "delayed", "high_priority", "ignore"],
      2 ≤ w.toList.length ∧ (Text.lower w.toList).take 2 ≠ ['i', 'n'] := by decide
  refine List.findSome?_eq_none_iff.2 fun w hw => ?_
  exact keyword?_eq_none (hall w hw).1 (htake ▸ (hall w hw).2)

/-- The name of the table ends where a gap or the column list begins. -/
lemma stops_table (hg : ∀ c ∈ g, isGap c) (s : List Char) :
    ∀ c ∈ (g ++ '(' :: s).head?, Token.continuesWord c = false ∧ c ≠ '.' := by
  intro c hc
  refine ⟨stops_gap hg (Text.forall_head? rfl (by decide)) c hc, ?_⟩
  rintro rfl
  cases g with
  | nil => exact absurd (Option.some.inj hc) (by decide)
  | cons e g =>
    have he := hg e List.mem_cons_self
    rw [Option.some.inj hc] at he
    exact absurd he (by decide)

/-- **The head of an `INSERT` is read** keyword by keyword, then the table, then the columns. -/
theorem insert?_append {g₁ g₂ g₃ : List Char} {table : List (Identifier d)}
    {columns : List (ColumnForm d)} (insert : Spelling "insert") (into : Spelling "into")
    (h₁ : ∀ c ∈ g₁, isGap c) (n₁ : g₁ ≠ []) (h₂ : ∀ c ∈ g₂, isGap c) (n₂ : g₂ ≠ [])
    (h₃ : ∀ c ∈ g₃, isGap c) (ht : table ≠ []) (hc : columns ≠ []) (s : List Char) :
    insert? (insert.text ++ (g₁ ++ (into.text ++ (g₂ ++
        (['.'].intercalate (table.map Identifier.text) ++ (g₃ ++
          '(' :: ([','].intercalate (columns.map ColumnForm.masked) ++ ')' :: s))))))) =
      some (".".intercalate (table.map fun p => String.ofList p.name),
        some (columns.map fun c => String.ofList c.name.name)) := by
  have hlist := columnList?_append hc s
  generalize [','].intercalate (columns.map ColumnForm.masked) ++ ')' :: s = list at hlist ⊢
  have hopen : skipGap (g₃ ++ '(' :: list) = '(' :: list := by
    rw [skipGap_append h₃]
    exact skipGap_of_head? (Text.forall_head? rfl (by decide))
  have htable : tableName? (['.'].intercalate (table.map Identifier.text) ++ (g₃ ++ '(' :: list)) =
      some (".".intercalate (table.map fun p => String.ofList p.name), g₃ ++ '(' :: list) :=
    tableName?_append ht (stops_table h₃ list)
  have hname : ∀ c ∈ (['.'].intercalate (table.map Identifier.text) ++ (g₃ ++ '(' :: list)).head?,
      isGap c = false := by
    obtain ⟨p, ps, rfl⟩ := List.exists_cons_of_ne_nil ht
    rw [List.map_cons, intercalate_cons, List.append_assoc]
    exact p.isGap_of_head?_text
  generalize ['.'].intercalate (table.map Identifier.text) ++ (g₃ ++ '(' :: list) = cs
    at htable hname ⊢
  have hfirst : skipGap (insert.text ++ (g₁ ++ (into.text ++ (g₂ ++ cs)))) =
      insert.text ++ (g₁ ++ (into.text ++ (g₂ ++ cs))) :=
    skipGap_of_head? (insert.isGap_of_head?_text (by decide))
  have hverb : anyKeyword? ["insert", "replace"] (insert.text ++ (g₁ ++ (into.text ++ (g₂ ++ cs)))) =
      some (g₁ ++ (into.text ++ (g₂ ++ cs))) := by
    have h := keyword?_append insert (by decide)
      (stops_gap_of_ne_nil n₁ h₁ (into.text ++ (g₂ ++ cs)))
    rw [anyKeyword?, List.findSome?_cons, h]
  have hgap : gap? (g₁ ++ (into.text ++ (g₂ ++ cs))) = some (into.text ++ (g₂ ++ cs)) :=
    gap?_append n₁ h₁ (into.isGap_of_head?_text (by decide))
  have hinto : keyword? "into" (into.text ++ (g₂ ++ cs)) = some (g₂ ++ cs) :=
    keyword?_append into (by decide) (stops_gap_of_ne_nil n₂ h₂ cs)
  simp only [insert?, hfirst, hverb, Option.bind_eq_bind, Option.bind_some,
    skipModifiers_eq hgap (anyKeyword?_into into (g₂ ++ cs)), hgap, hinto, Option.getD_some,
    gap?_append n₂ h₂ hname, htable, hopen, hlist, Option.pure_def]

end Head

namespace InsertForm

variable (i : InsertForm d)

/-! ### The head -/

lemma maskOf_tableLexemes :
    maskOf i.tableLexemes = ['.'].intercalate (i.table.map Identifier.text) := by
  refine maskOf_intercalate (fun p => ?_) '.' i.table
  rw [maskOf_cons, Identifier.mask_lexeme]
  exact List.append_nil _

lemma maskOf_columnLexemes :
    maskOf i.columnLexemes = [','].intercalate (i.columns.map ColumnForm.masked) :=
  maskOf_intercalate ColumnForm.maskOf_lexemes ',' i.columns

/-- The statement with blanks in the place of comments. -/
lemma maskOf_lexemes : ∃ s, maskOf i.lexemes = i.insert.text ++ (maskOf i.afterInsert.lexemes ++
    (i.into.text ++ (maskOf i.afterInto.lexemes ++
      (['.'].intercalate (i.table.map Identifier.text) ++ (maskOf i.afterTable.lexemes ++
        '(' :: ([','].intercalate (i.columns.map ColumnForm.masked) ++ ')' :: s)))))) := by
  rw [lexemes, nameLexemes, listLexemes, ← i.maskOf_tableLexemes, ← i.maskOf_columnLexemes]
  refine ⟨maskOf i.afterColumns.lexemes ++ (i.values.text ++ maskOf i.rowLexemes), ?_⟩
  simp [maskOf, mask, word, single]

/-- **The head of a written statement is read back**: the name of the table and those of the
columns, without quotes. -/
theorem insert?_maskOf :
    Head.insert? (maskOf i.lexemes) = some (i.tableName, some i.columnNames) := by
  have hgap : ∀ g : Gap d, ∀ c ∈ maskOf g.lexemes, Head.isGap c := fun _ _ =>
    Gap.isGap_of_mem_maskOf
  obtain ⟨s, hs⟩ := i.maskOf_lexemes
  rw [hs]
  exact Head.insert?_append i.insert i.into (hgap _) (Gap.maskOf_ne_nil i.afterInsert_ne) (hgap _)
    (Gap.maskOf_ne_nil i.afterInto_ne) (hgap _) i.table_ne i.columns_ne s

end InsertForm

end QueryGuard
