import QueryGuard.Proofs.Sql.HeadTokens
import QueryGuard.Proofs.Sql.Outline

/-!
The head of an `INSERT` in a longer text. Once the readers of heads have found a column list, they
look no further. Main statement: a text that begins with one in which a column list is found has the
same table and the same columns.
-/

namespace QueryGuard

namespace Text

variable {p : Char → Bool} {cs : List Char}

/-- Where characters are taken up to one that ends them, it does not matter what follows it. -/
lemma takeWhile_append_of_dropWhile (h : cs.dropWhile p ≠ []) (xs : List Char) :
    (cs ++ xs).takeWhile p = cs.takeWhile p ∧
      (cs ++ xs).dropWhile p = cs.dropWhile p ++ xs := by
  induction cs with
  | nil => exact absurd rfl h
  | cons c cs ih =>
    by_cases hc : p c
    · rw [List.dropWhile_cons_of_pos hc] at h
      obtain ⟨htake, hdrop⟩ := ih h
      rw [List.cons_append, List.takeWhile_cons_of_pos hc, List.takeWhile_cons_of_pos hc, htake,
        List.dropWhile_cons_of_pos hc, List.dropWhile_cons_of_pos hc, hdrop]
      exact ⟨rfl, rfl⟩
    · rw [List.cons_append, List.takeWhile_cons_of_neg hc, List.takeWhile_cons_of_neg hc,
        List.dropWhile_cons_of_neg hc, List.dropWhile_cons_of_neg hc]
      exact ⟨rfl, rfl⟩

end Text

namespace Head

variable {cs rest : List Char}

/-! ### In front of a parenthesis

The words and gaps of a head hold no parenthesis, so what is read in front of one is read in front
of it in every longer text. -/

lemma mem_skipGap_iff : '(' ∈ skipGap cs ↔ '(' ∈ cs := by
  refine ⟨fun h => (List.dropWhile_sublist _).subset h, fun h => ?_⟩
  rw [← List.takeWhile_append_dropWhile (p := isGap) (l := cs)] at h
  rcases List.mem_append.1 h with h | h
  · exact absurd (List.mem_takeWhile_imp h) (by decide)
  · exact h

lemma skipGap_append_of_ne_nil (h : skipGap cs ≠ []) (xs : List Char) :
    skipGap (cs ++ xs) = skipGap cs ++ xs := (Text.takeWhile_append_of_dropWhile h xs).2

lemma skipGap_append_of_mem (h : '(' ∈ cs) (xs : List Char) :
    skipGap (cs ++ xs) = skipGap cs ++ xs :=
  skipGap_append_of_ne_nil (List.ne_nil_of_mem (mem_skipGap_iff.2 h)) xs

lemma mem_of_gap? (h : gap? cs = some rest) : '(' ∈ rest ↔ '(' ∈ cs := by
  unfold gap? at h
  split at h
  · obtain rfl := Option.some.inj h
    exact mem_skipGap_iff
  · cases h

lemma gap?_append_of_mem (h : '(' ∈ cs) (xs : List Char) :
    gap? (cs ++ xs) = (gap? cs).map (· ++ xs) := by
  obtain ⟨c, cs', rfl⟩ := List.exists_cons_of_ne_nil (List.ne_nil_of_mem h)
  rw [gap?, gap?, skipGap_append_of_mem h, List.cons_append, List.head?_cons, List.head?_cons]
  split <;> rfl

/-- The keywords of a head hold no parenthesis. -/
def Plain (word : String) : Prop := '(' ∉ Text.lower word.toList

instance (word : String) : Decidable (Plain word) := inferInstanceAs (Decidable (_ ∉ _))

lemma not_mem_of_sameWord {word : String} (hw : Plain word)
    (h : Text.sameWord word.toList cs) : '(' ∉ cs := by
  intro hm
  rw [Text.sameWord_iff] at h
  exact hw (h ▸ List.mem_map.2 ⟨_, hm, rfl⟩)

lemma mem_of_keyword? {word : String} (hw : Plain word) (h : keyword? word cs = some rest) :
    '(' ∈ rest ↔ '(' ∈ cs := by
  simp only [keyword?, Option.ite_none_right_eq_some, Option.some.injEq] at h
  obtain ⟨⟨hb, -⟩, rfl⟩ := h
  have hn := not_mem_of_sameWord hw hb
  conv_rhs => rw [← List.take_append_drop word.toList.length cs]
  rw [List.mem_append, or_iff_right hn]

lemma keyword?_append_of_mem {word : String} (hw : Plain word) (h : '(' ∈ cs) (xs : List Char) :
    keyword? word (cs ++ xs) = (keyword? word cs).map (· ++ xs) := by
  by_cases hn : word.toList.length ≤ cs.length
  · have hbegins : Text.beginsWithWord word.toList (cs ++ xs) =
        Text.beginsWithWord word.toList cs := by
      rw [Text.beginsWithWord, List.take_append_of_le_length hn, Text.beginsWithWord]
    have hdrop : (cs ++ xs).drop word.toList.length = cs.drop word.toList.length ++ xs :=
      List.drop_append_of_le_length hn
    simp only [keyword?, hbegins, hdrop]
    by_cases hb : Text.beginsWithWord word.toList cs
    · -- the parenthesis stands behind the word
      obtain ⟨c, r, hr⟩ : ∃ c r, cs.drop word.toList.length = c :: r := by
        refine List.exists_cons_of_ne_nil (List.ne_nil_of_mem (a := '(') ?_)
        rw [← List.take_append_drop word.toList.length cs, List.mem_append] at h
        exact h.resolve_left (not_mem_of_sameWord hw hb)
      rw [hr, List.cons_append, List.head?_cons, List.head?_cons, apply_ite (Option.map _)]
      rfl
    · rw [if_neg fun hk => hb hk.1, if_neg fun hk => hb hk.1]
      rfl
  · -- the parenthesis stands in the place of a character of the word
    have htake : ∀ ys, '(' ∈ (cs ++ ys).take word.toList.length := fun ys => by
      rw [List.take_append, List.take_of_length_le (Nat.le_of_not_le hn)]
      exact List.mem_append_left _ h
    have hnone : ∀ ys, keyword? word (cs ++ ys) = none := fun ys =>
      if_neg fun hk => not_mem_of_sameWord hw hk.1 (htake ys)
    have hcs := hnone []
    rw [List.append_nil] at hcs
    rw [hnone, hcs]
    rfl

variable {words : List String}

lemma mem_of_anyKeyword? (hw : ∀ w ∈ words, Plain w) (h : anyKeyword? words cs = some rest) :
    '(' ∈ rest ↔ '(' ∈ cs := by
  obtain ⟨_, w, _, rfl, h, -⟩ := List.findSome?_eq_some_iff.1 h
  exact mem_of_keyword? (hw w (by simp)) h

lemma anyKeyword?_append_of_mem (hw : ∀ w ∈ words, Plain w) (h : '(' ∈ cs) (xs : List Char) :
    anyKeyword? words (cs ++ xs) = (anyKeyword? words cs).map (· ++ xs) := by
  induction words with
  | nil => rfl
  | cons w ws ih =>
    obtain ⟨hw, hws⟩ := List.forall_mem_cons.1 hw
    have ih := ih hws
    simp only [anyKeyword?, List.findSome?_cons] at ih ⊢
    rw [keyword?_append_of_mem hw h, ih]
    cases keyword? w cs <;> rfl

lemma mem_skipModifiers_iff (hw : ∀ w ∈ words, Plain w) :
    '(' ∈ skipModifiers words cs ↔ '(' ∈ cs := by
  fun_induction skipModifiers words cs with
  | case1 => rfl
  | case2 => rfl
  | case3 cs r hg rest hk ih => rw [ih, mem_of_anyKeyword? hw hk, mem_of_gap? hg]

lemma skipModifiers_append_of_mem (hw : ∀ w ∈ words, Plain w) (h : '(' ∈ cs) (xs : List Char) :
    skipModifiers words (cs ++ xs) = skipModifiers words cs ++ xs := by
  fun_induction skipModifiers words cs with
  | case1 cs hg =>
    -- no blank is there, so no modifier
    have hgap := gap?_append_of_mem h xs
    rw [hg] at hgap
    rw [skipModifiers]
    split
    · rfl
    · next h' =>
      rw [hgap] at h'
      cases h'
  | case2 cs r hg hk =>
    -- behind the blanks there is no modifier
    have hgap := gap?_append_of_mem h xs
    have hkey := anyKeyword?_append_of_mem hw ((mem_of_gap? hg).2 h) xs
    rw [hg] at hgap
    rw [hk] at hkey
    exact skipModifiers_eq hgap hkey
  | case3 cs r hg rest hk ih =>
    -- a modifier is taken, and the parenthesis is in what is left
    have hr := (mem_of_gap? hg).2 h
    have hgap := gap?_append_of_mem h xs
    have hkey := anyKeyword?_append_of_mem hw hr xs
    rw [hg] at hgap
    rw [hk] at hkey
    rw [skipModifiers]
    split
    · next h' =>
      rw [hgap] at h'
      cases h'
    · next h' =>
      obtain rfl := Option.some.inj (hgap.symm.trans h')
      split
      · next h' =>
        rw [hkey] at h'
        cases h'
      · next h' =>
        obtain rfl := Option.some.inj (hkey.symm.trans h')
        exact ih ((mem_of_anyKeyword? hw hk).2 hr)

/-! ### Names and lists -/

variable {name : List Char} {names : List (List Char)}

lemma identifier?_append_of_some (h : identifier? cs = some (name, rest)) (hr : rest ≠ [])
    (xs : List Char) : identifier? (cs ++ xs) = some (name, rest ++ xs) := by
  cases cs with
  | nil => cases h
  | cons c cs =>
    simp only [identifier?] at h
    simp only [List.cons_append, identifier?]
    split at h
    · next close _ =>
      split at h
      · cases h
      · next e r hd =>
        obtain ⟨rfl, rfl⟩ := Prod.mk.inj (Option.some.inj h)
        obtain ⟨htake, hdrop⟩ := Text.takeWhile_append_of_dropWhile
          (fun hnil => List.cons_ne_nil e r (hd.symm.trans hnil)) xs
        simp only [htake, hdrop, hd, List.cons_append]
    · split at h
      · next hw =>
        obtain ⟨rfl, rfl⟩ := Prod.mk.inj (Option.some.inj h)
        obtain ⟨htake, hdrop⟩ := Text.takeWhile_append_of_dropWhile hr xs
        simp only [hw, if_true, htake, hdrop]
      · cases h

lemma mem_of_identifier? (h : identifier? cs = some (name, rest)) : rest ⊆ cs := by
  cases cs with
  | nil => cases h
  | cons c cs =>
    simp only [identifier?] at h
    split at h
    · next close _ =>
      have hsub := (List.dropWhile_sublist (l := cs) (· ≠ close)).subset
      split at h
      · cases h
      · next e r hd =>
        obtain ⟨-, rfl⟩ := Prod.mk.inj (Option.some.inj h)
        rw [hd] at hsub
        exact fun x hx => List.mem_cons_of_mem c (hsub (List.mem_cons_of_mem e hx))
    · split at h
      · obtain ⟨-, rfl⟩ := Prod.mk.inj (Option.some.inj h)
        exact fun x hx => List.mem_cons_of_mem c ((List.dropWhile_sublist _).subset hx)
      · cases h

lemma subset_dottedParts (cs : List Char) : (dottedParts cs).2 ⊆ cs := by
  fun_induction dottedParts cs with
  | case1 => exact List.Subset.refl _
  | case2 => exact List.Subset.refl _
  | case3 cs name rest h names rest' hrest ih =>
    rw [hrest] at ih
    exact fun x hx => List.mem_cons_of_mem _ (mem_of_identifier? h (ih hx))
  | case4 => exact List.Subset.refl _

/-- The parts of a name that no point follows. -/
lemma dottedParts_append_of_ne (hr : (dottedParts cs).2 ≠ [])
    (hd : (dottedParts cs).2.head? ≠ some '.') (xs : List Char) :
    dottedParts (cs ++ xs) = ((dottedParts cs).1, (dottedParts cs).2 ++ xs) := by
  fun_induction dottedParts cs with
  | case1 => exact absurd rfl hr
  | case2 => exact absurd rfl hd
  | case3 cs name rest h names rest' hrest ih =>
    have hne : rest ≠ [] := by
      rintro rfl
      rw [dottedParts] at hrest
      exact hr (Prod.mk.inj hrest).2.symm
    rw [hrest] at ih
    have hi := identifier?_append_of_some h hne xs
    rw [List.cons_append, dottedParts, if_pos rfl]
    split
    · next h' =>
      rw [hi] at h'
      cases h'
    · next h' =>
      obtain ⟨rfl, rfl⟩ := Prod.mk.inj (Option.some.inj (hi.symm.trans h'))
      rw [ih hr hd]
  | case4 c cs hc => rw [List.cons_append, dottedParts, if_neg hc]

lemma tableName?_eq (cs : List Char) : tableName? cs = (identifier? cs).map fun p =>
    (".".intercalate ((p.1 :: (dottedParts p.2).1).map String.ofList), (dottedParts p.2).2) := by
  rw [tableName?]
  cases identifier? cs <;> rfl

lemma mem_of_tableName? {table : String} (h : tableName? cs = some (table, rest)) : rest ⊆ cs := by
  rw [tableName?_eq] at h
  obtain ⟨⟨name, r⟩, hi, e⟩ := Option.map_eq_some_iff.1 h
  obtain ⟨-, rfl⟩ := Prod.mk.inj e
  exact fun x hx => mem_of_identifier? hi (subset_dottedParts r hx)

lemma tableName?_append_of_some {table : String} (h : tableName? cs = some (table, rest))
    (hr : rest ≠ []) (hd : rest.head? ≠ some '.') (xs : List Char) :
    tableName? (cs ++ xs) = some (table, rest ++ xs) := by
  rw [tableName?_eq] at h ⊢
  obtain ⟨⟨name, r⟩, hi, e⟩ := Option.map_eq_some_iff.1 h
  obtain ⟨rfl, rfl⟩ := Prod.mk.inj e
  have hne : r ≠ [] := by
    rintro rfl
    exact hr (by rw [dottedParts])
  rw [identifier?_append_of_some hi hne, Option.map_some, dottedParts_append_of_ne hr hd]

/-- Columns that a parenthesis closes. -/
lemma commaParts_append_of_close (h : (skipGap (commaParts cs).2).head? = some ')')
    (xs : List Char) : commaParts (cs ++ xs) = ((commaParts cs).1, (commaParts cs).2 ++ xs) := by
  have hne : ∀ {cs : List Char} {c : Char}, (skipGap cs).head? = some c → skipGap cs ≠ [] := by
    intro cs c h hnil
    rw [hnil] at h
    cases h
  fun_induction commaParts cs with
  -- the text ends, or no name stands behind the comma: neither is a parenthesis
  | case1 cs hs =>
    rw [hs] at h
    cases h
  | case2 cs after hi hs =>
    rw [hs] at h
    cases h
  | case3 cs after name rest hi names rest' hrest hs ih =>
    -- a name is read, and the reader goes on behind it
    rw [hrest] at ih
    have hrne : rest ≠ [] := by
      rintro rfl
      rw [commaParts_of_ne (by exact nofun)] at hrest
      obtain ⟨-, rfl⟩ := Prod.mk.inj hrest
      cases h
    have hskip : skipGap (cs ++ xs) = skipGap cs ++ xs :=
      skipGap_append_of_ne_nil (by rw [hs]; exact List.cons_ne_nil _ _) xs
    have hafter : skipGap after ≠ [] := by
      intro hnil
      rw [hnil] at hi
      cases hi
    rw [hs] at hskip
    have hid := identifier?_append_of_some hi hrne xs
    rw [← skipGap_append_of_ne_nil hafter] at hid
    rw [commaParts_of_comma hskip hid, ih h]
  | case4 cs c after hs hc =>
    -- the reader has stopped in front of the parenthesis
    have hskip := skipGap_append_of_ne_nil (hne h) xs
    rw [commaParts_of_ne]
    rw [hskip, hs]
    exact Text.forall_head? rfl hc

lemma head?_of_columnList? {columns : List String} (h : columnList? cs = some columns) :
    cs.head? = some '(' := by
  by_contra hc
  rw [columnList?, guard, if_neg hc] at h
  cases h

/-- A column list in a longer text. -/
lemma columnList?_append_of_some {columns : List String} (h : columnList? cs = some columns)
    (xs : List Char) : columnList? (cs ++ xs) = some columns := by
  obtain ⟨cs, rfl⟩ := List.head?_eq_some_iff.1 (head?_of_columnList? h)
  rw [columnList?_cons] at h
  obtain ⟨⟨name, r⟩, hi, h⟩ := Option.bind_eq_some_iff.1 h
  have hclose : (skipGap (commaParts r).2).head? = some ')' := by
    by_contra hne
    rw [if_neg hne] at h
    cases h
  have hr : r ≠ [] := by
    rintro rfl
    rw [commaParts_of_ne (by exact nofun)] at hclose
    cases hclose
  have hskip : skipGap cs ≠ [] := by
    intro hnil
    rw [hnil] at hi
    cases hi
  have hrest : skipGap (commaParts r).2 ≠ [] := by
    intro hnil
    rw [hnil] at hclose
    cases hclose
  rw [List.cons_append, columnList?_cons, skipGap_append_of_ne_nil hskip,
    identifier?_append_of_some hi hr, Option.bind_some, commaParts_append_of_close hclose,
    skipGap_append_of_ne_nil hrest, List.head?_append_of_ne_nil _ hrest]
  exact h

/-! ### Heads -/

/-- The columns of an `INSERT`. -/
def columns? (cs : List Char) : Option (List String) := (insert? cs).bind (·.2)

/-- What follows the keyword of an `INSERT`, without modifiers and `INTO`. -/
def afterInto (cs : List Char) : List Char :=
  let rest := skipModifiers ["low_priority", "delayed", "high_priority", "ignore"] cs
  ((gap? rest).bind (keyword? "into")).getD rest

lemma insert?_eq (cs : List Char) : insert? cs =
    (anyKeyword? ["insert", "replace"] (skipGap cs)).bind fun rest =>
      (gap? (afterInto rest)).bind fun rest => (tableName? rest).map fun p =>
        (p.1, columnList? (skipGap p.2)) := by
  rw [insert?]
  cases anyKeyword? ["insert", "replace"] (skipGap cs) with
  | none => rfl
  | some rest =>
    show (gap? (afterInto rest)).bind _ = (gap? (afterInto rest)).bind _
    cases gap? (afterInto rest) with
    | none => rfl
    | some rest =>
      show (tableName? rest).bind _ = (tableName? rest).map _
      cases tableName? rest <;> rfl

lemma plain_modifiers :
    ∀ w ∈ ["low_priority", "delayed", "high_priority", "ignore"], Plain w := by decide

lemma mem_afterInto_iff : '(' ∈ afterInto cs ↔ '(' ∈ cs := by
  have hskip : '(' ∈ skipModifiers ["low_priority", "delayed", "high_priority", "ignore"] cs ↔
      '(' ∈ cs := mem_skipModifiers_iff plain_modifiers
  rw [← hskip, afterInto]
  generalize skipModifiers ["low_priority", "delayed", "high_priority", "ignore"] cs = cs
  cases hg : gap? cs with
  | none => rfl
  | some r =>
    cases hk : keyword? "into" r with
    | none => rw [Option.bind_some, hk, Option.getD_none]
    | some rest =>
      rw [Option.bind_some, hk, Option.getD_some, mem_of_keyword? (by decide) hk, mem_of_gap? hg]

lemma afterInto_append_of_mem (h : '(' ∈ cs) (xs : List Char) :
    afterInto (cs ++ xs) = afterInto cs ++ xs := by
  rw [afterInto, skipModifiers_append_of_mem plain_modifiers h, afterInto]
  rw [← mem_skipModifiers_iff plain_modifiers] at h
  generalize skipModifiers ["low_priority", "delayed", "high_priority", "ignore"] cs = cs at h
  rw [gap?_append_of_mem h]
  cases hg : gap? cs with
  | none => rfl
  | some r =>
    rw [Option.map_some, Option.bind_some, Option.bind_some,
      keyword?_append_of_mem (by decide) ((mem_of_gap? hg).2 h)]
    cases keyword? "into" r <;> rfl

lemma exists_of_columns? {columns : List String} (h : columns? cs = some columns) :
    ∃ verb into table rest, anyKeyword? ["insert", "replace"] (skipGap cs) = some verb ∧
      gap? (afterInto verb) = some into ∧ tableName? into = some (table, rest) ∧
        columnList? (skipGap rest) = some columns := by
  rw [columns?, insert?_eq] at h
  obtain ⟨⟨table, _⟩, h, rfl⟩ := Option.bind_eq_some_iff.1 h
  obtain ⟨verb, hverb, h⟩ := Option.bind_eq_some_iff.1 h
  obtain ⟨into, hinto, h⟩ := Option.bind_eq_some_iff.1 h
  obtain ⟨⟨table, rest⟩, htable, h⟩ := Option.map_eq_some_iff.1 h
  obtain ⟨-, h⟩ := Prod.mk.inj h
  exact ⟨verb, into, table, rest, hverb, hinto, htable, h⟩

lemma plain_verbs : ∀ w ∈ ["insert", "replace"], Plain w := by decide

/-- A column list is found behind a parenthesis. -/
lemma mem_of_columns? {columns : List String} (h : columns? cs = some columns) : '(' ∈ cs := by
  obtain ⟨verb, into, table, rest, hverb, hinto, htable, hlist⟩ := exists_of_columns? h
  have hrest : '(' ∈ rest := mem_skipGap_iff.1 (List.mem_of_head? (head?_of_columnList? hlist))
  rw [← mem_skipGap_iff, ← mem_of_anyKeyword? plain_verbs hverb, ← mem_afterInto_iff,
    ← mem_of_gap? hinto]
  exact mem_of_tableName? htable hrest

/-- **A head in which a column list is found is read the same in every longer text.** -/
theorem insert?_append_of_columns? {columns : List String} (h : columns? cs = some columns)
    (xs : List Char) : insert? (cs ++ xs) = insert? cs := by
  have hmem := mem_of_columns? h
  obtain ⟨verb, into, table, rest, hverb, hinto, htable, hlist⟩ := exists_of_columns? h
  have hskip : skipGap rest ≠ [] := by
    intro hnil
    rw [hnil] at hlist
    cases hlist
  have hdot : rest.head? ≠ some '.' := by
    intro hd
    obtain ⟨r, rfl⟩ := List.head?_eq_some_iff.1 hd
    exact absurd (head?_of_columnList? hlist) (by rw [skipGap_of_head? (by simp; decide)]; simp)
  have hne : rest ≠ [] := by
    rintro rfl
    exact hskip rfl
  have hv := anyKeyword?_append_of_mem plain_verbs (mem_skipGap_iff.2 hmem) xs
  rw [hverb] at hv
  have hverbmem := (mem_of_anyKeyword? plain_verbs hverb).2 (mem_skipGap_iff.2 hmem)
  have hg := gap?_append_of_mem (mem_afterInto_iff.2 hverbmem) xs
  rw [hinto] at hg
  rw [insert?_eq, insert?_eq, skipGap_append_of_mem hmem, hv, hverb, Option.map_some,
    Option.bind_some, Option.bind_some, afterInto_append_of_mem hverbmem, hg, hinto,
    Option.map_some, Option.bind_some, Option.bind_some,
    tableName?_append_of_some htable hne hdot, htable, Option.map_some, Option.map_some,
    skipGap_append_of_ne_nil hskip, columnList?_append_of_some hlist, hlist]

lemma leadingWord?_append_of_mem (h : '(' ∈ cs) (xs : List Char) :
    leadingWord? (cs ++ xs) = leadingWord? cs := by
  have hdrop : (skipGap cs).dropWhile Text.isAlphabetic ≠ [] := by
    intro hnil
    exact absurd (List.dropWhile_eq_nil_iff.1 hnil _ (mem_skipGap_iff.2 h)) (by decide)
  rw [leadingWord?, skipGap_append_of_mem h,
    (Text.takeWhile_append_of_dropWhile hdrop xs).1, leadingWord?]

end Head

namespace SqlText

variable {t t' : SqlText} {n : Nat}

/-- The column list of the `INSERT` is found in front of the byte. -/
def ColumnsEndBy (t : SqlText) (n : Nat) : Prop :=
  (Head.columns? (Text.takeBytes n t.statementHead)).isSome

/-- The column list of the `INSERT` ends in front of the byte. -/
structure ColumnsEndAt (t : SqlText) (n : Nat) : Prop where
  endBy : t.ColumnsEndBy n
  first : ∀ m < n, ¬ t.ColumnsEndBy m

instance : Decidable (t.ColumnsEndBy n) := inferInstanceAs (Decidable (_ = _))

/-- **What is read up to the end of the column list** does not change where the text goes on in
another way. -/
theorem ColumnsEndBy.head_eq (h : t.ColumnsEndBy n)
    (e : Text.takeBytes n t'.statementHead = Text.takeBytes n t.statementHead) :
    t'.statement.kind = t.statement.kind ∧ t'.statement.columns = t.statement.columns ∧
      t'.ColumnsEndBy n := by
  obtain ⟨columns, hc⟩ := Option.isSome_iff_exists.1 h
  have hmem := Head.mem_of_columns? hc
  have hcut : ∀ u : SqlText, Text.takeBytes n u.statementHead = Text.takeBytes n t.statementHead →
      Head.leadingWord? u.statementHead =
        Head.leadingWord? (Text.takeBytes n t.statementHead) ∧
      Head.columns? u.statementHead = some columns := by
    intro u hu
    have e := Text.takeBytes_append_dropBytes n u.statementHead
    rw [hu] at e
    rw [← e, Head.leadingWord?_append_of_mem hmem, Head.columns?,
      Head.insert?_append_of_columns? hc]
    exact ⟨rfl, hc⟩
  obtain ⟨hword, hcols⟩ := hcut t rfl
  obtain ⟨hword', hcols'⟩ := hcut t' e
  have hkind : t'.statement.kind = t.statement.kind := by
    rw [kind_statement, hword', kind_statement, hword]
  refine ⟨hkind, ?_, ?_⟩
  · rw [Head.columns?] at hcols hcols'
    rw [columns_statement, columns_statement, hkind, hcols, hcols']
  · rw [ColumnsEndBy, e]
    exact h

end SqlText

end QueryGuard
