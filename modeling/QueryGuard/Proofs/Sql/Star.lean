import QueryGuard.Proofs.Sql.Loose
import QueryGuard.Proofs.Sql.Outline
import QueryGuard.Proofs.Sql.Parts

/-!
The star of a `SELECT`. In front of it stand nothing but words, white space and comments. Where
columns are listed in its place, the last of these words may grow, and the rest of the text is read
as before.
-/

namespace QueryGuard

open Grammar

variable {d : Dialect}

/-! ### What stands in front of the star -/

namespace Head

/-- A character of the words and blanks in front of a star. -/
def leads (c : Char) : Bool := isGap c || Text.isAlphabetic c

variable {cs rest : List Char}

lemma isAlphabetic_of_toLower {c : Char} (h : c.toLower.isAlpha) : Text.isAlphabetic c := by
  refine Text.isAlphabetic_of_isAlpha ?_
  by_cases hu : c.isUpper
  · exact Bool.or_eq_true_iff.2 (.inl hu)
  · have hl : c.toLower = c := dif_neg fun hc => hu (decide_eq_true hc)
    rwa [hl] at h

/-- Words and blanks, with a rest behind them. -/
def Leads (cs rest : List Char) : Prop := ∃ front, cs = front ++ rest ∧ ∀ c ∈ front, leads c

lemma Leads.refl (cs : List Char) : Leads cs cs := ⟨[], rfl, nofun⟩

lemma Leads.trans {as bs cs : List Char} (h : Leads as bs) (h' : Leads bs cs) : Leads as cs := by
  obtain ⟨xs, rfl, hx⟩ := h
  obtain ⟨ys, rfl, hy⟩ := h'
  refine ⟨xs ++ ys, (List.append_assoc ..).symm, fun c hc => ?_⟩
  exact (List.mem_append.1 hc).elim (hx c) (hy c)

lemma leads_skipGap (cs : List Char) : Leads cs (skipGap cs) := by
  refine ⟨cs.takeWhile isGap, List.takeWhile_append_dropWhile.symm, fun c hc => ?_⟩
  rw [leads, List.mem_takeWhile_imp hc, Bool.true_or]

lemma leads_keyword? {word : String} (hw : (Text.lower word.toList).all (·.isAlpha))
    (h : keyword? word cs = some rest) : Leads cs rest := by
  simp only [keyword?, Option.ite_none_right_eq_some, Option.some.injEq] at h
  obtain ⟨⟨hb, -⟩, rfl⟩ := h
  refine ⟨cs.take word.toList.length, (List.take_append_drop _ _).symm, fun c hc => ?_⟩
  rw [Text.beginsWithWord, Text.sameWord_iff] at hb
  have hl : c.toLower ∈ Text.lower word.toList := by
    rw [hb]
    exact List.mem_map_of_mem hc
  rw [leads, isAlphabetic_of_toLower (List.all_eq_true.1 hw _ hl), Bool.or_true]

lemma leads_skipKeyword (words : List String)
    (hw : ∀ w ∈ words, (Text.lower w.toList).all (·.isAlpha)) (cs : List Char) :
    Leads cs (((anyKeyword? words cs).map skipGap).getD cs) := by
  cases h : anyKeyword? words cs with
  | none => exact .refl cs
  | some rest =>
    obtain ⟨_, w, _, hm, hk, -⟩ := List.findSome?_eq_some_iff.1 h
    have hmem : w ∈ words := by rw [hm]; simp
    exact (leads_keyword? (hw w hmem) hk).trans (leads_skipGap rest)

/-- The star stands behind words and blanks. -/
lemma star?_eq_some {pos : Nat} (h : star? cs = some pos) :
    ∃ front rest, cs = front ++ '*' :: rest ∧ pos = Text.width front ∧ ∀ c ∈ front, leads c := by
  unfold star? guard at h
  simp only [Option.bind_eq_bind, Option.bind_eq_some_iff, Option.pure_def] at h
  obtain ⟨rest, hk, _, hstar, h⟩ := h
  have hselect := leads_keyword? (by decide +kernel) hk
  have hwords := leads_skipKeyword ["distinct", "all"] (by decide +kernel) (skipGap rest)
  obtain ⟨front, hcs, hfront⟩ :=
    (((leads_skipGap cs).trans hselect).trans (leads_skipGap rest)).trans hwords
  generalize ((anyKeyword? ["distinct", "all"] (skipGap rest)).map skipGap).getD (skipGap rest) =
    tail at hstar h hcs
  split at hstar
  · next hhead =>
    obtain ⟨r, rfl⟩ := List.head?_eq_some_iff.1 hhead
    refine ⟨front, r, hcs, ?_, hfront⟩
    have hp := Option.some.inj h
    rw [hcs, Text.width_append, Nat.add_sub_cancel_right] at hp
    exact hp.symm
  · cases hstar

end Head

namespace Lexeme

variable {l : Lexeme} {ls as cs : List Lexeme} {before before' : Option Char}
  {rest rest' : List Char}

/-! ### Words and blanks as lexemes -/

/-- White space, a comment or a word. -/
def Leads (l : Lexeme) : Prop := l.token? = none ∨ l.token? = some .word

lemma Leads.isPlaceholder_eq_false (h : l.Leads) : l.isPlaceholder = false := by
  rw [isPlaceholder]
  rcases h with h | h <;> rw [h] <;> rfl

/-- What stands behind a word or a blank matters by its first character only. -/
lemma Reads.congr_head? (h : l.Reads d before rest) (hl : l.Leads)
    (he : rest.head? = rest'.head?) : l.Reads d before rest' := by
  rcases hl with ht | ht
  · rcases h.blank_cases ht with ⟨c, hb, rfl⟩ | ⟨hk, hs⟩
    · exact reads_of_isBlank hb before rest'
    · obtain ⟨kind, token?, text⟩ := l
      obtain rfl : kind = .comment := hk
      obtain rfl : token? = none := ht
      rw [he] at hs
      exact .comment hs
  · obtain ⟨hk, hhead, htail, hrest⟩ := h.word_cases ht
    obtain ⟨kind, token?, text⟩ := l
    obtain rfl : kind = .bare := hk
    obtain rfl : token? = some .word := ht
    obtain ⟨c, cs, rfl⟩ := List.exists_cons_of_ne_nil h.text_ne_nil
    exact reads_word (hhead c rfl) htail (he ▸ hrest) before

/-- Words and blanks do not begin with a star. -/
lemma Reads.eq_single_star (h : l.Reads d before rest) (hc : l.text.head? = some '*') :
    l = single '*' := by
  have hk := h.kind_eq_bare hc (by decide)
  cases h with
  | @bare c cs token? ho hlex =>
    obtain rfl : c = '*' := Option.some.inj hc
    have hs : Token.lexeme before '*' (cs ++ rest) = (some (Token.markKind '*'), 0) := by
      unfold Token.lexeme
      rw [at?_of_parts (by decide)]
      rfl
    rw [hs] at hlex
    obtain ⟨rfl, hlen⟩ := Prod.mk.inj hlex
    rw [List.eq_nil_of_length_eq_zero hlen.symm]
    rfl
  | literal => cases hk
  | comment => cases hk

/-- A lexeme that begins in words and blanks is one, and it ends in them. -/
lemma Reads.leads_of_mask (h : l.Reads d before rest) {front tail : List Char} {cs : List Char}
    (he : l.mask ++ tail = front ++ '*' :: cs) (hf : ∀ c ∈ front, Head.leads c)
    (hne : front ≠ []) : l.Leads ∧ ∃ front', front = l.mask ++ front' := by
  obtain ⟨c, front, rfl⟩ := List.exists_cons_of_ne_nil hne
  have hc : l.mask.head? = some c := by
    obtain ⟨x, xs, hx⟩ := List.exists_cons_of_ne_nil h.mask_ne_nil
    rw [hx] at he ⊢
    exact congrArg some (List.cons.inj he).1
  have hleads := hf c List.mem_cons_self
  rw [Head.leads, Bool.or_eq_true] at hleads
  -- words and blanks have no star in them
  have hstar : l.Leads ∧ '*' ∉ l.mask := by
    rcases h.gap_or_word hc hleads with ⟨hgap, ht⟩ | ⟨hw, hmask⟩
    · exact ⟨.inl ht, fun hx => absurd (hgap _ hx) (by decide)⟩
    · rw [hmask]
      exact ⟨.inr hw, fun hx => absurd (h.continuesWord_of_mem hw hx) (by decide)⟩
  refine ⟨hstar.1, ?_⟩
  rcases List.append_eq_append_iff.1 he with ⟨x, hx, -⟩ | ⟨x, hx, hx'⟩
  · exact ⟨x, hx⟩
  · cases x with
    | nil => exact ⟨[], by rw [hx, List.append_nil, List.append_nil]⟩
    | cons y x =>
      obtain rfl := (List.cons.inj hx').1
      exact absurd (by rw [hx]; simp) hstar.2

/-- **The lexemes fall apart at a star behind words and blanks.** -/
theorem exists_star {front tail : List Char} (h : Reading d [] before ls)
    (he : maskOf ls = front ++ '*' :: tail) (hf : ∀ c ∈ front, Head.leads c) :
    ∃ as cs, ls = as ++ single '*' :: cs ∧ maskOf as = front ∧ ∀ l ∈ as, l.Leads := by
  induction ls generalizing before front with
  | nil =>
    have := congrArg List.length he
    simp [maskOf] at this
  | cons l ls ih =>
    rw [maskOf_cons] at he
    cases front with
    | nil =>
      refine ⟨[], ls, ?_, rfl, nofun⟩
      -- a mask begins with a star only where the lexeme does
      have hhead : l.mask.head? = some '*' := by
        obtain ⟨x, xs, hx⟩ := List.exists_cons_of_ne_nil h.1.mask_ne_nil
        rw [hx] at he ⊢
        exact congrArg some (List.cons.inj he).1
      have hstar : l.text.head? = some '*' := by
        unfold mask at hhead
        split at hhead
        · have := List.mem_of_head? hhead
          exact absurd (List.eq_of_mem_replicate this) (by decide)
        · exact hhead
      rw [h.1.eq_single_star hstar]
      rfl
    | cons c front =>
      obtain ⟨hl, front', hfront⟩ := h.1.leads_of_mask he hf (List.cons_ne_nil _ _)
      rw [hfront, List.append_assoc, List.append_cancel_left_eq] at he
      obtain ⟨as, cs, rfl, hmask, has⟩ := ih h.2 he fun x hx =>
        hf x (by rw [hfront]; exact List.mem_append_right _ hx)
      refine ⟨l :: as, cs, rfl, by rw [maskOf_cons, hmask, hfront], fun k hk => ?_⟩
      rcases List.mem_cons.1 hk with rfl | hk
      · exact hl
      · exact has k hk

/-! ### Columns in the place of the star -/

/-- The word that goes in for the star. -/
def columnWord : List Char := "column_a".toList

/-- The comment that goes in behind the columns. -/
def columnNote : Lexeme :=
  ⟨.comment, none, "/* list only the columns you need */".toList⟩

/-- What goes in behind the first column. -/
def columnTail : List Lexeme :=
  [single ',', blank, word "column_b".toList, blank, columnNote]

lemma reads_columnNote (before : Option Char) (rest : List Char) :
    columnNote.Reads d before rest := by
  have htext : columnNote.text =
      '/' :: '*' :: (" list only the columns you need ".toList ++ ['*', '/']) := by decide +kernel
  refine .comment ?_
  show Spells id d .comment columnNote.text rest.head?
  rw [htext]
  refine .closedBlock fun hin => ?_
  have hmem : '*' ∈ " list only the columns you need ".toList := hin.subset List.mem_cons_self
  exact absurd hmem (by decide +kernel)

lemma reading_columnTail (before : Option Char) (rest : List Char) :
    Reading d rest before columnTail := by
  have hword : "column_b".toList = 'c' :: "olumn_b".toList := by decide +kernel
  refine ⟨reads_single (by decide) (by decide) (by decide) (by decide) _ _, reads_blank _ _, ?_,
    reads_blank _ _, reads_columnNote _ _, trivial⟩
  rw [hword]
  exact reads_word (by decide) (List.all_eq_true.1 (by decide +kernel)) (fun x hx => by
    obtain rfl := Option.some.inj hx
    decide) _

lemma continuesWord_of_mem_columnWord : ∀ c ∈ columnWord, Token.continuesWord c :=
  List.all_eq_true.1 (by decide +kernel)

lemma columnWord_eq : columnWord = 'c' :: "olumn_a".toList := by decide +kernel

lemma reads_columnWord (hr : ∀ c ∈ rest.head?, Token.continuesWord c = false)
    (before : Option Char) : (word columnWord).Reads d before rest := by
  have hcol := continuesWord_of_mem_columnWord
  rw [columnWord_eq] at hcol ⊢
  exact reads_word (by decide) (fun c hc => hcol c (List.mem_cons_of_mem _ hc)) hr before

/-- White space and comments end in front of a word as they do in front of a star. -/
lemma Reads.before_columnWord (h : l.Reads d before ('*' :: rest)) (ht : l.token? = none)
    (rest' : List Char) : l.Reads d before (columnWord ++ rest') := by
  rcases h.blank_cases ht with ⟨c, hb, rfl⟩ | ⟨hk, hs⟩
  · exact reads_of_isBlank hb _ _
  · obtain ⟨kind, token?, text⟩ := l
    obtain rfl : kind = .comment := hk
    obtain rfl : token? = none := ht
    refine .comment ?_
    rw [columnWord_eq]
    exact hs.congr_next nofun (by decide) (by decide)

/-- A word grows by another. -/
lemma Reads.grow (h : l.Reads d before rest) (ht : l.token? = some .word)
    (hr : ∀ c ∈ rest'.head?, Token.continuesWord c = false) :
    (word (l.text ++ columnWord)).Reads d before rest' := by
  obtain ⟨-, hhead, htail, -⟩ := h.word_cases ht
  obtain ⟨c, cs, hc⟩ := List.exists_cons_of_ne_nil h.text_ne_nil
  rw [hc] at hhead htail ⊢
  exact reads_word (hhead c rfl)
    (List.forall_mem_append.2 ⟨htail, continuesWord_of_mem_columnWord⟩) hr before

/-- Words and blanks with the column behind them, which is read alone, or as part of the last of
them. -/
def withColumnWord : List Lexeme → List Lexeme
  | [] => [word columnWord]
  | [l] => if l.token? = some .word then [word (l.text ++ columnWord)] else [l, word columnWord]
  | l :: k :: ls => l :: withColumnWord (k :: ls)

lemma withColumnWord_of_word (h : l.token? = some .word) :
    withColumnWord [l] = [word (l.text ++ columnWord)] := if_pos h

lemma withColumnWord_of_ne_word (h : l.token? ≠ some .word) :
    withColumnWord [l] = [l, word columnWord] := if_neg h

lemma withColumnWord_cons_cons (l k : Lexeme) (ls : List Lexeme) :
    withColumnWord (l :: k :: ls) = l :: withColumnWord (k :: ls) := rfl

lemma withColumnWord_append_cons (ks : List Lexeme) (l : Lexeme) (ls : List Lexeme) :
    withColumnWord (ks ++ l :: ls) = ks ++ withColumnWord (l :: ls) := by
  induction ks with
  | nil => rfl
  | cons k ks ih =>
    obtain ⟨x, xs, hx⟩ : ∃ x xs, ks ++ l :: ls = x :: xs :=
      List.exists_cons_of_ne_nil (by simp)
    rw [hx] at ih
    rw [List.cons_append, hx, withColumnWord_cons_cons, ih, List.cons_append]

lemma textOf_withColumnWord (ls : List Lexeme) :
    textOf (withColumnWord ls) = textOf ls ++ columnWord := by
  induction ls with
  | nil => exact List.append_nil columnWord
  | cons l ls ih =>
    cases ls with
    | nil =>
      by_cases hl : l.token? = some .word
      · simp [withColumnWord_of_word hl, word]
      · simp [withColumnWord_of_ne_word hl, word]
    | cons k ls =>
      rw [withColumnWord_cons_cons, textOf_cons, ih, ← List.append_assoc, ← textOf_cons]

lemma leads_withColumnWord (h : ∀ l ∈ ls, l.Leads) : ∀ l ∈ withColumnWord ls, l.Leads := by
  have hcolumn : ∀ w, (word w).Leads := fun _ => .inr rfl
  induction ls with
  | nil => exact List.forall_mem_singleton.2 (hcolumn columnWord)
  | cons l ls ih =>
    obtain ⟨hleads, hls⟩ := List.forall_mem_cons.1 h
    cases ls with
    | nil =>
      by_cases hl : l.token? = some .word
      · rw [withColumnWord_of_word hl]
        exact List.forall_mem_singleton.2 (hcolumn _)
      · rw [withColumnWord_of_ne_word hl]
        exact List.forall_mem_cons.2 ⟨hleads, List.forall_mem_singleton.2 (hcolumn columnWord)⟩
    | cons k ls => exact List.forall_mem_cons.2 ⟨hleads, ih hls⟩

/-- **A column may stand behind words and blanks.** -/
theorem Reading.withColumnWord (h : Reading d ('*' :: rest) before ls) (hls : ∀ l ∈ ls, l.Leads)
    (hr : ∀ c ∈ rest'.head?, Token.continuesWord c = false) :
    Reading d rest' before (withColumnWord ls) := by
  induction ls generalizing before with
  | nil => exact ⟨reads_columnWord hr before, trivial⟩
  | cons l ls ih =>
    obtain ⟨hleads, hls⟩ := List.forall_mem_cons.1 hls
    cases ls with
    | nil =>
      by_cases hl : l.token? = some .word
      · -- the last word grows
        rw [withColumnWord_of_word hl]
        exact ⟨h.1.grow hl hr, trivial⟩
      · -- the column stands alone
        rw [withColumnWord_of_ne_word hl]
        refine ⟨?_, reads_columnWord hr _, trivial⟩
        rw [textOf_cons, textOf_nil, List.append_nil]
        exact h.1.before_columnWord (hleads.resolve_right hl) rest'
    | cons k ls =>
      refine ⟨h.1.congr_head? hleads ?_, ih h.2 hls⟩
      -- the next of them begins with the same character in any case
      obtain ⟨c, cs, hc⟩ := List.exists_cons_of_ne_nil h.2.1.text_ne_nil
      rw [textOf_withColumnWord, textOf_cons, hc]
      rfl

/-- Behind two characters that bar nothing the same lexemes are read. -/
lemma Reading.congr_unbarred (h : Reading d rest before ls) (hb : Placeholder.bars before = false)
    (hb' : Placeholder.bars before' = false) : Reading d rest before' ls := by
  cases ls with
  | nil => trivial
  | cons l ls =>
    have hne : ∀ {b : Option Char}, Placeholder.bars b = false → b ≠ some '?' ∧ b ≠ some ':' := by
      intro b hb
      rw [← Bool.not_eq_true, Placeholder.bars_iff, not_or] at hb
      exact hb
    refine ⟨h.1.congr_before (fun _ => ?_) fun _ => ?_, h.2⟩
    · simp [hne hb, hne hb']
    · simp [hne hb, hne hb']

end Lexeme

/-! ### The text with the columns -/

namespace SqlText

variable {t : SqlText} {star : Span}

/-- What goes in for the star. -/
def columnList : String := "column_a, column_b /* list only the columns you need */"

lemma toList_columnList :
    columnList.toList = Lexeme.columnWord ++ Lexeme.textOf Lexeme.columnTail := by
  decide +kernel

/-- Lexemes without placeholders, behind which a question mark is one. -/
structure Idle (ls : List Lexeme) : Prop where
  none : ∀ l ∈ ls, l.isPlaceholder = false
  clear : Lexeme.barsAfter false ls = false

lemma span_star (h : t.statement.star = some star) :
    ∃ pos, Head.star? t.statementHead = some pos ∧ star = ⟨pos, pos + 1⟩ := by
  dsimp only [statement] at h
  split at h
  · cases h
  · cases h
  · cases h
  · obtain ⟨pos, hpos, rfl⟩ := Option.map_eq_some_iff.1 h
    exact ⟨pos, hpos, rfl⟩
  · cases h

/-- Words and blanks are idle in front of a star. -/
lemma idle_star {ls : List Lexeme} (h : ∀ l ∈ ls, l.Leads) : Idle (ls ++ [Lexeme.single '*']) := by
  refine ⟨List.forall_mem_append.2 ⟨fun l hl => (h l hl).isPlaceholder_eq_false,
    List.forall_mem_singleton.2 rfl⟩, ?_⟩
  rw [Lexeme.barsAfter, List.getLast?_concat]
  rfl

/-- Words and blanks are idle in front of the columns. -/
lemma idle_columns {ls : List Lexeme} (h : ∀ l ∈ ls, l.Leads) : Idle (ls ++ Lexeme.columnTail) := by
  refine ⟨List.forall_mem_append.2 ⟨fun l hl => (h l hl).isPlaceholder_eq_false, ?_⟩, ?_⟩
  · decide
  · rw [Lexeme.barsAfter, List.getLast?_append]
    rfl

/-- The lexemes fall apart at the star, which stands behind words and blanks. -/
structure StarCut (t : SqlText) (star : Span) (as cs : List Lexeme) : Prop where
  readAs : t.ReadAs (as ++ Lexeme.single '*' :: cs)
  leads : ∀ l ∈ as, l.Leads
  mask : ∀ c ∈ Lexeme.maskOf as, Head.leads c
  span : star = ⟨Text.width (Lexeme.textOf as), Text.width (Lexeme.textOf as) + Text.width ['*']⟩

/-- **The lexemes fall apart at every star.** -/
theorem exists_starCut (h : t.statement.star = some star) : ∃ as cs, t.StarCut star as cs := by
  obtain ⟨pos, hpos, rfl⟩ := span_star h
  obtain ⟨front, tail, hhead, rfl, hfront⟩ := Head.star?_eq_some hpos
  obtain ⟨ls, hls⟩ := t.exists_readAs
  have hmask : Lexeme.maskOf ls =
      front ++ '*' :: (tail ++ Text.dropBytes t.statementStop t.masked) := by
    have happ := Text.takeBytes_append_dropBytes t.statementStop t.masked
    rw [show Text.takeBytes t.statementStop t.masked = t.statementHead from rfl, hhead,
      List.append_assoc, hls.masked] at happ
    rw [← happ, hls.masked]
    rfl
  obtain ⟨as, cs, rfl, has, hlead⟩ := Lexeme.exists_star hls.reading hmask hfront
  refine ⟨as, cs, hls, hlead, has ▸ hfront, ?_⟩
  rw [← has, Lexeme.width_maskOf]
  rfl

/-- The text with the columns in the place of the star. -/
def withColumns (t : SqlText) (star : Span) : SqlText :=
  ⟨t.dialect, Edit.apply t.chars [.replace star columnList]⟩

/-- **Columns may stand in the place of the star.** Behind them the text is read as before. -/
theorem StarCut.readAs_withColumns {as cs : List Lexeme} (h : t.StarCut star as cs) :
    (t.withColumns star).ReadAs (Lexeme.withColumnWord as ++ Lexeme.columnTail ++ cs) := by
  obtain ⟨hread, hrest⟩ := Lexeme.reading_append.1 h.readAs.reading
  have hcomma : ∀ c ∈ (Lexeme.textOf (Lexeme.columnTail ++ cs) ++ []).head?,
      Token.continuesWord c = false := by
    intro c hc
    obtain rfl := Option.some.inj hc
    decide
  constructor
  · have hcut := Edit.apply_replace (Lexeme.textOf as) ['*'] (Lexeme.textOf cs) columnList.toList
    show Edit.apply t.chars [.replace star columnList] = _
    rw [h.readAs.chars, h.span, Lexeme.textOf_append, Lexeme.textOf_cons, Lexeme.textOf_append,
      Lexeme.textOf_append, Lexeme.textOf_withColumnWord]
    refine hcut.trans ?_
    rw [toList_columnList, List.append_assoc, List.append_assoc, List.append_assoc]
  · rw [List.append_assoc]
    exact Lexeme.reading_append.2 ⟨hread.withColumnWord h.leads hcomma,
      Lexeme.reading_append.2
        ⟨Lexeme.reading_columnTail _ _, hrest.2.congr_unbarred (by decide) rfl⟩⟩

/-- Neither the star nor the columns have placeholders. -/
lemma exists_readAs_star (h : t.statement.star = some star) : ∃ as bs cs,
    t.ReadAs (as ++ cs) ∧ (t.withColumns star).ReadAs (bs ++ cs) ∧ Idle as ∧ Idle bs := by
  obtain ⟨as, cs, hcut⟩ := exists_starCut h
  refine ⟨as ++ [Lexeme.single '*'], Lexeme.withColumnWord as ++ Lexeme.columnTail, cs, ?_,
    hcut.readAs_withColumns, idle_star hcut.leads,
    idle_columns (Lexeme.leads_withColumnWord hcut.leads)⟩
  rw [List.append_assoc]
  exact hcut.readAs

end SqlText

end QueryGuard
