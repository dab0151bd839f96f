import QueryGuard.Proofs.Sql.Loose
import QueryGuard.Proofs.Sql.Matching
import QueryGuard.Proofs.Sql.Parts

/-!
A range of a text that is replaced. The lexemes fall apart around a row of a list and around a
literal in one; a new row or a question mark may stand there, and the lexemes around it stay.
-/

namespace QueryGuard

variable {d : Dialect}

/-- The lexemes of the text fall apart around the range. -/
structure SqlText.Cut (t : SqlText) (span : Span) (as bs cs : List Lexeme) : Prop where
  readAs : t.ReadAs (as ++ (bs ++ cs))
  start : span.start = Text.width (Lexeme.textOf as)
  stop : span.stop = Text.width (Lexeme.textOf as) + Text.width (Lexeme.textOf bs)

namespace Lexeme

variable {before : Option Char} {rest : List Char} {ls : List Lexeme}

/-! ### Rows of question marks -/

lemma reads_mark_none (h : Placeholder.bars before = false) (rest : List Char) :
    (mark none).Reads d before rest := by
  have e : mark none = mark before := by rw [mark, mark, h]; rfl
  rw [e]
  exact reads_mark before rest

/-- Question marks joined by commas. -/
def entries : Nat → List Lexeme
  | 0 => []
  | 1 => [mark none]
  | n + 2 => mark none :: single ',' :: blank :: entries (n + 1)

/-- A row of question marks. -/
def row (n : Nat) : List Lexeme := single '(' :: (entries n ++ [single ')'])

lemma textOf_entries (n : Nat) :
    textOf (entries n) = [',', ' '].intercalate (List.replicate n ['?']) := by
  induction n using entries.induct with
  | case1 => rfl
  | case2 => rfl
  | case3 n ih =>
    rw [entries, textOf_cons, textOf_cons, textOf_cons, ih]
    rfl

/-- The row as it is written. -/
lemma textOf_row (columns : List String) :
    ("(" ++ ", ".intercalate (columns.map fun _ => "?") ++ ")").toList =
      textOf (row columns.length) := by
  have hq : "?".toList = ['?'] := by decide +kernel
  have hs : ", ".toList = [',', ' '] := by decide +kernel
  have hmap : (columns.map fun _ => "?").map String.toList =
      List.replicate columns.length ['?'] := by
    rw [List.map_map, List.eq_replicate_iff]
    refine ⟨List.length_map _, fun x hx => ?_⟩
    obtain ⟨_, -, rfl⟩ := List.mem_map.1 hx
    exact hq
  rw [String.toList_append, String.toList_append, String.toList_intercalate, hmap, hs, row,
    textOf_cons, textOf_append, textOf_entries]
  simp [single]

lemma reading_entries (n : Nat) (hb : Placeholder.bars before = false) (rest : List Char) :
    Reading d rest before (entries n) := by
  induction n using entries.induct generalizing before with
  | case1 => trivial
  | case2 => exact ⟨reads_mark_none hb _, trivial⟩
  | case3 n ih =>
    exact ⟨reads_mark_none hb _,
      reads_single (by decide) (by decide) (by decide) (by decide) _ _, reads_blank _ _,
      ih (by decide)⟩

lemma reading_row (n : Nat) (before : Option Char) (rest : List Char) :
    Reading d rest before (row n) := by
  have hparen : ∀ c ∈ ['(', ')'], ∀ before rest, (single c).Reads d before rest := by
    intro c hc before rest
    rcases List.mem_pair.1 hc with rfl | rfl
    · exact reads_single (by decide) (by decide) (by decide) (by decide) before rest
    · exact reads_single (by decide) (by decide) (by decide) (by decide) before rest
  exact ⟨hparen '(' (by simp) _ _, reading_append.2
    ⟨reading_entries n (by decide) _, hparen ')' (by simp) _ _, trivial⟩⟩

lemma loose_entries (n : Nat) : loose false (entries n) = n := by
  induction n using entries.induct with
  | case1 => rfl
  | case2 => rfl
  | case3 n ih =>
    show 1 + (0 + (0 + loose false (entries (n + 1)))) = n + 2
    rw [ih]
    omega

lemma loose_row (b : Bool) (n : Nat) : loose b (row n) = n := by
  have h0 : loose (barsAfter false (entries n)) [single ')'] = 0 := loose_eq_zero (by decide) _
  show 0 + loose false (entries n ++ [single ')']) = n
  rw [loose_append, loose_entries, h0]
  omega

lemma styles_row (n : Nat) : styles (row n) = List.replicate n .positional := by
  have he : styles (entries n) = List.replicate n .positional := by
    induction n using entries.induct with
    | case1 => rfl
    | case2 => rfl
    | case3 n ih =>
      show .positional :: styles (entries (n + 1)) = _
      rw [ih]
      rfl
  show styles (entries n ++ [single ')']) = _
  rw [styles_append, he]
  exact List.append_nil _

/-- Behind a parenthesis it does not matter what stood between the two. -/
lemma after_parens (before : Option Char) (mid : List Lexeme) :
    after before (single '(' :: (mid ++ [single ')'])) = some ')' := by
  rw [after, after_append]
  rfl

lemma barsAfter_parens (b : Bool) (mid : List Lexeme) :
    barsAfter b (single '(' :: (mid ++ [single ')'])) = false := by
  rw [barsAfter, ← List.cons_append, List.getLast?_concat]
  rfl

end Lexeme

namespace SqlText

variable {t : SqlText} {span : Span} {as bs cs mid ls : List Lexeme}

lemma Cut.apply_replace (h : t.Cut span as bs cs) (s : String) :
    Edit.apply t.chars [.replace span s] =
      Lexeme.textOf as ++ (s.toList ++ Lexeme.textOf cs) := by
  have hspan : span = ⟨Text.width (Lexeme.textOf as),
      Text.width (Lexeme.textOf as) + Text.width (Lexeme.textOf bs)⟩ := by
    rw [← h.stop, ← h.start]
  rw [h.readAs.chars, Lexeme.textOf_append, Lexeme.textOf_append, hspan]
  exact Edit.apply_replace _ _ _ _

lemma Cut.tokens_eq (h : t.Cut span as bs cs) : t.tokens =
    Lexeme.tokens 0 as ++ (Lexeme.tokens span.start bs ++ Lexeme.tokens span.stop cs) := by
  rw [h.readAs.tokens, Lexeme.tokens_append, Lexeme.tokens_append, h.start, h.stop, Nat.zero_add]

/-- The tokens of the lexemes around a range start around it, and those of the others inside. -/
lemma Cut.places (h : t.Cut span as bs cs) : (∀ u ∈ Lexeme.tokens 0 as, u.start < span.start) ∧
    (∀ u ∈ Lexeme.tokens span.start bs, span.start ≤ u.start ∧ u.start < span.stop) ∧
      ∀ u ∈ Lexeme.tokens span.stop cs, span.stop ≤ u.start := by
  have hne : ∀ l ∈ as ++ (bs ++ cs), l.text ≠ [] := fun _ hl => h.readAs.reading.ne_nil_of_mem hl
  have hstart := h.start
  have hstop := h.stop
  refine ⟨fun u hu => ?_, fun u hu => ⟨Lexeme.start_le_of_mem_tokens hu, ?_⟩,
    fun u hu => Lexeme.start_le_of_mem_tokens hu⟩
  · have := Lexeme.stop_of_mem_tokens (fun l hl => hne l (List.mem_append_left _ hl)) hu
    omega
  · have hb : ∀ l ∈ bs, l.text ≠ [] := fun l hl =>
      hne l (List.mem_append_right _ (List.mem_append_left _ hl))
    have := Lexeme.stop_of_mem_tokens hb hu
    omega

/-! ### A row -/

/-- The lexemes fall apart around a list. -/
theorem exists_cut_of_spans {l : ParenList} (h : l.Spans t.tokens) : ∃ as mid cs,
    t.Cut l.span as (Lexeme.single '(' :: (mid ++ [Lexeme.single ')'])) cs := by
  obtain ⟨pre, mid, post, htok, ho, hc⟩ := h
  obtain ⟨ls, hls⟩ := t.exists_readAs
  rw [hls.tokens] at htok
  obtain ⟨as, lo, xs, rfl, -, hlo, hxs⟩ := Lexeme.exists_split htok
  obtain ⟨ms, lc, cs, rfl, -, hlc, -⟩ := Lexeme.exists_split hxs
  obtain ⟨hostart, -, hok⟩ := Lexeme.start_of_tokenAt hlo
  obtain ⟨hcstart, hctext, hck⟩ := Lexeme.start_of_tokenAt hlc
  have hread := (Lexeme.reading_append.1 hls.reading).2
  have hloeq : lo = Lexeme.single '(' := hread.1.eq_single hok (by rw [ho]; rfl)
  have hlceq : lc = Lexeme.single ')' :=
    (Lexeme.reading_append.1 hread.2).2.1.eq_single hck (by rw [hc]; rfl)
  subst hloeq hlceq
  refine ⟨as, ms, cs, ?_, ?_, ?_⟩
  · rw [List.cons_append, List.append_assoc]
    exact hls
  · show l.opening.start = _
    rw [hostart, Nat.zero_add]
  · show l.closing.stop = _
    rw [Token.stop, hcstart, hctext, Lexeme.textOf_cons, Lexeme.textOf_append, Text.width_append,
      Text.width_append, Lexeme.textOf_cons, Lexeme.textOf_nil, List.append_nil]
    omega

/-- **A row may stand in the place of a list.** -/
theorem Cut.readAs_row (h : t.Cut span as (Lexeme.single '(' :: (mid ++ [Lexeme.single ')'])) cs)
    (n : Nat) : SqlText.ReadAs ⟨t.dialect, Lexeme.textOf (as ++ (Lexeme.row n ++ cs))⟩
      (as ++ (Lexeme.row n ++ cs)) := by
  have has := (Lexeme.reading_append.1 h.readAs.reading).1
  have hcs := (Lexeme.reading_append.1 (Lexeme.reading_append.1 h.readAs.reading).2).2
  rw [Lexeme.after_parens] at hcs
  refine ⟨rfl, h.readAs.reading.replace (Lexeme.reading_row n _ _) rfl
    (Token.noLonger_of_mark (by decide) (by decide) (by decide) _)
    (has.ends_getLast? (by decide)) ?_⟩
  have hafter : Lexeme.after (Lexeme.after none as) (Lexeme.row n) = some ')' :=
    Lexeme.after_parens _ _
  rwa [hafter]

/-! ### A literal -/

/-- The lexemes fall apart around a range that neither begins nor ends next to a mark which bars. -/
structure LiteralCut (t : SqlText) (span : Span) (as bs cs : List Lexeme) : Prop extends
    t.Cut span as bs cs where
  front : Lexeme.barsAfter false as = false
  ends : ∀ l ∈ as.getLast?, l.Ends t.dialect
  inside : ∀ l ∈ bs, l.isPlaceholder = false
  back : ∀ c ∈ (Lexeme.textOf cs).head?, Lexeme.parts c

/-- Nothing but white space and comments follows a mark that bars nothing. -/
lemma barsAfter_gap {gap : List Lexeme} {before : Option Char} {rest : List Char} {c : Char}
    (h : Lexeme.Reading d rest before gap) (hg : ∀ g ∈ gap, g.token? = none)
    (hc : (Lexeme.single c).bars = false) (as : List Lexeme) :
    Lexeme.barsAfter false (as ++ Lexeme.single c :: gap) = false := by
  rw [Lexeme.barsAfter, List.getLast?_append_cons, List.getLast?_cons]
  cases hl : gap.getLast? with
  | none => exact hc
  | some g =>
    have hmem := List.mem_of_getLast? hl
    obtain ⟨xs, ys, rfl⟩ := List.append_of_mem hmem
    have hread := (Lexeme.reading_append.1 h).2.1
    show g.bars = false
    rw [← Lexeme.any_bars hread 0, Lexeme.tokenAt, hg g hmem]
    rfl

lemma literalCut_of_gap {gap : List Lexeme} {l : Lexeme} {e : Char} {pos pos' : Nat}
    {us vs : List Token}
    (h : t.ReadAs (as ++ Lexeme.single e :: (gap ++ (l :: bs ++ cs))))
    (he : (Lexeme.single e).bars = false) (hg : ∀ g ∈ gap, g.token? = none) (hl : l.token?.isSome)
    (hbs : Lexeme.tokens pos (l :: bs) = us) (hin : ∀ u ∈ us, u.kind ≠ .placeholder)
    (hcs : Lexeme.tokens pos' cs = vs) (hback : ∀ v ∈ vs.head?, v.kind.mark?.isSome)
    (hstart : span.start = Text.width (Lexeme.textOf (as ++ Lexeme.single e :: gap)))
    (hstop : span.stop = Text.width (Lexeme.textOf (as ++ Lexeme.single e :: gap)) +
      Text.width (Lexeme.textOf (l :: bs))) :
    t.LiteralCut span (as ++ Lexeme.single e :: gap) (l :: bs) cs := by
  have hls : t.ReadAs ((as ++ Lexeme.single e :: gap) ++ (l :: bs ++ cs)) := by
    rw [List.append_assoc, List.cons_append]
    exact h
  obtain ⟨hfront, hrest⟩ := Lexeme.reading_append.1 hls.reading
  obtain ⟨-, hreadcs⟩ := Lexeme.reading_append.1 hrest
  have hgap := (Lexeme.reading_append.1 hfront).2.2
  refine ⟨⟨hls, hstart, hstop⟩, barsAfter_gap hgap hg he as, ?_, ?_,
    hreadcs.parts_head? pos' (hcs ▸ hback)⟩
  · obtain ⟨x, xs, hx⟩ := List.exists_cons_of_ne_nil hrest.1.text_ne_nil
    have hne := hrest.1.head?_ne_of_token hl
    rw [List.cons_append, Lexeme.textOf_cons, hx, List.append_nil] at hfront
    refine hfront.ends_getLast? ?_
    rintro rfl
    rw [hx] at hne
    exact hne rfl
  · have hcount : (l :: bs).countP Lexeme.isPlaceholder = 0 := by
      rw [← Lexeme.countP_kind_tokens pos, hbs, List.countP_eq_zero]
      exact fun u hu => by simpa using hin u hu
    intro k hk
    simpa using List.countP_eq_zero.1 hcount k hk

/-- The lexemes fall apart at an item: a mark that bars nothing, a gap, the tokens of the item and
another mark. -/
lemma exists_lexeme_of_stands {i : ListItem} (h : ParenList.Stands t.tokens i) {v : Token}
    {vs : List Token} (hi : i.tokens = v :: vs) : ∃ as e gap l xs c post,
      t.ReadAs (as ++ Lexeme.single e :: (gap ++ l :: xs)) ∧ (Lexeme.single e).bars = false ∧
        (∀ g ∈ gap, g.token? = none) ∧ l.tokenAt v.start = some v ∧
          v.start = Text.width (Lexeme.textOf (as ++ Lexeme.single e :: gap)) ∧
            Lexeme.tokens (v.start + Text.width l.text) xs = vs ++ c :: post ∧
              c.kind.mark?.isSome := by
  obtain ⟨pre, o, post, c, htok, ho, hc⟩ := h
  obtain ⟨ls, hls⟩ := t.exists_readAs
  rw [hls.tokens, hi] at htok
  obtain ⟨as, lo, ys, rfl, -, hlo, hys⟩ := Lexeme.exists_split htok
  obtain ⟨-, -, hok⟩ := Lexeme.start_of_tokenAt hlo
  have hread := (Lexeme.reading_append.1 hls.reading).2
  obtain ⟨e, rfl, he⟩ : ∃ e, lo = Lexeme.single e ∧ (Lexeme.single e).bars = false := by
    rcases ho with ho | ho
    · exact ⟨'(', hread.1.eq_single hok (by rw [ho]; rfl), rfl⟩
    · exact ⟨',', hread.1.eq_single hok (by rw [ho]; rfl), rfl⟩
  have hys : _ = [] ++ v :: (vs ++ c :: post) := hys
  obtain ⟨gap, l, xs, rfl, hgap, hl, hxs⟩ := Lexeme.exists_split hys
  obtain ⟨hstart, -, -⟩ := Lexeme.start_of_tokenAt hl
  rw [← hstart] at hl hxs
  refine ⟨as, e, gap, l, xs, c, post, hls, he, Lexeme.tokens_eq_nil_iff.1 hgap, hl, ?_, hxs, ?_⟩
  · rw [hstart, Lexeme.textOf_append, Text.width_append, Lexeme.textOf_cons, Text.width_append]
    omega
  · rcases hc with hc | hc
    · rw [hc]; rfl
    · rw [hc]; rfl

/-- **The lexemes fall apart around a literal of a list.** -/
theorem exists_literalCut {i : ListItem} (h : ParenList.Stands t.tokens i)
    (hs : i.span? = some span) {v : Token} (hv : v.kind = .string ∨ v.kind = .number)
    (hi : i.tokens = [v] ∨ ∃ s, s.kind = .symbol ∧ i.tokens = [s, v]) :
    ∃ as bs cs, t.LiteralCut span as bs cs := by
  have hvne : v.kind ≠ .placeholder := by
    rcases hv with hv | hv
    · rw [hv]; decide
    · rw [hv]; decide
  rcases hi with hi | ⟨s, hsk, hi⟩
  · -- a literal alone
    obtain ⟨as, e, gap, l, cs, c, post, hls, he, hgap, hl, hstart, hcs, hmark⟩ :=
      exists_lexeme_of_stands h hi
    obtain ⟨-, htext, hk⟩ := Lexeme.start_of_tokenAt hl
    rw [ListItem.span?, hi] at hs
    obtain rfl : span = ⟨v.start, v.stop⟩ := (Option.some.inj hs).symm
    have hbs : Lexeme.tokens v.start [l] = [v] := by
      rw [Lexeme.tokens_cons, hl]
      rfl
    refine ⟨_, [l], cs, literalCut_of_gap hls he hgap (by rw [hk]; rfl) hbs (fun u hu => ?_) hcs
      (fun u hu => ?_) hstart ?_⟩
    · obtain rfl := List.mem_singleton.1 hu
      exact hvne
    · obtain rfl := Option.some.inj hu
      exact hmark
    · rw [← hstart, Lexeme.textOf_cons, Lexeme.textOf_nil, List.append_nil, ← htext]
      rfl
  · -- a sign, a gap and a number
    obtain ⟨as, e, gap, l, xs, c, post, hls, he, hgap, hl, hstart, hxs, hmark⟩ :=
      exists_lexeme_of_stands h hi
    obtain ⟨-, -, hk⟩ := Lexeme.start_of_tokenAt hl
    have hxs : _ = [] ++ v :: (c :: post) := hxs
    obtain ⟨gap', lv, cs, rfl, hgap', hlv, hcs⟩ := Lexeme.exists_split hxs
    obtain ⟨hvstart, hvtext, -⟩ := Lexeme.start_of_tokenAt hlv
    rw [ListItem.span?, hi] at hs
    obtain rfl : span = ⟨s.start, v.stop⟩ := (Option.some.inj hs).symm
    have hbs : Lexeme.tokens s.start (l :: (gap' ++ [lv])) = [s, v] := by
      rw [Lexeme.tokens_cons, hl, Lexeme.tokens_append, hgap', Lexeme.tokens_cons, hlv]
      rfl
    refine ⟨_, l :: (gap' ++ [lv]), cs, literalCut_of_gap ?_ he hgap (by rw [hk]; rfl) hbs
      (fun u hu => ?_) hcs (fun u hu => ?_) hstart ?_⟩
    · rw [List.cons_append, List.append_assoc]
      exact hls
    · rcases List.mem_pair.1 hu with rfl | rfl
      · rw [hsk]
        decide
      · exact hvne
    · obtain rfl := Option.some.inj hu
      exact hmark
    · rw [← hstart, Lexeme.textOf_cons, Lexeme.textOf_append, Lexeme.textOf_cons,
        Lexeme.textOf_nil, List.append_nil, Text.width_append, Text.width_append, ← hvtext]
      show v.start + _ = _
      omega

/-- **A question mark may stand in the place of a literal**, and it is a placeholder. -/
theorem LiteralCut.readAs_mark (h : t.LiteralCut span as bs cs) :
    SqlText.ReadAs ⟨t.dialect, Lexeme.textOf (as ++ ([Lexeme.mark none] ++ cs))⟩
      (as ++ ([Lexeme.mark none] ++ cs)) := by
  have hcs := (Lexeme.reading_append.1 (Lexeme.reading_append.1 h.readAs.reading).2).2
  have hbars : Placeholder.bars (Lexeme.after none as) = false := by
    have hfront := (Lexeme.reading_append.1 h.readAs.reading).1.barsAfter_of_after (b := false)
      nofun
    rw [h.front] at hfront
    simpa using hfront
  refine ⟨rfl, h.readAs.reading.replace ⟨Lexeme.reads_mark_none hbars _, trivial⟩ rfl
    (Lexeme.noLonger_mark _) h.ends (hcs.congr_before ?_ ?_)⟩
  · exact fun e => (Lexeme.parts_iff.1 (h.back _ e)).2.1 rfl
  · exact fun e => (Lexeme.parts_iff.1 (h.back _ e)).2.2 rfl

end SqlText

end QueryGuard
