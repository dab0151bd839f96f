import QueryGuard.Proofs.Sql.Splice

/-!
Question marks in the place of tokens. When every placeholder of a text and some of its strings and
numbers become question marks, the rest of the text is read as before, and a new question mark is a
placeholder unless it stands right behind a question mark or a colon.
-/

namespace QueryGuard

open Grammar

variable {d : Dialect}

/-- A question mark is no placeholder behind such a character. -/
def Placeholder.bars (before : Option Char) : Bool := before == some '?' || before == some ':'

lemma Placeholder.bars_iff {before : Option Char} :
    bars before = true ↔ before = some '?' ∨ before = some ':' := by
  simp [bars]

namespace Lexeme

/-- A question mark, behind `before`. -/
def mark (before : Option Char) : Lexeme :=
  ⟨.bare, some (if Placeholder.bars before then .symbol else .placeholder), ['?']⟩

/-- The lexeme at byte `pos`, or a question mark if its token is one of those that are replaced. -/
def markAt (sel : Token → Bool) (pos : Nat) (before : Option Char) (l : Lexeme) : Lexeme :=
  if (l.tokenAt pos).any sel then mark before else l

/-- The lexemes from byte `pos` on, with question marks for the tokens that are replaced. -/
def marked (sel : Token → Bool) (pos : Nat) (before : Option Char) : List Lexeme → List Lexeme
  | [] => []
  | l :: ls =>
    markAt sel pos before l ::
      marked sel (pos + Text.width l.text) (markAt sel pos before l).last? ls

variable {sel : Token → Bool} {pos : Nat} {before before' : Option Char} {l : Lexeme}
  {ls : List Lexeme} {rest : List Char}

lemma noLonger_mark (x : Option Char) : Token.NoLonger x '?' :=
  Token.noLonger_of_mark (by decide) (by decide) (by decide) x

lemma reads_mark (before : Option Char) (rest : List Char) : (mark before).Reads d before rest := by
  have ho : d.opener? ('?' :: ([] ++ rest)) = none := by
    have hq : Quote.ofChar? '?' = none := by decide
    simp [Dialect.opener?, hq]
  refine .bare ho ?_
  unfold Token.lexeme
  by_cases hb : Placeholder.bars before
  · have hat : Placeholder.at? before '?' ([] ++ rest) = none := by
      refine Token.at?_eq_none_iff.2 ⟨fun h => ?_, fun h => absurd h.1 (by decide)⟩
      exact (Placeholder.bars_iff.1 hb).elim h.2.1 h.2.2
    rw [hat, if_pos hb]
    rfl
  · have hat : Placeholder.at? before '?' ([] ++ rest) = some .positional := by
      rw [Placeholder.bars_iff, not_or] at hb
      exact Token.at?_eq_positional_iff.2 ⟨rfl, hb⟩
    rw [hat, if_neg hb]
    rfl

/-- A lexeme that begins with a question mark is one. -/
lemma Reads.eq_mark (h : l.Reads d before rest) (hq : l.text.head? = some '?') :
    l = mark before := by
  have hk := h.kind_eq_bare hq (by decide)
  cases h with
  | @bare c cs token? ho hlex =>
    obtain rfl : c = '?' := Option.some.inj hq
    have hm := reads_mark (d := d) before (cs ++ rest)
    unfold mark at hm ⊢
    generalize (if Placeholder.bars before then Token.Kind.symbol else .placeholder) = kind at hm ⊢
    cases hm with
    | bare _ hm =>
      rw [List.nil_append] at hm
      rw [hm] at hlex
      obtain ⟨rfl, hn⟩ := Prod.mk.inj hlex
      rw [List.eq_nil_of_length_eq_zero hn.symm]
  | literal => cases hk
  | comment => cases hk

/-- A colon alone is no placeholder. -/
lemma Reads.token?_colon (h : l.Reads d before rest) (hc : l.text = [':']) :
    l.token? = some .symbol := by
  have hk := h.kind_eq_bare (by rw [hc]; rfl) (by decide)
  cases h with
  | @bare c cs token? ho hlex =>
    obtain ⟨rfl, rfl⟩ := List.cons.inj hc
    have hat : Placeholder.at? before ':' ([] ++ rest) = none := by
      cases hat : Placeholder.at? before ':' ([] ++ rest) with
      | none => rfl
      | some style =>
        cases style with
        | positional => exact absurd (Token.at?_eq_positional_iff.1 hat).1 (by decide)
        | named name =>
          -- the name would belong to the lexeme
          obtain ⟨⟨-, -, hb⟩, -⟩ := Token.at?_eq_named_iff.1 hat
          have hname : ([] ++ rest).head?.any Placeholder.continuesName := by
            cases rest with
            | nil => cases hb
            | cons x rest => exact Placeholder.continuesName_of_beginsName hb
          have hpos := Token.length_takeWhile_pos hname
          unfold Token.lexeme at hlex
          rw [hat] at hlex
          rw [(Prod.mk.inj hlex).2] at hpos
          exact absurd hpos (Nat.lt_irrefl 0)
    have hs : Token.lexeme before ':' ([] ++ rest) = (some .symbol, 0) := by
      unfold Token.lexeme
      rw [hat]
      rfl
    rw [hs] at hlex
    exact (Prod.mk.inj hlex).1.symm
  | literal => cases hk
  | comment => cases hk

/-- Only a question mark alone ends with one, and only a colon alone with a colon. -/
lemma Reads.text_of_last? (h : l.Reads d before rest) {c : Char} (hl : l.last? = some c)
    (hc : c = '?' ∨ c = ':') : l.text = [c] := by
  cases h with
  | @bare e cs token? ho hlex =>
    have hin := (Token.lexeme_inside (d := d) (congrArg Prod.snd hlex)).2
    have hlast : (e :: cs).getLast? = some c := hl
    rw [List.getLast?_cons] at hlast
    cases hcs : cs.getLast? with
    | some x =>
      rw [hcs] at hlast
      obtain rfl : x = c := Option.some.inj hlast
      exact absurd hc (not_or.2 (hin x (List.mem_of_getLast? hcs)))
    | none =>
      rw [hcs] at hlast
      obtain rfl : e = c := Option.some.inj hlast
      rw [List.getLast?_eq_none_iff] at hcs
      rw [hcs]
  | literal => cases hl
  | comment => cases hl

lemma Reads.last?_of_text (h : l.Reads d before rest) {c : Char} (ht : l.text = [c])
    (hc : c = '?' ∨ c = ':') : l.last? = some c := by
  have hn : Token.opensNothing c := by
    rcases hc with rfl | rfl
    · decide
    · decide
  have hk := h.kind_eq_bare (by rw [ht]; rfl) hn
  rw [last?, if_pos hk, ht]
  rfl

lemma Reads.bars_last? (h : l.Reads d before rest) :
    Placeholder.bars l.last? ↔ l.text = ['?'] ∨ l.text = [':'] := by
  rw [Placeholder.bars_iff]
  constructor
  · rintro (e | e)
    · exact .inl (h.text_of_last? e (.inl rfl))
    · exact .inr (h.text_of_last? e (.inr rfl))
  · rintro (e | e)
    · exact .inl (h.last?_of_text e (.inl rfl))
    · exact .inr (h.last?_of_text e (.inr rfl))

/-- A token does not begin with a line feed. -/
lemma Reads.head?_ne_of_token (h : l.Reads d before rest) (ht : l.token?.isSome) :
    l.text.head? ≠ some '\n' := by
  intro hn
  have hk := h.kind_eq_bare hn (by decide)
  cases h with
  | @bare c cs token? ho hlex =>
    obtain rfl : c = '\n' := Option.some.inj hn
    have hat : Placeholder.at? before '\n' (cs ++ rest) = none :=
      Token.at?_eq_none_iff.2 ⟨fun h => absurd h.1 (by decide), fun h => absurd h.1 (by decide)⟩
    have hb : Token.lexeme before '\n' (cs ++ rest) = (none, 0) := by
      unfold Token.lexeme
      rw [hat]
      rfl
    rw [hb] at hlex
    rw [← (Prod.mk.inj hlex).1] at ht
    cases ht
  | literal => cases hk
  | comment => cases hk

/-! ### Reading what is marked -/

/-- What is selected covers every placeholder, and no symbol. -/
structure Selects (sel : Token → Bool) (ts : List Token) : Prop where
  placeholder : ∀ t ∈ ts, t.kind = .placeholder → sel t
  symbol : ∀ t ∈ ts, t.kind = .symbol → sel t = false

lemma Selects.tail {l : Lexeme} (h : Selects sel (tokens pos (l :: ls))) :
    Selects sel (tokens (pos + Text.width l.text) ls) :=
  ⟨fun t ht => h.placeholder t (List.mem_append_right _ ht),
    fun t ht => h.symbol t (List.mem_append_right _ ht)⟩

/-- Marking keeps a text up to its first new question mark, in the place of a token. -/
lemma textOf_marked_cases (sel : Token → Bool) (pos : Nat) (h : Reading d rest before ls)
    (before' : Option Char) :
    textOf (marked sel pos before' ls) = textOf ls ∨
      ∃ p x s r, textOf ls = p ++ x :: s ∧ x ≠ '\n' ∧
        textOf (marked sel pos before' ls) = p ++ '?' :: r := by
  induction ls generalizing pos before before' with
  | nil => exact .inl rfl
  | cons l ls ih =>
    rw [marked, textOf_cons, textOf_cons]
    by_cases hs : (l.tokenAt pos).any sel
    -- the question mark of the first token is the first new one
    · right
      obtain ⟨x, cs, e⟩ := List.exists_cons_of_ne_nil h.1.text_ne_nil
      have ht : l.token?.isSome := by
        cases hk : l.token? with
        | none => simp [tokenAt, hk] at hs
        | some kind => rfl
      have hx := h.1.head?_ne_of_token ht
      rw [e] at hx
      have hm : markAt sel pos before' l = mark before' := if_pos hs
      rw [hm]
      exact ⟨[], x, cs ++ textOf ls, _, by rw [e]; rfl, fun hn => hx (by rw [hn]; rfl), rfl⟩
    · rw [markAt, if_neg hs]
      rcases ih _ h.2 l.last? with e | ⟨p, x, s, r, e, hx, e'⟩
      · exact .inl (by rw [e])
      · exact .inr ⟨l.text ++ p, x, s, r, by rw [e, List.append_assoc], hx,
          by rw [e', List.append_assoc]⟩

/-- **A text with question marks in the place of tokens** is read as its lexemes and these. -/
theorem reading_marked (hs : Selects sel (tokens pos ls)) (h : Reading d rest before ls)
    (hc : before = some ':' ↔ before' = some ':') (hq : before = some '?' → before' = some '?') :
    Reading d rest before' (marked sel pos before' ls) := by
  induction ls generalizing pos before before' with
  | nil => trivial
  | cons l ls ih =>
    rw [marked]
    by_cases hsel : (l.tokenAt pos).any sel
    · have hm : markAt sel pos before' l = mark before' := if_pos hsel
      rw [hm]
      refine ⟨reads_mark _ _, ih hs.tail h.2 ?_ fun _ => rfl⟩
      -- a colon alone is a symbol, so it was not replaced
      constructor
      · intro hl
        have hk := h.1.token?_colon (h.1.text_of_last? hl (.inr rfl))
        have ht : l.tokenAt pos = some ⟨.symbol, pos, l.text⟩ := by rw [tokenAt, hk]; rfl
        rw [ht, Option.any_some, hs.symbol _ (mem_tokens_head ht) rfl] at hsel
        cases hsel
      · exact fun hl => absurd (Option.some.inj hl) (by decide)
    · have hm : markAt sel pos before' l = l := if_neg hsel
      rw [hm]
      refine ⟨?_, ih hs.tail h.2 Iff.rfl id⟩
      have hl : l.Reads d before' (textOf ls ++ rest) := by
        refine h.1.congr_before (fun hhead => ?_) fun _ => hc
        -- a question mark that stays is no placeholder, so it is barred
        have hb : Placeholder.bars before := by
          by_contra hb
          have he := h.1.eq_mark hhead
          rw [mark, if_neg hb] at he
          have ht : l.tokenAt pos = some ⟨.placeholder, pos, l.text⟩ := by rw [he]; rfl
          have := hs.placeholder _ (mem_tokens_head ht) rfl
          rw [ht, Option.any_some] at hsel
          exact hsel this
        have hb' := Placeholder.bars_iff.1 hb
        constructor
        · rintro (e | e)
          · exact .inl (hq e)
          · exact .inr (hc.1 e)
        · exact fun _ => hb'
      rcases textOf_marked_cases sel (pos + Text.width l.text) h.2 l.last? with
        e | ⟨p, x, s, r, e, hx, e'⟩
      · rwa [e]
      · rw [e, List.append_assoc] at hl
        rw [e', List.append_assoc]
        refine hl.of_noLonger (noLonger_mark _) fun hp => ?_
        subst hp
        exact hl.ends rfl hx

end Lexeme

/-! ### Marks as edits -/

/-- The edit that puts a question mark in the place of the token. -/
def Token.markEdit (t : Token) : Edit := .replace ⟨t.start, t.stop⟩ "?"

/-- Edits further on leave what stands before them. -/
lemma Edit.splice_append {pos : Nat} {as : List Char} {es : List Edit}
    (h : ∀ e ∈ es, pos + Text.width as ≤ e.span.start ∧ e.span.start ≤ e.span.stop)
    (cs : List Char) :
    splice pos (as ++ cs) es = as ++ splice (pos + Text.width as) cs es := by
  cases es with
  | nil => rfl
  | cons e es =>
    obtain ⟨hstart, hstop⟩ := h e List.mem_cons_self
    rw [splice, splice, if_neg (by omega), if_neg (by omega),
      Text.takeBytes_append_of_ge (by omega), Text.dropBytes_append_of_ge (by omega),
      Nat.sub_sub, Nat.sub_sub]
    simp only [List.append_assoc]

namespace Lexeme

/-- **Marking is editing.** -/
theorem splice_marked (before : Option Char) (rest : List Char) :
    Edit.splice pos (textOf ls ++ rest) (((tokens pos ls).filter sel).map Token.markEdit) =
      textOf (marked sel pos before ls) ++ rest := by
  induction ls generalizing pos before with
  | nil => rfl
  | cons l ls ih =>
    -- the later edits start behind the first lexeme
    have hlater : ∀ e ∈ ((tokens (pos + Text.width l.text) ls).filter sel).map Token.markEdit,
        pos + Text.width l.text ≤ e.span.start ∧ e.span.start ≤ e.span.stop := by
      intro e he
      obtain ⟨t, ht, rfl⟩ := List.mem_map.1 he
      exact ⟨start_le_of_mem_tokens (List.mem_filter.1 ht).1, Nat.le_add_right _ _⟩
    rw [tokens_cons, marked, textOf_cons, textOf_cons, List.append_assoc, List.append_assoc,
      ← ih (markAt sel pos before l).last?]
    by_cases hs : (l.tokenAt pos).any sel
    -- the lexeme is marked, and its edit comes first; or it is kept, and so is its text
    · rw [markAt, if_pos hs]
      obtain ⟨t, ht, hsel⟩ := (Option.any_eq_true _ _).1 hs
      obtain ⟨kind, -, rfl⟩ := Option.map_eq_some_iff.1 ht
      have hd : Text.dropBytes (pos + Text.width l.text - pos) (l.text ++ (textOf ls ++ rest)) =
          textOf ls ++ rest := by
        rw [Nat.add_sub_cancel_left, Text.dropBytes_width_append]
      rw [ht, Option.toList_some, List.singleton_append, List.filter_cons_of_pos hsel,
        List.map_cons, Edit.splice]
      refine (if_neg (Nat.lt_irrefl pos)).trans ?_
      show Text.takeBytes (pos - pos) _ ++ ['?'] ++ Edit.splice (pos + Text.width l.text)
        (Text.dropBytes (pos + Text.width l.text - pos) _) _ = _
      rw [hd, Nat.sub_self, Text.takeBytes_zero]
      rfl
    · rw [markAt, if_neg hs]
      have hf : (l.tokenAt pos).toList.filter sel = [] := by
        cases ht : l.tokenAt pos with
        | none => rfl
        | some t =>
          rw [ht, Option.any_some] at hs
          exact List.filter_cons_of_neg hs
      rw [List.filter_append, hf, List.nil_append, Edit.splice_append hlater]

/-! ### How many marks are placeholders -/

def isPlaceholder (l : Lexeme) : Bool := l.token? == some .placeholder

/-- Only the lexeme before a place stops at it. -/
lemma tokenAt_of_stop_eq {pre : List Lexeme} (hne : ∀ k ∈ pre ++ l :: ls, k.text ≠ []) {v : Token}
    (hv : v ∈ tokens pos (pre ++ l :: ls))
    (hstop : v.stop = pos + Text.width (textOf pre) + Text.width l.text) :
    l.tokenAt (pos + Text.width (textOf pre)) = some v := by
  have hl := Text.width_pos (hne l (List.mem_append_right _ List.mem_cons_self))
  rw [tokens_append, tokens_cons] at hv
  rcases List.mem_append.1 hv with hv | hv
  · have := stop_of_mem_tokens (fun k hk => hne k (List.mem_append_left _ hk)) hv
    omega
  · rcases List.mem_append.1 hv with hv | hv
    · exact Option.mem_toList.1 hv
    · have hstart := start_le_of_mem_tokens hv
      have := stop_of_mem_tokens (fun k hk =>
        hne k (List.mem_append_right _ (List.mem_cons_of_mem _ hk))) hv
      omega

end Lexeme

/-- A question mark right behind the token is no placeholder: the token becomes a question mark, or
it is one or a colon. -/
def Token.bars (sel : Token → Bool) (v : Token) : Bool :=
  sel v || v.text == ['?'] || v.text == [':']

/-- A token that bars a question mark stops at the place. -/
def Token.crowded (sel : Token → Bool) (ts : List Token) (pos : Nat) : Bool :=
  ts.any fun v => v.stop == pos && v.bars sel

namespace Lexeme

/-- Behind a lexeme a question mark is barred when the lexeme is replaced or is such a mark. -/
lemma Reads.bars_markAt (h : l.Reads d before rest) (before' : Option Char) :
    Placeholder.bars (markAt sel pos before' l).last? = (l.tokenAt pos).any (Token.bars sel) := by
  by_cases hs : (l.tokenAt pos).any sel
  · rw [markAt, if_pos hs]
    obtain ⟨t, ht, hsel⟩ := (Option.any_eq_true _ _).1 hs
    rw [ht, Option.any_some, Token.bars, hsel]
    rfl
  · rw [markAt, if_neg hs, Bool.eq_iff_iff, h.bars_last?, Option.any_eq_true]
    constructor
    · rintro (e | e)
      · have hm := h.eq_mark (by rw [e]; rfl)
        exact ⟨_, by rw [hm, mark, tokenAt, Option.map_some], by simp [Token.bars]⟩
      · have ht : l.tokenAt pos = some ⟨.symbol, pos, l.text⟩ := by
          rw [tokenAt, h.token?_colon e]
          rfl
        exact ⟨_, ht, by simp [Token.bars, e]⟩
    · rintro ⟨t, ht, hv⟩
      rw [ht, Option.any_some] at hs
      obtain ⟨kind, -, rfl⟩ := Option.map_eq_some_iff.1 ht
      simpa [Token.bars, hs] using hv

/-- The selected tokens that no token bars. -/
def kept (sel : Token → Bool) (barred : Bool) (pos : Nat) : List Lexeme → List Token
  | [] => []
  | l :: ls =>
    (if barred then [] else (l.tokenAt pos).toList.filter sel) ++
      kept sel ((l.tokenAt pos).any (Token.bars sel)) (pos + Text.width l.text) ls

/-- **A mark is a placeholder unless it is barred.** -/
theorem countP_marked (h : Reading d rest before ls) (before' : Option Char)
    (hs : ∀ t ∈ tokens pos ls, t.kind = .placeholder → sel t) :
    (marked sel pos before' ls).countP isPlaceholder =
      (kept sel (Placeholder.bars before') pos ls).length := by
  induction ls generalizing pos before before' with
  | nil => rfl
  | cons l ls ih =>
    have ih := ih h.2 (markAt sel pos before' l).last? fun t ht hk =>
      hs t (List.mem_append_right _ ht) hk
    rw [marked, List.countP_cons, ih, h.1.bars_markAt, kept, List.length_append, Nat.add_comm]
    -- the first lexeme counts as one exactly where its token is kept
    congr 1
    cases ht : l.tokenAt pos with
    | none =>
      have hk : l.token? = none := Option.map_eq_none_iff.1 ht
      rw [markAt, ht, Option.any_none, if_neg Bool.false_ne_true, isPlaceholder, hk]
      cases Placeholder.bars before' <;> rfl
    | some t =>
      rw [markAt, ht, Option.any_some, Option.toList_some]
      cases hsel : sel t with
      | true =>
        rw [if_pos rfl, isPlaceholder, mark, List.filter_cons_of_pos hsel]
        cases Placeholder.bars before' <;> rfl
      | false =>
        have hk : l.token? ≠ some .placeholder := by
          intro hk
          have hkt : t.kind = .placeholder := by
            rw [tokenAt, hk] at ht
            rw [← Option.some.inj ht]
          have := hs t (mem_tokens_head ht) hkt
          rw [hsel] at this
          cases this
        rw [if_neg Bool.false_ne_true, isPlaceholder, beq_eq_false_iff_ne.2 hk,
          List.filter_cons_of_neg (by rw [hsel]; exact Bool.false_ne_true)]
        cases Placeholder.bars before' <;> rfl

lemma crowded_eq {pre : List Lexeme} (hne : ∀ k ∈ pre ++ l :: ls, k.text ≠ []) :
    Token.crowded sel (tokens pos (pre ++ l :: ls))
        (pos + Text.width (textOf pre) + Text.width l.text) =
      (l.tokenAt (pos + Text.width (textOf pre))).any (Token.bars sel) := by
  rw [Bool.eq_iff_iff, Token.crowded, List.any_eq_true, Option.any_eq_true]
  constructor
  · rintro ⟨v, hv, h⟩
    rw [Bool.and_eq_true, beq_iff_eq] at h
    exact ⟨v, tokenAt_of_stop_eq hne hv h.1, h.2⟩
  · rintro ⟨v, hv, h⟩
    refine ⟨v, ?_, ?_⟩
    · rw [tokens_append]
      exact List.mem_append_right _ (mem_tokens_head hv)
    · obtain ⟨kind, -, rfl⟩ := Option.map_eq_some_iff.1 hv
      rw [Bool.and_eq_true, beq_iff_eq]
      exact ⟨rfl, h⟩

/-- The selected tokens that are not crowded are those that no token bars. -/
lemma filter_crowded (sel : Token → Bool) (pos : Nat) (pre : List Lexeme)
    (hne : ∀ k ∈ pre ++ ls, k.text ≠ []) :
    ((tokens (pos + Text.width (textOf pre)) ls).filter fun u =>
        sel u && !Token.crowded sel (tokens pos (pre ++ ls)) u.start) =
      kept sel (Token.crowded sel (tokens pos (pre ++ ls)) (pos + Text.width (textOf pre)))
        (pos + Text.width (textOf pre)) ls := by
  induction ls generalizing pre with
  | nil => rfl
  | cons l ls ih =>
    have hpre : pre ++ l :: ls = pre ++ [l] ++ ls := by rw [List.append_assoc]; rfl
    have hw : pos + Text.width (textOf (pre ++ [l])) =
        pos + Text.width (textOf pre) + Text.width l.text := by
      rw [textOf_append, Text.width_append, textOf_cons, textOf_nil, List.append_nil, Nat.add_assoc]
    have ih := ih (pre ++ [l]) (hpre ▸ hne)
    rw [hw, ← hpre] at ih
    rw [tokens_cons, List.filter_append, ih, kept, crowded_eq hne]
    congr 1
    -- the token at hand starts at the place
    cases ht : l.tokenAt (pos + Text.width (textOf pre)) with
    | none =>
      cases Token.crowded sel _ _ <;> rfl
    | some t =>
      have hstart : t.start = pos + Text.width (textOf pre) := by
        obtain ⟨kind, -, rfl⟩ := Option.map_eq_some_iff.1 ht
        rfl
      rw [Option.toList_some, List.filter_singleton, List.filter_singleton, hstart]
      cases Token.crowded sel _ _ <;> simp

lemma text_of_mem_marked (hs : ∀ t ∈ tokens pos ls, t.kind = .placeholder → sel t) {m : Lexeme}
    (hm : m ∈ marked sel pos before ls) (hp : m.isPlaceholder) : m.text = ['?'] := by
  induction ls generalizing pos before with
  | nil => exact absurd hm List.not_mem_nil
  | cons l ls ih =>
    rw [marked] at hm
    rcases List.mem_cons.1 hm with rfl | hm
    · unfold markAt at hp ⊢
      split at hp
      · next hsel => rw [if_pos hsel]; rfl
      · next hsel =>
        -- a placeholder is always replaced
        exfalso
        rw [isPlaceholder, beq_iff_eq] at hp
        have ht : l.tokenAt pos = some ⟨.placeholder, pos, l.text⟩ := by rw [tokenAt, hp]; rfl
        rw [ht, Option.any_some] at hsel
        exact hsel (hs _ (mem_tokens_head ht) rfl)
    · exact ih (fun t ht => hs t (List.mem_append_right _ ht)) hm

lemma countP_kind_tokens (pos : Nat) (ls : List Lexeme) :
    (tokens pos ls).countP (·.kind == .placeholder) = ls.countP isPlaceholder := by
  induction ls generalizing pos with
  | nil => rfl
  | cons l ls ih =>
    rw [tokens_cons, List.countP_append, List.countP_cons, ih, Nat.add_comm]
    congr 1
    rw [tokenAt, isPlaceholder]
    cases l.token? with
    | none => rfl
    | some kind => cases kind <;> rfl

/-! ### Styles of placeholders -/

/-- The styles of the placeholders among the lexemes. -/
def styles (ls : List Lexeme) : List Placeholder.Style :=
  (ls.filter isPlaceholder).map fun l => Token.style l.text

lemma styles_append (ls ls' : List Lexeme) : styles (ls ++ ls') = styles ls ++ styles ls' := by
  rw [styles, List.filter_append, List.map_append]
  rfl

lemma styles_tokens (pos : Nat) (ls : List Lexeme) :
    ((tokens pos ls).filterMap Token.placeholder?).map (·.1) = styles ls := by
  induction ls generalizing pos with
  | nil => rfl
  | cons l ls ih =>
    rw [tokens_cons, List.filterMap_append, List.map_append, ih, styles, styles,
      List.filter_cons]
    cases hk : l.token? with
    | none => simp [tokenAt, isPlaceholder, hk]
    | some kind =>
      by_cases hp : kind = .placeholder
      · subst hp
        simp [tokenAt, isPlaceholder, hk, Token.placeholder?]
      · simp [tokenAt, isPlaceholder, hk, Token.placeholder?, hp]

end Lexeme

namespace SqlText

variable {t : SqlText} {sel : Token → Bool} {as cs ls : List Lexeme}

lemma ReadAs.length_placeholders (h : t.ReadAs ls) :
    t.placeholders.length = ls.countP Lexeme.isPlaceholder := by
  rw [SqlText.length_placeholders, h.tokens, Lexeme.countP_kind_tokens]

lemma ReadAs.ne_nil (h : t.ReadAs ls) : ∀ l ∈ ls, l.text ≠ [] :=
  fun _ hl => h.reading.ne_nil_of_mem hl

lemma ReadAs.styles (h : t.ReadAs ls) : t.placeholders.map (·.style) = Lexeme.styles ls := by
  rw [← Lexeme.styles_tokens 0 ls, ← h.tokens, ← map_style_offset, List.map_map]
  rfl

/-- How many placeholders stand in front of a place between lexemes. -/
lemma ReadAs.countP_offset (h : t.ReadAs (as ++ cs)) :
    t.placeholders.countP (·.offset < Text.width (Lexeme.textOf as)) =
      (Lexeme.styles as).length := by
  have hmap : t.placeholders.countP (·.offset < Text.width (Lexeme.textOf as)) =
      (t.tokens.filterMap Token.placeholder?).countP (·.2 < Text.width (Lexeme.textOf as)) := by
    rw [← map_style_offset, List.countP_map]
    rfl
  have hfront : ∀ p ∈ (Lexeme.tokens 0 as).filterMap Token.placeholder?,
      p.2 < Text.width (Lexeme.textOf as) := by
    intro p hp
    obtain ⟨u, hu, hup⟩ := List.mem_filterMap.1 hp
    obtain ⟨-, rfl⟩ := Token.placeholder?_eq_some_iff.1 hup
    have hu := Lexeme.stop_of_mem_tokens (fun l hl => h.ne_nil l (List.mem_append_left _ hl)) hu
    show u.start < _
    omega
  have hback : ∀ p ∈ (Lexeme.tokens (0 + Text.width (Lexeme.textOf as)) cs).filterMap
      Token.placeholder?, ¬ p.2 < Text.width (Lexeme.textOf as) := by
    intro p hp
    obtain ⟨u, hu, hup⟩ := List.mem_filterMap.1 hp
    obtain ⟨-, rfl⟩ := Token.placeholder?_eq_some_iff.1 hup
    have hu := Lexeme.start_le_of_mem_tokens hu
    show ¬ u.start < _
    omega
  rw [hmap, h.tokens, Lexeme.tokens_append, List.filterMap_append, List.countP_append,
    List.countP_eq_length.2 (fun p hp => decide_eq_true (hfront p hp)),
    List.countP_eq_zero.2 (fun p hp => by simpa using hback p hp), ← Lexeme.styles_tokens 0 as,
    List.length_map, Nat.add_zero]

/-- The text with question marks in the place of tokens. -/
def withMarks (t : SqlText) (sel : Token → Bool) : SqlText :=
  ⟨t.dialect, Edit.apply t.chars ((t.tokens.filter sel).map Token.markEdit)⟩

/-- What is selected covers every placeholder, and no symbol. -/
def Selects (t : SqlText) (sel : Token → Bool) : Prop := Lexeme.Selects sel t.tokens

lemma ReadAs.chars_withMarks (h : t.ReadAs ls) (sel : Token → Bool) :
    (t.withMarks sel).chars = Lexeme.textOf (Lexeme.marked sel 0 none ls) := by
  have hsort : Edit.sort ((t.tokens.filter sel).map Token.markEdit) =
      (t.tokens.filter sel).map Token.markEdit := by
    apply Edit.sort_of_pairwise
    rw [List.pairwise_map, h.tokens]
    exact (Lexeme.pairwise_start_tokens 0 ls).filter _
  have e : Edit.splice 0 (Lexeme.textOf ls ++ [])
      (((Lexeme.tokens 0 ls).filter sel).map Token.markEdit) = _ := Lexeme.splice_marked none []
  rw [List.append_nil, List.append_nil] at e
  rw [SqlText.withMarks, Edit.apply, hsort, h.tokens, h.chars, e]

theorem ReadAs.withMarks (h : t.ReadAs ls) (hs : t.Selects sel) :
    (t.withMarks sel).ReadAs (Lexeme.marked sel 0 none ls) := by
  rw [SqlText.Selects, h.tokens] at hs
  exact ⟨h.chars_withMarks sel, Lexeme.reading_marked hs h.reading Iff.rfl id⟩

/-- The selected tokens that are not crowded. -/
def kept (t : SqlText) (sel : Token → Bool) : List Token :=
  t.tokens.filter fun u => sel u && !Token.crowded sel t.tokens u.start

lemma ReadAs.kept (h : t.ReadAs ls) (sel : Token → Bool) :
    t.kept sel = Lexeme.kept sel false 0 ls := by
  have hb : Token.crowded sel (Lexeme.tokens 0 ls) 0 = false := by
    rw [Token.crowded, List.any_eq_false]
    intro v hv hstop
    rw [Bool.and_eq_true, beq_iff_eq] at hstop
    have := Lexeme.stop_of_mem_tokens h.ne_nil hv
    omega
  have e := Lexeme.filter_crowded sel 0 [] h.ne_nil
  rw [Lexeme.textOf_nil, Text.width_nil, Nat.add_zero, List.nil_append, hb] at e
  rw [SqlText.kept, h.tokens, e]

/-- **How many placeholders the marks are.** -/
theorem length_placeholders_withMarks (hs : t.Selects sel) :
    (t.withMarks sel).placeholders.length = (t.kept sel).length := by
  obtain ⟨ls, h⟩ := t.exists_readAs
  have hsel := hs.placeholder
  rw [h.tokens] at hsel
  rw [(h.withMarks hs).length_placeholders, Lexeme.countP_marked h.reading none hsel, h.kept]
  rfl

theorem style_of_mem_placeholders_withMarks (hs : t.Selects sel) {p : Placeholder}
    (hp : p ∈ (t.withMarks sel).placeholders) : p.style = .positional := by
  obtain ⟨ls, h⟩ := t.exists_readAs
  obtain ⟨u, hu, hk, hstyle, -⟩ := exists_token_of_mem_placeholders hp
  rw [(h.withMarks hs).tokens] at hu
  obtain ⟨l, hl, hkind, htext⟩ := Lexeme.exists_lexeme_of_mem_tokens hu
  have hsel := hs.placeholder
  rw [h.tokens] at hsel
  have hq := Lexeme.text_of_mem_marked hsel hl (by rw [Lexeme.isPlaceholder, hkind, hk]; rfl)
  rw [hstyle, ← htext, hq]
  rfl

/-- One of the tokens stands right behind another, or behind a question mark or a colon. -/
def Crowds (t : SqlText) (sel : Token → Bool) : Prop :=
  ∃ u ∈ t.tokens, sel u ∧ ∃ v ∈ t.tokens, v.stop = u.start ∧
    (sel v ∨ v.text = ['?'] ∨ v.text = [':'])

lemma crowds_iff : t.Crowds sel ↔
    ∃ u ∈ t.tokens, sel u ∧ Token.crowded sel t.tokens u.start := by
  simp [Crowds, Token.crowded, Token.bars, or_assoc]

instance (t : SqlText) (sel : Token → Bool) : Decidable (t.Crowds sel) :=
  decidable_of_iff (t.tokens.any fun u => sel u && Token.crowded sel t.tokens u.start) <| by
    simp [crowds_iff]

lemma kept_eq_filter (t : SqlText) (sel : Token → Bool) : t.kept sel =
    (t.tokens.filter sel).filter fun u => !Token.crowded sel t.tokens u.start := by
  rw [List.filter_filter]
  refine List.filter_congr fun u _ => ?_
  rw [Bool.and_comm]

lemma length_kept_iff : (t.kept sel).length = (t.tokens.filter sel).length ↔ ¬ t.Crowds sel := by
  rw [kept_eq_filter, List.length_filter_eq_length_iff, crowds_iff]
  simp

/-- **Every mark is a placeholder exactly when none is crowded.** -/
theorem length_placeholders_withMarks_iff (hs : t.Selects sel) :
    (t.withMarks sel).placeholders.length = (t.tokens.filter sel).length ↔ ¬ t.Crowds sel := by
  rw [length_placeholders_withMarks hs, length_kept_iff]

end SqlText

end QueryGuard
