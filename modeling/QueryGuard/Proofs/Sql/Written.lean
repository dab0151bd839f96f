import QueryGuard.Proofs.Sql.Gap
import QueryGuard.Proofs.Sql.Nesting
import QueryGuard.Proofs.Sql.Star

/-!
Names and entries as they are written: the names of tables and columns with their quotes, the
placeholders, literals and expressions of a row. Main statements: a written name is read where no
word goes on behind it, and a written entry is read by itself, as one item of a list.
-/

namespace QueryGuard

open Lexeme

variable {d : Dialect}

/-- A character that goes on with no word and is no quote. -/
def Token.Stops (c : Char) : Prop := continuesWord c = false ∧ Quote.ofChar? c = none

lemma Token.NoLonger.stops {c : Char} (h : NoLonger none c) : Stops c := by
  refine ⟨?_, Quote.ofChar?_of_joinsMarks h.apart⟩
  by_contra hc
  exact absurd (h.word (by simpa using hc)) Bool.false_ne_true

/-- A digit may stand in a word but begins none, and it is no white space. -/
lemma Token.word_of_isDigit {c : Char} (h : c.isDigit) :
    beginsWord c = false ∧ Text.isBlank c = false := by
  have hall : ∀ n ∈ List.range' 0x30 10,
      beginsWord (Char.ofNat n) = false ∧ Text.isBlank (Char.ofNat n) = false := by decide +kernel
  have h : (decide (c.val ≥ '0'.val) && decide (c.val ≤ '9'.val)) = true := h
  rw [Bool.and_eq_true, decide_eq_true_eq, decide_eq_true_eq] at h
  have hmem : c.toNat ∈ List.range' 0x30 10 := List.mem_range'_1.2
    ⟨UInt32.le_iff_toNat_le.1 h.1, Nat.lt_succ_of_le (UInt32.le_iff_toNat_le.1 h.2)⟩
  have hc := hall c.toNat hmem
  rwa [Char.ofNat_toNat] at hc

/-- A gap begins with no part of a word and with no quote. -/
lemma Gap.stops_head? (g : Gap d) {s : List Char} (hs : ∀ c ∈ s.head?, Token.Stops c) :
    ∀ c ∈ (text g ++ s).head?, Token.Stops c :=
  forall_head?_text g ⟨by decide, by decide⟩ (fun _ h => (h none).stops) hs

lemma Gap.stops_head?_of_ne_nil {g : Gap d} (hg : g ≠ []) (s : List Char) :
    ∀ c ∈ (text g ++ s).head?, Token.Stops c := by
  obtain ⟨p, g, rfl⟩ := List.exists_cons_of_ne_nil hg
  obtain ⟨c, cs, hc⟩ := List.exists_cons_of_ne_nil p.text_ne_nil
  have h := stops_head? (p :: g) (s := []) nofun
  rw [text, List.flatMap_cons, hc] at h ⊢
  exact h

/-! ### Keywords and names -/

/-- A keyword as it is written, in any letter case. -/
structure Spelling (w : String) where
  text : List Char
  lower_eq : Text.lower text = w.toList

/-- A name of a table or of a column as it is written. -/
inductive Identifier (d : Dialect) where
  | bare (c : Char) (cs : List Char) (hc : Token.beginsWord c)
    (hcs : ∀ x ∈ cs, Token.continuesWord x)
  /-- Between double quotes or back quotes, of which none stands in the name. -/
  | quoted (q : Quote) (name : List Char) (hq : q ≠ .single) (hb : Grammar.Body id d q name)
      (hn : q.char ∉ name)

namespace Spelling

variable {w : String} (s : Spelling w)

lemma isAlphabetic_of_mem (hw : w.toList.all (·.isAlpha)) {c : Char} (hc : c ∈ s.text) :
    Text.isAlphabetic c := by
  refine Head.isAlphabetic_of_toLower (List.all_eq_true.1 hw _ ?_)
  rw [← s.lower_eq]
  exact List.mem_map_of_mem hc

lemma text_ne_nil (hw : w.toList ≠ []) : s.text ≠ [] := by
  intro e
  rw [← s.lower_eq, e] at hw
  exact hw rfl

/-- A keyword is read where no word goes on behind it. -/
lemma reads (hw : w.toList.all (·.isAlpha)) (hne : w.toList ≠ []) {rest : List Char}
    (hr : ∀ x ∈ rest.head?, Token.Stops x) (before : Option Char) :
    (word s.text).Reads d before rest := by
  obtain ⟨c, cs, hc⟩ := List.exists_cons_of_ne_nil (s.text_ne_nil hne)
  have hletter : ∀ x ∈ c :: cs, Text.isAlphabetic x := fun x hx =>
    s.isAlphabetic_of_mem hw (hc ▸ hx)
  rw [hc]
  refine reads_word ?_ (fun x hx => ?_) (fun x hx => (hr x hx).1) before
  · rw [Token.beginsWord, hletter c List.mem_cons_self, Bool.true_or]
  · have hx := Text.isAlphanumeric_of_isAlphabetic (hletter x (List.mem_cons_of_mem c hx))
    rw [Token.continuesWord, hx, Bool.true_or, Bool.true_or]

/-- A keyword bars no question mark behind it. -/
lemma bars_last? (hw : w.toList.all (·.isAlpha)) :
    Placeholder.bars (word s.text).last? = false := by
  rw [← Bool.not_eq_true, Placeholder.bars_iff]
  rintro (h | h)
  · exact absurd (s.isAlphabetic_of_mem hw (List.mem_of_getLast? h)) (by decide)
  · exact absurd (s.isAlphabetic_of_mem hw (List.mem_of_getLast? h)) (by decide)

end Spelling

namespace Identifier

/-- The name without its quotes. -/
def name : Identifier d → List Char
  | bare c cs _ _ => c :: cs
  | quoted _ name _ _ _ => name

/-- The name as it is written. -/
def text : Identifier d → List Char
  | bare c cs _ _ => c :: cs
  | quoted q name _ _ _ => q.char :: (name ++ [q.char])

/-- The name is the bare word `w`, in any letter case. -/
def IsBare (w : String) : Identifier d → Prop
  | bare c cs _ _ => Text.lower (c :: cs) = w.toList
  | quoted .. => False

instance (w : String) : (i : Identifier d) → Decidable (i.IsBare w)
  | bare c cs _ _ => inferInstanceAs (Decidable (Text.lower (c :: cs) = w.toList))
  | quoted .. => inferInstanceAs (Decidable False)

def lexeme : Identifier d → Lexeme
  | bare c cs _ _ => word (c :: cs)
  | quoted q name _ _ _ =>
    ⟨.literal, some (Token.literalKind d (some q.char)), q.char :: (name ++ [q.char])⟩

@[simp] lemma text_lexeme (i : Identifier d) : i.lexeme.text = i.text := by cases i <;> rfl

lemma mask_lexeme (i : Identifier d) : i.lexeme.mask = i.text := by cases i <;> rfl

lemma text_ne_nil (i : Identifier d) : i.text ≠ [] := by cases i <;> exact List.cons_ne_nil _ _

lemma reads (i : Identifier d) {rest : List Char} (hr : ∀ x ∈ rest.head?, Token.Stops x)
    (before : Option Char) : i.lexeme.Reads d before rest := by
  cases i with
  | bare c cs hc hcs => exact reads_word hc hcs (fun x hx => (hr x hx).1) before
  | quoted q name hq hb hn =>
    refine .literal (.closedLiteral hb fun e => ?_)
    have hq := (hr _ e).2
    rw [id, Quote.ofChar?_char] at hq
    cases hq

lemma literalKind_cases (d : Dialect) (c : Option Char) :
    Token.literalKind d c = .string ∨ Token.literalKind d c = .identifier := by
  unfold Token.literalKind
  split
  · exact .inl rfl
  · exact .inr rfl

lemma token?_lexeme (i : Identifier d) : i.lexeme.token? = some .word ∨
    i.lexeme.token? = some .string ∨ i.lexeme.token? = some .identifier := by
  cases i with
  | bare => exact .inl rfl
  | quoted q =>
    rcases literalKind_cases d (some q.char) with h | h
    · exact .inr (.inl (congrArg some h))
    · exact .inr (.inr (congrArg some h))

/-- A name that is a word is written without quotes. -/
lemma exists_eq_bare {i : Identifier d} (h : i.lexeme.token? = some .word) :
    ∃ c cs hc hcs, i = .bare c cs hc hcs := by
  cases i with
  | bare c cs hc hcs => exact ⟨c, cs, hc, hcs, rfl⟩
  | quoted q =>
    rcases literalKind_cases d (some q.char) with hk | hk
    · exact absurd (hk.symm.trans (Option.some.inj h)) (by decide)
    · exact absurd (hk.symm.trans (Option.some.inj h)) (by decide)

/-- A name begins with no digit. -/
lemma isDigit_of_head?_text (i : Identifier d) {c : Char} (hc : i.text.head? = some c) :
    c.isDigit = false := by
  cases i with
  | bare e cs he _ =>
    obtain rfl := Option.some.inj hc
    by_contra hd
    rw [(Token.word_of_isDigit (by simpa using hd)).1] at he
    cases he
  | quoted q =>
    obtain rfl := Option.some.inj hc
    cases q <;> decide

end Identifier

/-! ### Tokens without their places -/

namespace Lexeme

/-- The kinds of the tokens among the lexemes. -/
def kinds (ls : List Lexeme) : List Token.Kind := ls.filterMap token?

/-- The tokens among the lexemes, each with its text. -/
def written (ls : List Lexeme) : List (Token.Kind × List Char) :=
  ls.filterMap fun l => l.token?.map (·, l.text)

lemma map_kind_tokens (pos : Nat) (ls : List Lexeme) :
    (tokens pos ls).map (·.kind) = kinds ls := by
  induction ls generalizing pos with
  | nil => rfl
  | cons l ls ih =>
    rw [tokens_cons, List.map_append, ih, kinds, kinds, List.filterMap_cons, tokenAt]
    cases l.token? <;> rfl

lemma map_written_tokens (pos : Nat) (ls : List Lexeme) :
    (tokens pos ls).map (fun t => (t.kind, t.text)) = written ls := by
  induction ls generalizing pos with
  | nil => rfl
  | cons l ls ih =>
    rw [tokens_cons, List.map_append, ih, written, written, List.filterMap_cons, tokenAt]
    cases l.token? <;> rfl

lemma kinds_gap (g : Gap d) : kinds (Gap.lexemes g) = [] := by
  rw [← map_kind_tokens 0, Gap.tokens_lexemes, List.map_nil]

end Lexeme

/-! ### Entries -/

/-- A number as it is written: digits and points, then an exponent or none. -/
structure Numeral where
  first : Char
  mantissa : List Char
  exponent : List Char
  begins : Token.beginsNumber first mantissa
  digits : ∀ x ∈ mantissa, Token.isDigitOrPoint x
  power : exponent = [] ∨ ∃ e sign digits, exponent = e :: (sign ++ digits) ∧
    (e = 'e' ∨ e = 'E') ∧ (sign = [] ∨ sign = ['+'] ∨ sign = ['-']) ∧ digits ≠ [] ∧
      ∀ x ∈ digits, x.isDigit

namespace Numeral

variable (n : Numeral)

def text : List Char := n.first :: (n.mantissa ++ n.exponent)

def lexeme : Lexeme := ⟨.bare, some .number, n.text⟩

lemma exponentLength_exponent : Token.exponentLength n.exponent = n.exponent.length := by
  rcases n.power with h | ⟨e, sign, digits, h, he, hs, hne, hd⟩
  · rw [h]
    rfl
  · have hsign : Token.signLength (sign ++ digits) = sign.length := by
      rcases hs with rfl | rfl | rfl
      · obtain ⟨x, xs, rfl⟩ := List.exists_cons_of_ne_nil hne
        have hx := hd x List.mem_cons_self
        have hp : x ≠ '+' ∧ x ≠ '-' := by
          constructor
          · rintro rfl
            exact absurd hx (by decide)
          · rintro rfl
            exact absurd hx (by decide)
        simp [Token.signLength, hp]
      · rfl
      · rfl
    have hlen : digits.length ≠ 0 := fun h => hne (List.eq_nil_of_length_eq_zero h)
    rw [h, Token.exponentLength_cons, if_pos he, hsign, List.drop_left,
      List.takeWhile_eq_self_iff.2 hd, Token.exponentOf, if_neg hlen, List.length_cons,
      List.length_append]
    omega

lemma numberLength_tail :
    Token.numberLength (n.mantissa ++ n.exponent) = (n.mantissa ++ n.exponent).length := by
  have hstop : ∀ c ∈ n.exponent.head?, Token.isDigitOrPoint c = false := by
    rcases n.power with h | ⟨e, sign, digits, h, he, -⟩
    · rw [h]
      exact nofun
    · refine Text.forall_head? (congrArg List.head? h) ?_
      rcases he with rfl | rfl <;> decide
  rw [Token.numberLength, Text.takeWhile_append_of_forall n.digits hstop, List.drop_left,
    exponentLength_exponent, List.length_append]

lemma beginsNumber_tail : Token.beginsNumber n.first (n.mantissa ++ n.exponent) := by
  have h := n.begins
  cases hm : n.mantissa with
  | cons x xs => rwa [hm] at h
  | nil =>
    rw [hm, Token.beginsNumber] at h
    simp only [List.head?_nil, Option.any_none, Bool.and_false, Bool.or_false] at h
    rw [Token.beginsNumber, h, Bool.true_or]

/-- A number begins with a digit or a point. -/
lemma isDigitOrPoint_first : Token.isDigitOrPoint n.first := by
  have h := n.begins
  rw [Token.beginsNumber, Bool.or_eq_true, Bool.and_eq_true] at h
  rw [Token.isDigitOrPoint, Bool.or_eq_true]
  exact h.imp id And.left

lemma reads (before : Option Char) : n.lexeme.Reads d before [] := by
  have hfirst := n.isDigitOrPoint_first
  have hplain := Token.isPlain_iff.1 (Token.isPlain_of_isDigitOrPoint hfirst)
  have hat : Placeholder.at? before n.first (n.mantissa ++ n.exponent) = none :=
    Token.at?_eq_none_iff.2 ⟨fun h => hplain.2.1 h.1, fun h => hplain.2.2 h.1⟩
  obtain ⟨hblank, hword⟩ : Text.isBlank n.first = false ∧ Token.beginsWord n.first = false := by
    rw [Token.isDigitOrPoint, Bool.or_eq_true, beq_iff_eq] at hfirst
    rcases hfirst with hd | hd
    · exact (Token.word_of_isDigit hd).symm
    · rw [hd]
      decide
  refine .bare (Dialect.opener?_of_opensNothing hplain.1 _) ?_
  rw [List.append_nil]
  unfold Token.lexeme
  rw [hat, hblank, hword, n.beginsNumber_tail, n.numberLength_tail]
  rfl

end Numeral

/-- Tokens that are one placeholder, or one string or number with a sign or without. -/
inductive Simple : List (Token.Kind × List Char) → Prop where
  | one {k : Token.Kind} (text : List Char) : k = .placeholder ∨ k = .string ∨ k = .number →
      Simple [(k, text)]
  | signed {sign : List Char} (text : List Char) : sign = ['-'] ∨ sign = ['+'] →
      Simple [(.symbol, sign), (.number, text)]

/-- An entry of a row as it is written. -/
inductive EntryForm (d : Dialect) where
  | mark
  | name (name : List Char) (hb : name.head?.any Placeholder.beginsName)
      (hn : ∀ x ∈ name, Placeholder.continuesName x)
  | string (q : Quote) (body : List Char) (hq : q = .single ∨ q = .double ∧ d = .mysql)
      (hb : Grammar.Body id d q body)
  | number (n : Numeral)
  | signed (sign : Char) (gap : Gap d) (n : Numeral) (hs : sign = '-' ∨ sign = '+')
      (hg : sign = '-' → gap.text.head? ≠ some '-')
  /-- Any other lexemes, the last of which is over. Their parentheses match, and no comma stands
  outside these. -/
  | expression (ls : List Lexeme) (hr : Reading d [] none ls) (he : ∀ l ∈ ls.getLast?, l.Ends d)
      (hne : kinds ls ≠ []) (hp : Token.Kind.Nested (· ≠ .comma) (kinds ls))
      (hx : .openParen ∈ kinds ls ∨ ¬ Simple (written ls))

namespace EntryForm

/-- What the entry is to be read as. -/
def entry : EntryForm d → Entry
  | mark => .placeholder
  | name .. => .placeholder
  | string .. => .literal
  | number _ => .literal
  | signed .. => .literal
  | expression .. => .expression

/-- The entry as it is written. -/
def text : EntryForm d → List Char
  | mark => ['?']
  | name cs _ _ => ':' :: cs
  | string q body _ _ => q.char :: (body ++ [q.char])
  | number n => n.text
  | signed sign gap n _ _ => sign :: (gap.text ++ n.text)
  | expression ls _ _ _ _ _ => textOf ls

def lexemes : EntryForm d → List Lexeme
  | mark => [Lexeme.mark none]
  | name cs _ _ => [named cs]
  | string q body _ _ => [⟨.literal, some .string, q.char :: (body ++ [q.char])⟩]
  | number n => [n.lexeme]
  | signed sign gap n _ _ => single sign :: (gap.lexemes ++ [n.lexeme])
  | expression ls _ _ _ _ _ => ls

variable (f : EntryForm d)

lemma textOf_lexemes : textOf f.lexemes = f.text := by
  cases f <;> simp [lexemes, text, Lexeme.mark, named, single, Gap.textOf_lexemes, Numeral.lexeme]

lemma reads_string {q : Quote} {body : List Char} (hq : q = .single ∨ q = .double ∧ d = .mysql)
    (hb : Grammar.Body id d q body) (before : Option Char) :
    (Lexeme.mk .literal (some .string) (q.char :: (body ++ [q.char]))).Reads d before [] := by
  have hk : Token.literalKind d (some q.char) = .string := by
    rcases hq with rfl | ⟨rfl, rfl⟩ <;> rfl
  rw [← hk]
  refine .literal (.closedLiteral hb fun e => ?_)
  cases e

lemma reads_sign {sign : Char} (hs : sign = '-' ∨ sign = '+') {rest : List Char}
    (hr : sign = '-' → rest.head? ≠ some '-') (before : Option Char) :
    (single sign).Reads d before rest := by
  rcases hs with rfl | rfl
  · refine .bare ?_ ?_
    · have hq : Quote.ofChar? '-' = none := by decide
      simp [Dialect.opener?, hq, hr rfl]
    · unfold Token.lexeme
      rw [at?_of_parts (by decide)]
      rfl
  · exact reads_single (by decide) (by decide) (by decide) (by decide) before rest

/-- An entry is read by itself. -/
lemma reading : Reading d [] none f.lexemes := by
  cases f with
  | mark => exact ⟨reads_mark_none (by decide) _, trivial⟩
  | name cs hb hn =>
    have h : (named cs).Reads d none [] := reads_named hb hn nofun nofun
    exact ⟨h, trivial⟩
  | string q body hq hb => exact ⟨reads_string hq hb _, trivial⟩
  | number n => exact ⟨n.reads _, trivial⟩
  | signed sign gap n hs hg =>
    refine ⟨reads_sign hs (fun e => ?_) _, reading_append.2
      ⟨gap.reading _ _, n.reads _, trivial⟩⟩
    rw [textOf_append, Gap.textOf_lexemes, List.append_nil]
    cases hgap : gap.text with
    | nil =>
      -- a number does not begin with a dash
      intro h
      have h : n.first = '-' := Option.some.inj h
      have hf := n.isDigitOrPoint_first
      rw [h] at hf
      exact absurd hf (by decide)
    | cons c r =>
      have := hg e
      rwa [hgap] at this
  | expression ls hr => exact hr

lemma ends : ∀ l ∈ f.lexemes.getLast?, l.Ends d := by
  have hbare : ∀ {l : Lexeme}, l.kind = .bare → l.Ends d := .inl
  cases f with
  | mark => exact fun l hl => hbare (by rw [← Option.some.inj hl]; rfl)
  | name => exact fun l hl => hbare (by rw [← Option.some.inj hl]; rfl)
  | string q body hq hb =>
    intro l hl
    rw [← Option.some.inj hl]
    refine .inr (.closedLiteral hb fun e => ?_)
    have e : ' ' = q.char := Option.some.inj e
    cases q <;> exact absurd e (by decide)
  | number => exact fun l hl => hbare (by rw [← Option.some.inj hl]; rfl)
  | signed sign gap n =>
    intro l hl
    rw [lexemes, ← List.cons_append, List.getLast?_concat] at hl
    exact hbare (by rw [← Option.some.inj hl]; rfl)
  | expression ls _ he => exact he

/-- What is neither nested nor simple is an expression. -/
lemma entry_eq_expression {ts : List Token}
    (h : ¬ Simple (ts.map fun t => (t.kind, t.text))) :
    ListItem.entry ⟨ts, false⟩ = .expression := by
  unfold ListItem.entry
  simp only [Bool.false_eq_true, if_false]
  split
  · next t =>
    rw [if_neg fun hk => h (.one _ (.inl hk)), if_neg fun hk => h (.one _ (.inr hk))]
  · next s t =>
    refine if_neg fun hk => h ?_
    obtain ⟨hs, ht⟩ := hk
    rw [ListItem.isSign, Bool.and_eq_true, Bool.or_eq_true, beq_iff_eq, beq_iff_eq,
      beq_iff_eq] at hs
    rw [List.map_cons, List.map_singleton, hs.1, ht]
    exact .signed _ hs.2
  · rfl

/-- **The tokens of an entry are an item**, and the item is what the entry is to be read as. -/
theorem isItem (pos : Nat) : ParenList.IsItem (tokens pos f.lexemes) f.entry := by
  have hflat : ∀ ks : List Token.Kind, (∀ k ∈ ks, k = .placeholder ∨ k = .string ∨ k = .number ∨
      k = .symbol) → Token.Kind.Nested (· ≠ .comma) ks := fun ks h =>
    Token.Kind.nested_of_forall fun k hk => by
      rcases h k hk with rfl | rfl | rfl | rfl <;> decide
  cases f with
  | mark => exact ⟨List.cons_ne_nil _ _, hflat [.placeholder] (by decide), rfl⟩
  | name => exact ⟨List.cons_ne_nil _ _, hflat [.placeholder] (by decide), rfl⟩
  | string => exact ⟨List.cons_ne_nil _ _, hflat [.string] (by decide), rfl⟩
  | number => exact ⟨List.cons_ne_nil _ _, hflat [.number] (by decide), rfl⟩
  | signed sign gap n hs =>
    -- the sign is a symbol, and the gap behind it has no token
    have hk : Token.markKind sign = .symbol := by rcases hs with rfl | rfl <;> rfl
    have htokens : tokens pos (signed sign gap n hs ‹_›).lexemes =
        [⟨.symbol, pos, [sign]⟩,
          ⟨.number, pos + Text.width [sign] + Text.width gap.text, n.text⟩] := by
      rw [lexemes, tokens_cons, tokens_append, Gap.tokens_lexemes, Gap.textOf_lexemes, tokenAt,
        single, hk]
      rfl
    rw [htokens]
    refine ⟨List.cons_ne_nil _ _, hflat [.symbol, .number] (by decide), ?_⟩
    rcases hs with rfl | rfl <;> rfl
  | expression ls hr he hne hp hx =>
    have hkinds := map_kind_tokens pos ls
    refine ⟨fun e => hne ?_, hkinds ▸ hp, ?_⟩
    · rw [← hkinds, lexemes] at *
      rw [e, List.map_nil]
    · show ListItem.entry ⟨tokens pos ls, (tokens pos ls).any (·.kind == .openParen)⟩ = .expression
      -- with a parenthesis it is an expression whatever else is in it
      by_cases hm : .openParen ∈ kinds ls
      · obtain ⟨t, ht, hk⟩ := List.mem_map.1 (hkinds ▸ hm)
        have hany : (tokens pos ls).any (·.kind == .openParen) = true :=
          List.any_eq_true.2 ⟨t, ht, beq_iff_eq.2 hk⟩
        rw [hany]
        rfl
      · have hany : (tokens pos ls).any (·.kind == .openParen) = false :=
          List.any_eq_false.2 fun t ht hk =>
            hm (hkinds ▸ List.mem_map.2 ⟨t, ht, beq_iff_eq.1 hk⟩)
        rw [hany]
        exact entry_eq_expression (map_written_tokens pos ls ▸ hx.resolve_left hm)

end EntryForm

end QueryGuard
