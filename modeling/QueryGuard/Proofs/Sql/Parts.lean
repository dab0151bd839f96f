import QueryGuard.Proofs.Sql.Splice

/-!
The lexemes one by one: how white space, words, marks and placeholders are read, what each of them
begins and ends with, and where the tokens of lexemes cut these apart.
-/

namespace QueryGuard

variable {d : Dialect}

lemma Token.continuesWord_of_beginsWord {c : Char} (h : beginsWord c) : continuesWord c := by
  simp only [beginsWord, Bool.or_eq_true] at h
  rcases h with h | h
  · simp [continuesWord, Text.isAlphanumeric_of_isAlphabetic h]
  · simp [continuesWord, h]

/-! ### Lexemes apart at a token -/

/-- The character of a mark that has a kind of its own. -/
def Token.Kind.mark? : Token.Kind → Option Char
  | openParen => some '('
  | closeParen => some ')'
  | comma => some ','
  | star => some '*'
  | semicolon => some ';'
  | equals => some '='
  | _ => none

lemma Token.eq_of_mark? {c e : Char} (h : (markKind e).mark? = some c) : e = c := by
  unfold markKind at h
  repeat' split at h
  all_goals first | cases h; assumption | cases h

lemma Text.takeWhile_append_of_head? {p : Char → Bool} (as : List Char) {bs : List Char}
    (h : ∀ c ∈ bs.head?, p c = false) : (as ++ bs).takeWhile p = as.takeWhile p := by
  cases bs with
  | nil => rw [List.append_nil]
  | cons c bs => exact takeWhile_append_cons (h c rfl) as bs

/-- What is taken of a text is the part of it that meets `p`, if that ends where it ends. -/
lemma Text.takeWhile_append_of_forall {p : Char → Bool} {as bs : List Char}
    (ha : ∀ c ∈ as, p c) (hb : ∀ c ∈ bs.head?, p c = false) : (as ++ bs).takeWhile p = as := by
  rw [takeWhile_append_of_head? as hb, List.takeWhile_eq_self_iff.2 ha]

namespace Lexeme

variable {l : Lexeme} {ls : List Lexeme} {before : Option Char} {rest : List Char} {pos : Nat}

/-- The lexemes before a token, its own, and those behind it. -/
lemma exists_split {xs ys : List Token} {u : Token} (h : tokens pos ls = xs ++ u :: ys) :
    ∃ as l bs, ls = as ++ l :: bs ∧ tokens pos as = xs ∧
      l.tokenAt (pos + Text.width (textOf as)) = some u ∧
      tokens (pos + Text.width (textOf as) + Text.width l.text) bs = ys := by
  induction ls generalizing pos xs with
  | nil => simp at h
  | cons m ls ih =>
    rw [tokens_cons] at h
    -- a lexeme without a token goes to the front; with one, it is the one looked for or in front
    cases ht : m.tokenAt pos with
    | none =>
      rw [ht, Option.toList_none, List.nil_append] at h
      obtain ⟨as, l, bs, rfl, hx, hu, hy⟩ := ih h
      refine ⟨m :: as, l, bs, rfl, ?_, ?_, ?_⟩
      · rw [tokens_cons, ht, hx]
        rfl
      · rwa [textOf_cons, Text.width_append, ← Nat.add_assoc]
      · rwa [textOf_cons, Text.width_append, ← Nat.add_assoc]
    | some v =>
      rw [ht, Option.toList_some, List.singleton_append] at h
      cases xs with
      | nil =>
        obtain ⟨rfl, rfl⟩ := List.cons.inj h
        exact ⟨[], m, ls, rfl, rfl, ht, rfl⟩
      | cons x xs =>
        obtain ⟨rfl, htail⟩ := List.cons.inj h
        obtain ⟨as, l, bs, rfl, hx, hu, hy⟩ := ih htail
        refine ⟨m :: as, l, bs, rfl, ?_, ?_, ?_⟩
        · rw [tokens_cons, ht, hx]
          rfl
        · rwa [textOf_cons, Text.width_append, ← Nat.add_assoc]
        · rwa [textOf_cons, Text.width_append, ← Nat.add_assoc]

lemma start_of_tokenAt {u : Token} (h : l.tokenAt pos = some u) :
    u.start = pos ∧ u.text = l.text ∧ l.token? = some u.kind := by
  obtain ⟨kind, hk, rfl⟩ := Option.map_eq_some_iff.1 h
  exact ⟨rfl, rfl, hk⟩

/-! ### Words, blanks and marks -/

/-- Nothing goes on over the character: it is in no word, and no placeholder starts there. -/
def parts (c : Char) : Bool := !Token.continuesWord c && c != '?' && c != ':'

lemma parts_iff {c : Char} :
    parts c = true ↔ Token.continuesWord c = false ∧ c ≠ '?' ∧ c ≠ ':' := by
  simp [parts, and_assoc]

/-- The code points of white space. -/
def blankCodes : List Nat :=
  List.range' 0x09 5 ++ ([0x20, 0x85, 0xA0, 0x1680] ++ (List.range' 0x2000 11 ++
    [0x2028, 0x2029, 0x202F, 0x205F, 0x3000]))

lemma toNat_mem_blankCodes {c : Char} (h : Text.isBlank c) : c.toNat ∈ blankCodes := by
  simp only [Text.isBlank, Bool.or_eq_true, Bool.and_eq_true, decide_eq_true_eq, beq_iff_eq,
    or_assoc] at h
  simp only [blankCodes, List.mem_append, List.mem_cons, List.mem_range'_1, List.not_mem_nil,
    Nat.lt_succ_iff, or_false, or_assoc]
  exact h

/-- White space goes on with nothing and opens nothing. -/
lemma parts_of_isBlank {c : Char} (h : Text.isBlank c) : parts c ∧ Token.opensNothing c := by
  have hall : ∀ n ∈ blankCodes, parts (Char.ofNat n) ∧ Token.opensNothing (Char.ofNat n) := by
    decide +kernel
  have hc := hall c.toNat (toNat_mem_blankCodes h)
  rwa [Char.ofNat_toNat] at hc

lemma parts_of_mark? {kind : Token.Kind} {c : Char} (h : kind.mark? = some c) : parts c := by
  cases kind <;> cases h <;> decide

lemma at?_of_parts {c : Char} (h : parts c) (before : Option Char) (cs : List Char) :
    Placeholder.at? before c cs = none :=
  Token.at?_eq_none_iff.2
    ⟨fun e => (parts_iff.1 h).2.1 e.1, fun e => (parts_iff.1 h).2.2 e.1⟩

/-- White space is read character by character. -/
lemma Reads.eq_blank (h : l.Reads d before rest) {c : Char} (hc : l.text.head? = some c)
    (hb : Text.isBlank c) : l = ⟨.bare, none, [c]⟩ := by
  obtain ⟨hp, hn⟩ := parts_of_isBlank hb
  have hk := h.kind_eq_bare hc hn
  cases h with
  | @bare e cs token? ho hlex =>
    obtain rfl : e = c := Option.some.inj hc
    unfold Token.lexeme at hlex
    rw [at?_of_parts hp] at hlex
    simp only [if_pos hb] at hlex
    obtain ⟨rfl, hlen⟩ := Prod.mk.inj hlex
    rw [List.eq_nil_of_length_eq_zero hlen.symm]
  | literal => cases hk
  | comment => cases hk

lemma Reads.token?_word (h : l.Reads d before rest) {c : Char} (hc : l.text.head? = some c)
    (hw : Token.beginsWord c) : l.token? = some .word := by
  have hcw := Token.continuesWord_of_beginsWord hw
  have hplain := Token.isPlain_iff.1 (Token.isPlain_of_continuesWord hcw)
  have hk := h.kind_eq_bare hc hplain.1
  have hnb : ¬ Text.isBlank c := by
    intro hb
    have := (parts_iff.1 (parts_of_isBlank hb).1).1
    rw [hcw] at this
    cases this
  cases h with
  | @bare e cs token? ho hlex =>
    obtain rfl : e = c := Option.some.inj hc
    have hat : Placeholder.at? before e (cs ++ rest) = none :=
      Token.at?_eq_none_iff.2 ⟨fun h => hplain.2.1 h.1, fun h => hplain.2.2 h.1⟩
    unfold Token.lexeme at hlex
    rw [hat] at hlex
    simp only [if_neg hnb, if_pos hw] at hlex
    exact (Prod.mk.inj hlex).1.symm
  | literal => cases hk
  | comment => cases hk

/-- A lexeme that is no token is a character of white space, or a comment. -/
lemma Reads.blank_cases (h : l.Reads d before rest) (ht : l.token? = none) :
    (∃ c, Text.isBlank c ∧ l = ⟨.bare, none, [c]⟩) ∨
      l.kind = .comment ∧ Grammar.Spells id d .comment l.text rest.head? := by
  cases h with
  | @bare c cs token? ho hlex =>
    obtain rfl : token? = none := ht
    have hb : Text.isBlank c := by
      by_contra hb
      have hn : (Token.lexeme before c (cs ++ rest)).1 = none := by rw [hlex]
      unfold Token.lexeme at hn
      split at hn
      · cases hn
      · cases hn
      · rw [if_neg hb] at hn
        split at hn
        · cases hn
        · split at hn <;> cases hn
    have hs := Reads.eq_blank (d := d) (.bare ho hlex) rfl hb
    exact .inl ⟨c, hb, hs⟩
  | literal => cases ht
  | comment hs => exact .inr ⟨rfl, hs⟩

/-- What a lexeme that is no token begins with. -/
lemma Reads.parts_of_token?_none (h : l.Reads d before rest) (ht : l.token? = none) {c : Char}
    (hc : l.text.head? = some c) : parts c := by
  rcases h.blank_cases ht with ⟨e, hb, rfl⟩ | ⟨-, hs⟩
  · obtain rfl := Option.some.inj hc
    exact (parts_of_isBlank hb).1
  · obtain ⟨o, hk, ho⟩ := hs.exists_opens nofun
    generalize l.text = text at hc ho
    cases ho with
    | quote q => cases hk
    | dashes => obtain rfl := Option.some.inj hc; decide
    | hash => obtain rfl := Option.some.inj hc; decide
    | block => obtain rfl := Option.some.inj hc; decide

/-- A character that is a token of its own. -/
def single (c : Char) : Lexeme := ⟨.bare, some (Token.markKind c), [c]⟩

/-- A token of a mark is its character. -/
lemma Reads.eq_single (h : l.Reads d before rest) {kind : Token.Kind} (ht : l.token? = some kind)
    {c : Char} (hc : kind.mark? = some c) : l = single c := by
  cases h with
  | @bare e cs token? ho hlex =>
    obtain rfl : token? = some kind := ht
    unfold Token.lexeme at hlex
    -- placeholders, words and numbers have no mark, so what is left is a single character
    split at hlex
    · obtain rfl := Option.some.inj (Prod.mk.inj hlex).1
      cases hc
    · obtain rfl := Option.some.inj (Prod.mk.inj hlex).1
      cases hc
    · split at hlex
      · cases hlex
      · split at hlex
        · obtain rfl := Option.some.inj (Prod.mk.inj hlex).1
          cases hc
        · split at hlex
          · obtain rfl := Option.some.inj (Prod.mk.inj hlex).1
            cases hc
          · obtain ⟨hk, hlen⟩ := Prod.mk.inj hlex
            obtain rfl : Token.markKind e = kind := Option.some.inj hk
            rw [List.eq_nil_of_length_eq_zero hlen.symm, Token.eq_of_mark? hc]
            rfl
  | literal =>
    have ht := Option.some.inj ht
    unfold Token.literalKind at ht
    split at ht
    · rw [← ht] at hc
      cases hc
    · rw [← ht] at hc
      cases hc
  | comment => cases ht

/-- Nothing goes on over white space, a comment or a mark. -/
lemma Reading.parts_head? (h : Reading d [] before ls) (pos : Nat)
    (hs : ∀ u ∈ (tokens pos ls).head?, u.kind.mark?.isSome) :
    ∀ c ∈ (textOf ls).head?, parts c := by
  intro c hc
  cases ls with
  | nil => cases hc
  | cons l ls =>
    have hlc : l.text.head? = some c := by
      obtain ⟨e, es, he⟩ := List.exists_cons_of_ne_nil h.1.text_ne_nil
      rw [textOf_cons, he] at hc
      rw [he]
      exact hc
    cases hl : l.token? with
    | none => exact h.1.parts_of_token?_none hl hlc
    | some kind =>
      have hm : kind.mark?.isSome := by
        rw [tokens_cons, tokenAt, hl] at hs
        exact hs _ rfl
      obtain ⟨e, he⟩ := Option.isSome_iff_exists.1 hm
      rw [h.1.eq_single hl he] at hlc
      obtain rfl := Option.some.inj hlc
      exact parts_of_mark? he

/-- A word begins as one, and behind it no character goes on with it. -/
lemma Reads.word_cases (h : l.Reads d before rest) (ht : l.token? = some .word) :
    l.kind = .bare ∧ (∀ c ∈ l.text.head?, Token.beginsWord c) ∧
      (∀ c ∈ l.text.tail, Token.continuesWord c) ∧
      ∀ c ∈ rest.head?, Token.continuesWord c = false := by
  cases h with
  | @bare c cs token? ho hlex =>
    obtain rfl : token? = some .word := ht
    unfold Token.lexeme at hlex
    split at hlex
    · cases hlex
    · cases hlex
    · split at hlex
      · cases hlex
      · split at hlex
        · next hw =>
          -- a word takes all that goes on with it
          have hlen := (Prod.mk.inj hlex).2
          refine ⟨rfl, fun x hx => ?_, Token.forall_of_length_takeWhile_eq hlen, fun x hx => ?_⟩
          · obtain rfl := Option.some.inj hx
            exact hw
          · obtain ⟨r, rfl⟩ := List.head?_eq_some_iff.1 hx
            by_contra hxw
            have hall := Token.forall_of_length_takeWhile_eq hlen
            have e : (cs ++ x :: r).takeWhile Token.continuesWord =
                cs ++ (x :: r).takeWhile Token.continuesWord := by
              rw [List.takeWhile_append_of_pos hall]
            have hxw : Token.continuesWord x = true := by simpa using hxw
            rw [e, List.takeWhile_cons, if_pos hxw, List.length_append, List.length_cons] at hlen
            omega
        · split at hlex
          · cases hlex
          -- no mark is read as a word
          · have := (Prod.mk.inj hlex).1
            exfalso
            have hk : Token.markKind c = .word := Option.some.inj this
            unfold Token.markKind at hk
            repeat' split at hk
            all_goals cases hk
  | literal =>
    have ht := Option.some.inj ht
    unfold Token.literalKind at ht
    split at ht <;> cases ht
  | comment => cases ht

lemma Reads.continuesWord_of_mem (h : l.Reads d before rest) (ht : l.token? = some .word) {c : Char}
    (hc : c ∈ l.text) : Token.continuesWord c := by
  obtain ⟨-, hhead, htail, -⟩ := h.word_cases ht
  obtain ⟨e, es, he⟩ := List.exists_cons_of_ne_nil h.text_ne_nil
  rw [he] at hc hhead htail
  rcases List.mem_cons.1 hc with rfl | hc
  · exact Token.continuesWord_of_beginsWord (hhead c rfl)
  · exact htail c hc

lemma Reads.mask_ne_nil (h : l.Reads d before rest) : l.mask ≠ [] := by
  intro e
  have hw := width_mask l
  rw [e, Text.width_nil] at hw
  exact (Text.width_pos h.text_ne_nil).ne hw

lemma isBlank_of_isGap {c : Char} (h : Head.isGap c) : Text.isBlank c := by
  simp only [Head.isGap, Bool.or_eq_true, beq_iff_eq] at h
  rcases h with ((rfl | rfl) | rfl) | rfl <;> decide

lemma continuesWord_of_isGap {c : Char} (h : Head.isGap c) : Token.continuesWord c = false :=
  (parts_iff.1 (parts_of_isBlank (isBlank_of_isGap h)).1).1

/-- A lexeme that begins with a gap is one, and one that begins with a letter is a word. -/
lemma Reads.gap_or_word (h : l.Reads d before rest) {c : Char} (hc : l.mask.head? = some c)
    (hl : Head.isGap c ∨ Text.isAlphabetic c) :
    ((∀ x ∈ l.mask, Head.isGap x) ∧ l.token? = none) ∨
      (l.token? = some .word ∧ l.mask = l.text) := by
  by_cases hk : l.kind = .comment
  · refine .inl ⟨fun x hx => ?_, ?_⟩
    · rw [mask, if_pos hk] at hx
      rw [List.eq_of_mem_replicate hx]
      rfl
    · cases h with
      | bare => cases hk
      | literal => cases hk
      | comment => rfl
  · have hmask : l.mask = l.text := if_neg hk
    rw [hmask] at hc ⊢
    rcases hl with hg | hletter
    · rw [h.eq_blank hc (isBlank_of_isGap hg)]
      exact .inl ⟨List.forall_mem_singleton.2 hg, rfl⟩
    · exact .inr ⟨h.token?_word hc (by rw [Token.beginsWord, hletter, Bool.true_or]), rfl⟩

lemma tokens_eq_nil_iff {pos : Nat} {ls : List Lexeme} :
    tokens pos ls = [] ↔ ∀ l ∈ ls, l.token? = none := by
  induction ls generalizing pos with
  | nil => simp
  | cons l ls ih =>
    rw [tokens_cons, List.append_eq_nil_iff, ih, List.forall_mem_cons, Option.toList_eq_nil_iff,
      tokenAt, Option.map_eq_none_iff]

/-! ### Lexemes that are written out -/

def blank : Lexeme := ⟨.bare, none, [' ']⟩

def word (cs : List Char) : Lexeme := ⟨.bare, some .word, cs⟩

/-- A placeholder with a name. -/
def named (name : List Char) : Lexeme := ⟨.bare, some .placeholder, ':' :: name⟩

lemma reads_of_isBlank {c : Char} (hc : Text.isBlank c) (before : Option Char) (rest : List Char) :
    (Lexeme.mk .bare none [c]).Reads d before rest := by
  obtain ⟨hp, hn⟩ := parts_of_isBlank hc
  refine .bare (Dialect.opener?_of_opensNothing hn _) ?_
  unfold Token.lexeme
  rw [at?_of_parts hp]
  exact if_pos hc

lemma reads_blank (before : Option Char) (rest : List Char) : blank.Reads d before rest :=
  reads_of_isBlank (by decide) before rest

/-- A character that is in no word or number is a token of its own. -/
lemma reads_single {c : Char} (ho : Token.opensNothing c) (hp : parts c)
    (hb : Text.isBlank c = false) (hn : Token.isDigitOrPoint c = false) (before : Option Char)
    (rest : List Char) : (single c).Reads d before rest := by
  refine .bare (Dialect.opener?_of_opensNothing ho _) ?_
  have hw : Token.beginsWord c = false := by
    rw [← Bool.not_eq_true]
    intro hw
    have := Token.continuesWord_of_beginsWord hw
    rw [(parts_iff.1 hp).1] at this
    cases this
  have hnum : Token.beginsNumber c ([] ++ rest) = false := by
    simp only [Token.isDigitOrPoint, Bool.or_eq_false_iff, beq_eq_false_iff_ne] at hn
    simp [Token.beginsNumber, hn]
  unfold Token.lexeme
  rw [at?_of_parts hp, hb, hw, hnum]
  rfl

lemma reads_word {c : Char} {cs : List Char} (hc : Token.beginsWord c)
    (hcs : ∀ x ∈ cs, Token.continuesWord x) (hr : ∀ x ∈ rest.head?, Token.continuesWord x = false)
    (before : Option Char) : (word (c :: cs)).Reads d before rest := by
  have hw := Token.continuesWord_of_beginsWord hc
  have hplain := Token.isPlain_iff.1 (Token.isPlain_of_continuesWord hw)
  have hnb : ¬ Text.isBlank c := fun hb => by
    have := (parts_iff.1 (parts_of_isBlank hb).1).1
    rw [hw] at this
    cases this
  have hat : Placeholder.at? before c (cs ++ rest) = none :=
    Token.at?_eq_none_iff.2 ⟨fun h => hplain.2.1 h.1, fun h => hplain.2.2 h.1⟩
  refine .bare (Dialect.opener?_of_opensNothing hplain.1 _) ?_
  unfold Token.lexeme
  rw [hat]
  simp only [if_neg hnb, if_pos hc]
  rw [Text.takeWhile_append_of_forall hcs hr]

lemma reads_named {name : List Char} (hn : name.head?.any Placeholder.beginsName)
    (hname : ∀ x ∈ name, Placeholder.continuesName x)
    (hr : ∀ x ∈ rest.head?, Placeholder.continuesName x = false) (hb : before ≠ some ':') :
    (named name).Reads d before rest := by
  have hbegins : (name ++ rest).head?.any Placeholder.beginsName := by
    cases name with
    | nil => cases hn
    | cons c cs => exact hn
  have hat := Token.at?_eq_named_iff.2 ⟨⟨rfl, hb, hbegins⟩, rfl⟩
  refine .bare (Dialect.opener?_of_opensNothing (by decide) _) ?_
  unfold Token.lexeme
  rw [hat, Text.takeWhile_append_of_forall hname hr]

end Lexeme

end QueryGuard
