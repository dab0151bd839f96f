import QueryGuard.Proofs.Sql.Cut

/-!
Gaps: the white space and the comments that may be written between two tokens. Main statements: a
gap is read as it is written wherever it stands, and a run of lexemes stays as it is in front of a
gap, unless the two of them make a dash one of two.
-/

namespace QueryGuard

variable {d : Dialect}

/-- A text that begins with `c` begins as `c` does. -/
lemma Text.forall_head? {p : Char → Prop} {s : List Char} {c : Char} (h : s.head? = some c)
    (hc : p c) : ∀ x ∈ s.head?, p x := by
  intro x hx
  rw [h] at hx
  exact Option.some.inj hx ▸ hc

/-! ### Two dashes behind a lexeme -/

namespace Token

lemma exponentLength_append_dashes (w r : List Char) :
    exponentLength (w ++ '-' :: '-' :: r) = exponentLength w := by
  cases w with
  | nil => rfl
  | cons b w =>
    rw [List.cons_append, exponentLength_cons, exponentLength_cons]
    cases w with
    | nil => rfl
    | cons x w =>
      have hsign : signLength (x :: w ++ '-' :: '-' :: r) = signLength (x :: w) := rfl
      rw [hsign, List.drop_append_of_le_length (signLength_le _),
        Text.takeWhile_append_cons (by decide)]

lemma numberLength_append_dashes (w r : List Char) :
    numberLength (w ++ '-' :: '-' :: r) = numberLength w := by
  have hl : (w.takeWhile isDigitOrPoint).length ≤ w.length := (List.takeWhile_sublist _).length_le
  have ht : (w ++ '-' :: '-' :: r).takeWhile isDigitOrPoint = w.takeWhile isDigitOrPoint :=
    Text.takeWhile_append_cons (by decide) _ _
  simp only [numberLength, ht]
  rw [List.drop_append_of_le_length hl, exponentLength_append_dashes]

lemma any_head?_append_dashes {p : Char → Bool} (hp : p '-' = false) (w r : List Char) :
    (w ++ '-' :: '-' :: r).head?.any p = w.head?.any p := by
  cases w with
  | nil => exact hp
  | cons x w => rfl

/-- The marks of the list are in no word, name or number. -/
lemma noLonger_of_all {cs : List Char}
    (h : cs.all fun c => !continuesWord c && !Placeholder.beginsName c && !joinsMarks c) {c : Char}
    (hc : c ∈ cs) (x : Option Char) : NoLonger x c := by
  have hc := List.all_eq_true.1 h c hc
  simp only [Bool.and_eq_true, Bool.not_eq_true'] at hc
  exact noLonger_of_mark hc.1.1 hc.1.2 hc.2 x

/-- A lexeme does not reach into two dashes. -/
lemma lexeme_append_dashes (before : Option Char) (c : Char) (w r : List Char) :
    lexeme before c (w ++ '-' :: '-' :: r) = lexeme before c w := by
  have hname : (w ++ '-' :: '-' :: r).takeWhile Placeholder.continuesName =
      w.takeWhile Placeholder.continuesName := Text.takeWhile_append_cons (by decide) _ _
  have hword : (w ++ '-' :: '-' :: r).takeWhile continuesWord = w.takeWhile continuesWord :=
    Text.takeWhile_append_cons (by decide) _ _
  have hbegins := any_head?_append_dashes (p := Placeholder.beginsName) (by decide) w r
  have hdigit := any_head?_append_dashes (p := Char.isDigit) (by decide) w r
  unfold lexeme Placeholder.at? beginsNumber
  rw [hname, hword, hbegins, hdigit, numberLength_append_dashes]

end Token

/-- Two dashes open nothing together with another character in front of them. -/
lemma Dialect.opener?_cons_dashes {c : Char} (hc : c ≠ '-') (h : d.opener? [c] = none)
    (r : List Char) : d.opener? (c :: '-' :: '-' :: r) = none := by
  simp only [Dialect.opener?] at h ⊢
  cases hq : Quote.ofChar? c with
  | some q => rw [hq] at h; cases h
  | none =>
    rw [hq] at h
    by_cases hd : c = '#' ∧ d = .mysql
    · obtain ⟨rfl, rfl⟩ := hd
      simp at h
    · simp [hc, hd]

namespace Lexeme

variable {l : Lexeme} {ls : List Lexeme} {before last? : Option Char} {rest s : List Char}

lemma Reads.of_dashes {p : List Char} (h : l.Reads d before p)
    (he : p = [] → l.Ends d ∧ l.text.getLast? ≠ some '-') (r : List Char) :
    l.Reads d before (p ++ '-' :: '-' :: r) := by
  cases h with
  | @bare c cs token? ho hlex =>
    refine .bare ?_ ?_
    -- an opener is one or two characters, and two dashes begin none with the character in front
    · cases hcs : cs ++ p with
      | nil =>
        obtain ⟨rfl, rfl⟩ := List.append_eq_nil_iff.1 hcs
        exact Dialect.opener?_cons_dashes (fun e => (he rfl).2 (by rw [e]; rfl)) ho r
      | cons a w =>
        rw [hcs] at ho
        rw [← ho, ← List.append_assoc, hcs]
        exact Dialect.opener?_congr rfl
    · rw [← List.append_assoc, Token.lexeme_append_dashes]
      exact hlex
  | literal hs =>
    refine .literal ?_
    -- only at the end of the literal do the dashes stand directly behind it
    cases p with
    | cons a p => exact hs
    | nil =>
      rcases (he rfl).1 with hb | hb
      · cases hb
      · have hk : Segment.Kind.literal ≠ .bare := by decide
        exact hb.congr_next (fun e => absurd e hk) (by decide) (by decide)
  | comment hs =>
    refine .comment ?_
    cases p with
    | cons a p => exact hs
    | nil =>
      rcases (he rfl).1 with hb | hb
      · cases hb
      · have hk : Segment.Kind.comment ≠ .bare := by decide
        exact hb.congr_next (fun e => absurd e hk) (by decide) (by decide)

/-! ### A run in front of more text -/

/-- Behind a text that ends with `last?` a new lexeme begins: nothing that goes on with a token
comes, or a comment that the text does not take part in. -/
def Halts (last? : Option Char) (s : List Char) : Prop :=
  (∀ y ∈ s.head?, Token.NoLonger none y) ∨ (last? ≠ some '-' ∧ ∃ r, s = '-' :: '-' :: r)

/-- **A run of lexemes stays as it is** where a new lexeme begins behind it. -/
theorem Reading.of_halts (h : Reading d [] before ls) (he : ∀ l ∈ ls.getLast?, l.Ends d)
    (hs : Halts (textOf ls).getLast? s) : Reading d s before ls := by
  rcases hs with hs | ⟨hlast, r, rfl⟩
  · cases s with
    | nil => exact h
    | cons y r => exact h.of_noLonger (hs y rfl) he
  -- only the last lexeme stands in front of the dashes
  · induction ls generalizing before with
    | nil => trivial
    | cons l ls ih =>
      have hl := h.1
      rw [List.append_nil] at hl
      refine ⟨hl.of_dashes (fun hnil => ?_) r, ih h.2 (fun k hk => he k ?_) ?_⟩
      · obtain rfl := (textOf_eq_nil_iff h.2).1 hnil
        rw [textOf_cons, textOf_nil, List.append_nil] at hlast
        exact ⟨he l rfl, hlast⟩
      · cases ls with
        | nil => cases hk
        | cons m ls => rwa [List.getLast?_cons_cons]
      · cases ls with
        | nil => exact nofun
        | cons m ls =>
          obtain ⟨a, as, hm⟩ := List.exists_cons_of_ne_nil h.2.1.text_ne_nil
          rw [textOf_cons, List.getLast?_append_of_ne_nil _ (by simp [hm])] at hlast
          exact hlast

/-- A run may stand behind any character that bars no question mark. -/
lemma Reading.congr_bars (h : Reading d rest none ls) (hb : Placeholder.bars before = false) :
    Reading d rest before ls := by
  have hn : ¬ (before = some '?' ∨ before = some ':') := by
    rw [← Placeholder.bars_iff, hb]
    exact Bool.false_ne_true
  obtain ⟨hq, hc⟩ := not_or.1 hn
  cases ls with
  | nil => trivial
  | cons l ls => exact ⟨h.1.congr_before (fun _ => by simp [hq, hc]) fun _ => by simp [hc], h.2⟩

/-! ### Runs with a mark between them -/

variable {lss : List (List Lexeme)} {c : Char}

lemma intercalate_cons {α : Type} (sep : α) (x : List α) (xs : List (List α)) :
    [sep].intercalate (x :: xs) = x ++ xs.flatMap (sep :: ·) := by
  induction xs generalizing x with
  | nil => simp
  | cons y xs ih =>
    have h : [sep].intercalate (x :: y :: xs) = x ++ sep :: [sep].intercalate (y :: xs) := rfl
    rw [h, ih]
    rfl

lemma mem_intercalate {α : Type} {sep a : α} {xs : List (List α)}
    (h : a ∈ [sep].intercalate xs) : a = sep ∨ ∃ x ∈ xs, a ∈ x := by
  cases xs with
  | nil => exact absurd h List.not_mem_nil
  | cons x xs =>
    rw [intercalate_cons] at h
    rcases List.mem_append.1 h with h | h
    · exact .inr ⟨x, List.mem_cons_self, h⟩
    · obtain ⟨y, hy, h⟩ := List.mem_flatMap.1 h
      rcases List.mem_cons.1 h with h | h
      · exact .inl h
      · exact .inr ⟨y, List.mem_cons_of_mem x hy, h⟩

/-- Texts with a mark between them, each made of parts. -/
lemma flatMap_intercalate {α β γ : Type} {f : α → List β} {sep : α} {c : β} (hsep : f sep = [c])
    {as : γ → List α} {bs : γ → List β} (h : ∀ x, (as x).flatMap f = bs x) (xs : List γ) :
    ([sep].intercalate (xs.map as)).flatMap f = [c].intercalate (xs.map bs) := by
  cases xs with
  | nil => rfl
  | cons x xs =>
    have hmarked : ∀ y, (sep :: as y).flatMap f = c :: bs y := fun y => by
      rw [List.flatMap_cons, hsep, h, List.singleton_append]
    rw [List.map_cons, List.map_cons, intercalate_cons, intercalate_cons, List.flatMap_append, h,
      List.flatMap_assoc, List.flatMap_map, List.flatMap_map]
    simp only [hmarked]

lemma textOf_intercalate {α : Type} {f : α → List Lexeme} {g : α → List Char}
    (h : ∀ a, textOf (f a) = g a) (c : Char) (as : List α) :
    textOf ([single c].intercalate (as.map f)) = [c].intercalate (as.map g) :=
  flatMap_intercalate (f := text) rfl h as

lemma maskOf_intercalate {α : Type} {f : α → List Lexeme} {g : α → List Char}
    (h : ∀ a, maskOf (f a) = g a) (c : Char) (as : List α) :
    maskOf ([single c].intercalate (as.map f)) = [c].intercalate (as.map g) :=
  flatMap_intercalate (f := mask) rfl h as

/-- Runs are read one after the other where each may stand in front of the mark between them. -/
lemma reading_intercalate (hb : Placeholder.bars (some c) = false)
    (hsep : ∀ ls ∈ lss, ∀ before s, (single c).Reads d before (textOf ls ++ s))
    (hrun : ∀ ls ∈ lss, ∀ before s, Placeholder.bars before = false →
      s.head? = some c ∨ s = rest → Reading d s before ls)
    (h : Placeholder.bars before = false) : Reading d rest before ([single c].intercalate lss) := by
  cases lss with
  | nil => trivial
  | cons ls lss =>
    rw [intercalate_cons]
    induction lss generalizing before ls with
    | nil =>
      rw [List.flatMap_nil, List.append_nil]
      exact hrun ls List.mem_cons_self before rest h (.inr rfl)
    | cons ms lss ih =>
      rw [List.flatMap_cons, reading_append]
      refine ⟨hrun ls List.mem_cons_self before _ h (.inl rfl), ?_, ?_⟩
      · have hms := hsep ms (by simp) (after before ls)
          (textOf (lss.flatMap (single c :: ·)) ++ rest)
        rwa [← List.append_assoc, ← textOf_append] at hms
      · exact ih hb ms (fun ks hk => hsep ks (List.mem_cons_of_mem ls hk))
          fun ks hk => hrun ks (List.mem_cons_of_mem ls hk)

end Lexeme

/-! ### Gaps -/

/-- A blank, or a comment that is over. -/
inductive GapPiece (d : Dialect) where
  | blank (c : Char) (hc : Head.isGap c)
  | line (body : List Char) (hb : '\n' ∉ body)
  | hash (body : List Char) (hd : d = .mysql) (hb : '\n' ∉ body)
  | block (body : List Char) (hb : ¬ ['*', '/'] <:+: body)

namespace GapPiece

/-- The piece as it is written: a comment up to the end of a line has the line feed with it. -/
def text : GapPiece d → List Char
  | blank c _ => [c]
  | line body _ => '-' :: '-' :: (body ++ ['\n'])
  | hash body _ _ => '#' :: (body ++ ['\n'])
  | block body _ => '/' :: '*' :: (body ++ ['*', '/'])

def lexemes : GapPiece d → List Lexeme
  | blank c _ => [⟨.bare, none, [c]⟩]
  | line body _ => [⟨.comment, none, '-' :: '-' :: body⟩, ⟨.bare, none, ['\n']⟩]
  | hash body _ _ => [⟨.comment, none, '#' :: body⟩, ⟨.bare, none, ['\n']⟩]
  | block body _ => [⟨.comment, none, '/' :: '*' :: (body ++ ['*', '/'])⟩]

lemma textOf_lexemes (p : GapPiece d) : Lexeme.textOf p.lexemes = p.text := by
  cases p <;> simp [lexemes, text]

lemma text_ne_nil (p : GapPiece d) : p.text ≠ [] := by
  cases p <;> exact List.cons_ne_nil _ _

lemma token?_of_mem_lexemes (p : GapPiece d) {l : Lexeme} (hl : l ∈ p.lexemes) :
    l.token? = none := by
  cases p with
  | blank => rw [List.mem_singleton.1 hl]
  | line => rcases List.mem_pair.1 hl with rfl | rfl <;> rfl
  | hash => rcases List.mem_pair.1 hl with rfl | rfl <;> rfl
  | block => rw [List.mem_singleton.1 hl]

/-- A piece is read wherever it stands. -/
lemma reading (p : GapPiece d) (before : Option Char) (rest : List Char) :
    Lexeme.Reading d rest before p.lexemes := by
  have hfeed : ∀ before, (Lexeme.mk .bare none ['\n']).Reads d before rest := fun before =>
    Lexeme.reads_of_isBlank (by decide) before rest
  cases p with
  | blank c hc => exact ⟨Lexeme.reads_of_isBlank (Lexeme.isBlank_of_isGap hc) _ _, trivial⟩
  | line body hb =>
    refine ⟨.comment (.line (.dashes body) ?_ ?_), hfeed _, trivial⟩
    · simpa using hb
    · exact fun x hx => (Option.some.inj hx).symm
  | hash body hd hb =>
    refine ⟨.comment (.line (.hash body hd) ?_ ?_), hfeed _, trivial⟩
    · simpa using hb
    · exact fun x hx => (Option.some.inj hx).symm
  | block body hb => exact ⟨.comment (.closedBlock hb), trivial⟩

lemma bars_after (p : GapPiece d) (before : Option Char) :
    Placeholder.bars (Lexeme.after before p.lexemes) = false := by
  have hblank : ∀ c, Head.isGap c → Placeholder.bars (some c) = false := by
    intro c hc
    simp only [Head.isGap, Bool.or_eq_true, beq_iff_eq] at hc
    rcases hc with ((rfl | rfl) | rfl) | rfl <;> decide
  cases p with
  | blank c hc => exact hblank c hc
  | line => exact hblank '\n' rfl
  | hash => exact hblank '\n' rfl
  | block => rfl

/-- With its comments blanked out, a piece is a gap of a head. -/
lemma isGap_of_mem_maskOf (p : GapPiece d) {c : Char} (hc : c ∈ Lexeme.maskOf p.lexemes) :
    Head.isGap c := by
  have hmask : ∀ text : List Char, ∀ c ∈ (Lexeme.mk .comment none text).mask, Head.isGap c := by
    intro text c hc
    rw [Lexeme.mask, if_pos rfl] at hc
    rw [List.eq_of_mem_replicate hc]
    rfl
  obtain ⟨l, hl, hc⟩ := List.mem_flatMap.1 hc
  cases p with
  | blank e he =>
    obtain rfl := List.mem_singleton.1 hl
    obtain rfl := List.mem_singleton.1 hc
    exact he
  | line =>
    rcases List.mem_pair.1 hl with rfl | rfl
    · exact hmask _ c hc
    · obtain rfl := List.mem_singleton.1 hc
      rfl
  | hash =>
    rcases List.mem_pair.1 hl with rfl | rfl
    · exact hmask _ c hc
    · obtain rfl := List.mem_singleton.1 hc
      rfl
  | block =>
    obtain rfl := List.mem_singleton.1 hl
    exact hmask _ c hc

/-- What a piece begins with: a character that goes on with nothing, or two dashes. -/
lemma head?_text (p : GapPiece d) : (∃ c r, p.text = c :: r ∧ ∀ x, Token.NoLonger x c) ∨
    ∃ r, p.text = '-' :: '-' :: r := by
  have hmark : ∀ c ∈ [' ', '\t', '\r', '\n', '#', '/'], ∀ x, Token.NoLonger x c :=
    fun _ hc => Token.noLonger_of_all (by decide) hc
  cases p with
  | blank c hc =>
    refine .inl ⟨c, [], rfl, hmark c ?_⟩
    simp only [Head.isGap, Bool.or_eq_true, beq_iff_eq] at hc
    rcases hc with ((rfl | rfl) | rfl) | rfl <;> decide
  | line body _ => exact .inr ⟨_, rfl⟩
  | hash body _ _ => exact .inl ⟨'#', _, rfl, hmark '#' (by decide)⟩
  | block body _ => exact .inl ⟨'/', _, rfl, hmark '/' (by decide)⟩

end GapPiece

/-- What may be written between two tokens. -/
abbrev Gap (d : Dialect) := List (GapPiece d)

namespace Gap

open Lexeme

variable (g : Gap d)

/-- The gap as it is written. -/
def text : List Char := g.flatMap GapPiece.text

def lexemes : List Lexeme := g.flatMap GapPiece.lexemes

variable {g}

lemma textOf_lexemes (g : Gap d) : textOf (lexemes g) = text g := by
  induction g with
  | nil => rfl
  | cons p g ih =>
    rw [lexemes, List.flatMap_cons, textOf_append, p.textOf_lexemes]
    exact congrArg (p.text ++ ·) ih

lemma token?_of_mem_lexemes {l : Lexeme} (hl : l ∈ lexemes g) : l.token? = none := by
  obtain ⟨p, -, hl⟩ := List.mem_flatMap.1 hl
  exact p.token?_of_mem_lexemes hl

@[simp] lemma tokens_lexemes (pos : Nat) (g : Gap d) : tokens pos (lexemes g) = [] :=
  tokens_eq_nil_iff.2 fun _ => token?_of_mem_lexemes

/-- **A gap is read wherever it stands.** -/
theorem reading (g : Gap d) (before : Option Char) (rest : List Char) :
    Reading d rest before (lexemes g) := by
  induction g generalizing before with
  | nil => trivial
  | cons p g ih => exact reading_append.2 ⟨p.reading _ _, ih _⟩

lemma bars_after (g : Gap d) {before : Option Char} (hb : Placeholder.bars before = false) :
    Placeholder.bars (after before (lexemes g)) = false := by
  induction g generalizing before with
  | nil => exact hb
  | cons p g ih =>
    rw [lexemes, List.flatMap_cons, after_append]
    exact ih (p.bars_after before)

lemma bars_after_of_ne_nil (hg : g ≠ []) (before : Option Char) :
    Placeholder.bars (after before (lexemes g)) = false := by
  obtain ⟨p, g, rfl⟩ := List.exists_cons_of_ne_nil hg
  rw [lexemes, List.flatMap_cons, after_append]
  exact bars_after g (p.bars_after before)

lemma isGap_of_mem_maskOf {c : Char} (hc : c ∈ maskOf (lexemes g)) : Head.isGap c := by
  obtain ⟨l, hl, hc⟩ := List.mem_flatMap.1 hc
  obtain ⟨p, -, hl⟩ := List.mem_flatMap.1 hl
  exact p.isGap_of_mem_maskOf (List.mem_flatMap.2 ⟨l, hl, hc⟩)

lemma maskOf_ne_nil (hg : g ≠ []) : maskOf (lexemes g) ≠ [] := by
  intro e
  obtain ⟨p, g, rfl⟩ := List.exists_cons_of_ne_nil hg
  have hw := width_maskOf (lexemes (p :: g))
  rw [e, textOf_lexemes, text, List.flatMap_cons, Text.width_append] at hw
  have := Text.width_pos p.text_ne_nil
  rw [Text.width_nil] at hw
  omega

/-- A gap goes on with no word and opens no quoted text. -/
lemma forall_head?_text (g : Gap d) {p : Char → Prop} {s : List Char} (hd : p '-')
    (hp : ∀ c, (∀ x, Token.NoLonger x c) → p c) (hs : ∀ c ∈ s.head?, p c) :
    ∀ c ∈ (text g ++ s).head?, p c := by
  cases g with
  | nil => exact hs
  | cons q g =>
    rw [text, List.flatMap_cons, List.append_assoc]
    rcases q.head?_text with ⟨e, r, he, hn⟩ | ⟨r, he⟩
    · exact Text.forall_head? (by rw [he]; rfl) (hp e hn)
    · exact Text.forall_head? (by rw [he]; rfl) hd

/-- Behind a run a gap begins a new lexeme, unless two dashes come together. -/
lemma halts (g : Gap d) {last? : Option Char} {s : List Char}
    (hd : last? = some '-' → (text g).head? ≠ some '-')
    (hs : ∀ y ∈ s.head?, Token.NoLonger none y) : Halts last? (text g ++ s) := by
  cases g with
  | nil => exact .inl hs
  | cons p g =>
    rw [text, List.flatMap_cons] at hd ⊢
    rcases p.head?_text with ⟨c, r, hc, hn⟩ | ⟨r, hr⟩
    · exact .inl (Text.forall_head? (by rw [hc]; rfl) (hn none))
    · refine .inr ⟨fun e => hd e (by rw [hr]; rfl), ?_⟩
      rw [hr]
      exact ⟨_, rfl⟩

end Gap

end QueryGuard
