import QueryGuard.Proofs.Sql.Marks
import QueryGuard.Suggestion.Template

/-!
The positional form of a text. Every placeholder becomes a question mark, and one that stands right
behind another, or behind a question mark or a colon, is lost. The placeholders that are kept are
counted part by part.
-/

namespace QueryGuard

variable {d : Dialect}

def Token.isHolder (u : Token) : Bool := u.kind == .placeholder

lemma Token.filterMap_placeholder? (ts : List Token) : ts.filterMap placeholder? =
    (ts.filter isHolder).map fun u => (style u.text, u.start) := by
  induction ts with
  | nil => rfl
  | cons u ts ih =>
    rw [List.filterMap_cons, List.filter_cons, placeholder?, isHolder]
    by_cases hk : u.kind = .placeholder <;> simp [hk, ih]

namespace Lexeme

variable {l : Lexeme} {ls xs ys : List Lexeme} {before before' : Option Char} {rest : List Char}
  {pos : Nat} {b : Bool}

/-- A question mark right behind the lexeme is no placeholder, also once it is a question mark. -/
def bars (l : Lexeme) : Bool := l.isPlaceholder || l.text == ['?'] || l.text == [':']

/-- How many placeholders are kept, where the first lexeme stands right behind such a one or not. -/
def loose (barred : Bool) : List Lexeme → Nat
  | [] => 0
  | l :: ls => (if l.isPlaceholder && !barred then 1 else 0) + loose l.bars ls

def barsAfter (barred : Bool) (ls : List Lexeme) : Bool := (ls.getLast?.map bars).getD barred

lemma barsAfter_cons (b : Bool) (l : Lexeme) (ls : List Lexeme) :
    barsAfter b (l :: ls) = barsAfter l.bars ls := by
  rw [barsAfter, barsAfter, List.getLast?_cons]
  cases ls.getLast? <;> rfl

lemma loose_append (b : Bool) (xs ys : List Lexeme) :
    loose b (xs ++ ys) = loose b xs + loose (barsAfter b xs) ys := by
  induction xs generalizing b with
  | nil => exact (Nat.zero_add _).symm
  | cons l ls ih =>
    rw [List.cons_append, loose, loose, ih, barsAfter_cons, Nat.add_assoc]

lemma loose_eq_zero (h : ∀ l ∈ ls, l.isPlaceholder = false) (b : Bool) : loose b ls = 0 := by
  induction ls generalizing b with
  | nil => rfl
  | cons l ls ih =>
    rw [loose, h l List.mem_cons_self, ih (fun k hk => h k (List.mem_cons_of_mem l hk))]
    rfl

/-- It does not matter what stands in front of a lexeme that is no placeholder. -/
lemma loose_congr (h : ∀ l ∈ ls.head?, l.isPlaceholder = false) (b b' : Bool) :
    loose b ls = loose b' ls := by
  cases ls with
  | nil => rfl
  | cons l ls => rw [loose, loose, h l rfl, Bool.false_and, Bool.false_and]

lemma any_isHolder (pos : Nat) (l : Lexeme) :
    (l.tokenAt pos).any Token.isHolder = l.isPlaceholder := by
  rw [tokenAt, isPlaceholder]
  cases l.token? <;> rfl

lemma any_bars (h : l.Reads d before rest) (pos : Nat) :
    (l.tokenAt pos).any (Token.bars Token.isHolder) = l.bars := by
  rw [bars, ← any_isHolder pos]
  cases ht : l.tokenAt pos with
  | some t =>
    obtain ⟨kind, -, rfl⟩ := Option.map_eq_some_iff.1 ht
    rfl
  | none =>
    have hk : l.token? = none := Option.map_eq_none_iff.1 ht
    have hq : l.text ≠ ['?'] := fun e => by
      rw [h.eq_mark (by rw [e]; rfl)] at hk
      cases hk
    have hc : l.text ≠ [':'] := fun e => by
      rw [h.token?_colon e] at hk
      cases hk
    simp [hq, hc]

/-- What bars the next question mark does so once the placeholders are question marks. -/
lemma Reading.barsAfter_of_after (h : Reading d rest before ls)
    (hb : Placeholder.bars before → b = true) :
    Placeholder.bars (after before ls) → barsAfter b ls = true := by
  induction ls generalizing before b with
  | nil => exact hb
  | cons l ls ih =>
    rw [after, barsAfter_cons]
    refine ih h.2 fun hl => ?_
    rcases h.1.bars_last?.1 hl with e | e
    · simp [bars, e]
    · simp [bars, e]

lemma length_kept (h : Reading d rest before ls) (b : Bool) (pos : Nat) :
    (kept Token.isHolder b pos ls).length = loose b ls := by
  induction ls generalizing before b pos with
  | nil => rfl
  | cons l ls ih =>
    rw [kept, List.length_append, any_bars h.1, ih h.2, loose]
    congr 1
    cases b with
    | true => rw [Bool.not_true, Bool.and_false]; rfl
    | false =>
      rw [← any_isHolder pos]
      cases l.tokenAt pos with
      | none => rfl
      | some t =>
        rw [Option.toList_some, Option.any_some, List.filter_singleton]
        cases t.isHolder <;> rfl

lemma kept_append (h : Reading d rest before (xs ++ ys)) (b : Bool) (pos : Nat) :
    kept Token.isHolder b pos (xs ++ ys) = kept Token.isHolder b pos xs ++
      kept Token.isHolder (barsAfter b xs) (pos + Text.width (textOf xs)) ys := by
  induction xs generalizing before b pos with
  | nil => rfl
  | cons l ls ih =>
    rw [List.cons_append, kept, kept, ih h.2, any_bars h.1, barsAfter_cons, textOf_cons,
      Text.width_append, List.append_assoc, Nat.add_assoc]

/-- What is kept of lexemes stands where they stand. -/
lemma mem_tokens_of_mem_kept {sel : Token → Bool} {u : Token} (h : u ∈ kept sel b pos ls) :
    u ∈ tokens pos ls := by
  induction ls generalizing b pos with
  | nil => exact absurd h List.not_mem_nil
  | cons l ls ih =>
    rw [kept] at h
    rw [tokens_cons]
    rcases List.mem_append.1 h with h | h
    · refine List.mem_append_left _ ?_
      split at h
      · exact absurd h List.not_mem_nil
      · exact (List.mem_filter.1 h).1
    · exact List.mem_append_right _ (ih h)

/-- How a placeholder is written. -/
lemma Reads.text_of_isPlaceholder (h : l.Reads d before rest) (hp : l.isPlaceholder) :
    l.text = ['?'] ∨ ∃ name, l.text = ':' :: name := by
  rw [isPlaceholder, beq_iff_eq] at hp
  cases h with
  | @bare c cs token? ho hlex =>
    obtain rfl : token? = some .placeholder := hp
    have hat := Token.at?_eq_lexeme before c (cs ++ rest)
    rw [hlex, if_pos rfl] at hat
    cases hs : Token.style (c :: (cs ++ rest).take cs.length) with
    | positional =>
      rw [hs] at hat
      obtain ⟨rfl, hb⟩ := Token.at?_eq_positional_iff.1 hat
      have hm := Reads.eq_mark (d := d) (.bare ho hlex) rfl
      exact .inl (congrArg Lexeme.text hm)
    | named name =>
      rw [hs] at hat
      obtain ⟨⟨rfl, -⟩, -⟩ := Token.at?_eq_named_iff.1 hat
      exact .inr ⟨cs, rfl⟩
  | literal =>
    have ht := Option.some.inj hp
    unfold Token.literalKind at ht
    split at ht <;> cases ht
  | comment => cases hp

end Lexeme

/-! ### The positional form as marks -/

namespace SqlText

variable {t : SqlText} {ls : List Lexeme}

lemma selects_isHolder (t : SqlText) : t.Selects Token.isHolder :=
  ⟨fun _ _ hk => beq_iff_eq.2 hk, fun _ _ hk => by rw [Token.isHolder, hk]; rfl⟩

/-- The text with `?` for every named placeholder. -/
def positional (t : SqlText) : SqlText := ⟨t.dialect, t.positionalText⟩

lemma text_of_placeholder {u : Token} (hu : u ∈ t.tokens) (hk : u.kind = .placeholder) :
    u.text = ['?'] ∨ ∃ name, u.text = ':' :: name := by
  obtain ⟨ls, h⟩ := t.exists_readAs
  rw [h.tokens] at hu
  obtain ⟨l, hl, hkind, htext⟩ := Lexeme.exists_lexeme_of_mem_tokens hu
  obtain ⟨as, bs, rfl⟩ := List.append_of_mem hl
  have hread := (Lexeme.reading_append.1 h.reading).2.1
  rw [← htext]
  exact hread.text_of_isPlaceholder (by rw [Lexeme.isPlaceholder, hkind, hk]; rfl)

lemma text_style {u : Token} (hu : u ∈ t.tokens) (hk : u.kind = .placeholder) (n m : Nat) :
    (Placeholder.text ⟨Token.style u.text, n, m⟩).toList = u.text := by
  rcases text_of_placeholder hu hk with e | ⟨name, e⟩
  · have hq : "?".toList = ['?'] := by decide +kernel
    rw [e]
    exact hq
  · rw [e]
    show (":" ++ String.ofList name).toList = _
    simp

/-- The edit that puts a question mark in the place of a placeholder. -/
def holderEdit (x : Placeholder.Style × Nat) : Edit :=
  .replace (Placeholder.span ⟨x.1, 0, x.2⟩) "?"

lemma markEdit_eq {u : Token} (hu : u ∈ t.tokens) (hk : u.kind = .placeholder) :
    u.markEdit = holderEdit (Token.style u.text, u.start) := by
  rw [holderEdit, Placeholder.span, text_style hu hk]
  rfl

/-- Edits at placeholders are marks. -/
lemma map_holderEdit (sel : Placeholder.Style → Bool) {ts : List Token} (hts : ts ⊆ t.tokens) :
    ((ts.filterMap Token.placeholder?).filter fun x => sel x.1).map holderEdit =
      (ts.filter fun u => u.isHolder && sel (Token.style u.text)).map Token.markEdit := by
  rw [Token.filterMap_placeholder?, List.filter_map, List.map_map, List.filter_filter]
  have hcomm : ∀ u : Token, (((fun x : Placeholder.Style × Nat => sel x.1) ∘
      fun u : Token => (Token.style u.text, u.start)) u && u.isHolder) =
        (u.isHolder && sel (Token.style u.text)) := fun u => Bool.and_comm _ _
  rw [List.filter_congr fun u _ => hcomm u]
  refine List.map_congr_left fun u hu => ?_
  obtain ⟨hu, hs⟩ := List.mem_filter.1 hu
  exact (markEdit_eq (hts hu) (beq_iff_eq.1 (Bool.and_eq_true_iff.1 hs).1)).symm

/-- Question marks are all the same, so it does not matter whether one is replaced. -/
lemma textOf_marked_congr {sel sel' : Token → Bool} {pos : Nat} {before before' : Option Char}
    (h : ∀ u ∈ Lexeme.tokens pos ls, sel u = sel' u ∨ u.text = ['?']) :
    Lexeme.textOf (Lexeme.marked sel pos before ls) =
      Lexeme.textOf (Lexeme.marked sel' pos before' ls) := by
  induction ls generalizing pos before before' with
  | nil => rfl
  | cons l ls ih =>
    have hl : (Lexeme.markAt sel pos before l).text = (Lexeme.markAt sel' pos before' l).text := by
      unfold Lexeme.markAt
      cases ht : l.tokenAt pos with
      | none => rfl
      | some u =>
        rw [Option.any_some, Option.any_some]
        -- where the choices differ a question mark is put in the place of a question mark
        rcases h u (Lexeme.mem_tokens_head ht) with e | e
        · rw [e]
          split
          · rfl
          · rfl
        · obtain ⟨kind, -, rfl⟩ := Option.map_eq_some_iff.1 ht
          have e : l.text = ['?'] := e
          split
          · split
            · rfl
            · exact e.symm
          · split
            · exact e
            · rfl
    rw [Lexeme.marked, Lexeme.marked, Lexeme.textOf_cons, Lexeme.textOf_cons, hl,
      ih fun u hu => h u (List.mem_append_right _ hu)]

/-- **The positional form has marks in the place of the placeholders.** -/
theorem positional_eq_withMarks (t : SqlText) : t.positional = t.withMarks Token.isHolder := by
  obtain ⟨ls, h⟩ := t.exists_readAs
  let named (s : Placeholder.Style) : Bool := s != .positional
  have hedits : (t.placeholders.filter (·.isNamed)).map (fun p => Edit.replace p.span "?") =
      (t.tokens.filter fun u => u.isHolder && named (Token.style u.text)).map Token.markEdit := by
    rw [← map_holderEdit named (List.Subset.refl _), ← map_style_offset, List.filter_map,
      List.map_map]
    have hnamed : (fun p : Placeholder => p.isNamed) =
        (fun x : Placeholder.Style × Nat => named x.1) ∘ fun p => (p.style, p.offset) := by
      funext p
      show p.isNamed = (p.style != .positional)
      rw [Placeholder.isNamed, Placeholder.name?]
      cases p.style <;> rfl
    rw [hnamed]
    rfl
  -- marking the named placeholders alone is marking all, as the others are question marks
  have hchars : t.positionalText =
      (t.withMarks fun u => u.isHolder && named (Token.style u.text)).chars := by
    rw [positionalText, hedits]
    rfl
  have hcongr : ∀ u ∈ Lexeme.tokens 0 ls,
      (u.isHolder && named (Token.style u.text)) = u.isHolder ∨ u.text = ['?'] := by
    intro u hu
    rw [← h.tokens] at hu
    by_cases hk : u.kind = .placeholder
    · rcases text_of_placeholder hu hk with e | ⟨name, e⟩
      · exact .inr e
      · have hn : named (Token.style u.text) = true := by rw [e]; rfl
        exact .inl (by rw [hn, Bool.and_true])
    · have hh : u.isHolder = false := beq_eq_false_iff_ne.2 hk
      exact .inl (by rw [hh, Bool.false_and])
  show (⟨t.dialect, t.positionalText⟩ : SqlText) = ⟨t.dialect, (t.withMarks Token.isHolder).chars⟩
  rw [hchars, h.chars_withMarks, h.chars_withMarks, textOf_marked_congr hcongr]

/-- The text with `?` for every placeholder is the same. -/
theorem allPositional_eq {a : Analysis} (h : a.placeholders = a.text.placeholders) :
    a.allPositional = a.text.positionalText := by
  have hedits : a.placeholders.map (fun p => Edit.replace p.span "?") =
      (a.text.tokens.filter Token.isHolder).map Token.markEdit := by
    have e := map_holderEdit (t := a.text) (fun _ => true) (List.Subset.refl _)
    rw [List.filter_true, ← map_style_offset, List.map_map] at e
    simp only [Bool.and_true] at e
    rw [h, ← e]
    rfl
  have hpos := congrArg SqlText.chars (positional_eq_withMarks a.text)
  rw [Analysis.allPositional, hedits]
  exact hpos.symm

/-! ### How many placeholders are kept -/

/-- **The positional form has the placeholders that are kept.** -/
theorem length_placeholders_positional (t : SqlText) :
    t.positional.placeholders.length = (t.kept Token.isHolder).length := by
  rw [positional_eq_withMarks, length_placeholders_withMarks t.selects_isHolder]

lemma ReadAs.length_kept (h : t.ReadAs ls) :
    (t.kept Token.isHolder).length = Lexeme.loose false ls := by
  rw [h.kept, Lexeme.length_kept h.reading]

lemma length_filter_isHolder (t : SqlText) :
    (t.tokens.filter Token.isHolder).length = t.placeholders.length := by
  rw [length_placeholders, List.countP_eq_length_filter]
  rfl

lemma length_positional_le (t : SqlText) :
    t.positional.placeholders.length ≤ t.placeholders.length := by
  rw [length_placeholders_positional, ← length_filter_isHolder, kept_eq_filter]
  exact List.length_filter_le _ _

end SqlText

end QueryGuard
