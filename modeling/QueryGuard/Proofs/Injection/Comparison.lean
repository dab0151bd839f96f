import QueryGuard.Proofs.Injection.Search

/-!
One comparison behind a quote and `OR`, as it is written at the end of a text: with white space or
without, its sides bare or in quotes. Main statement: the search finds this comparison and nothing
else, so the check applies to the text exactly when the comparison always holds.
-/

namespace QueryGuard.Injection

open Text (Reader)

/-! ### As it is written -/

/-- A side of a comparison: word characters, bare or behind a quote that may be closed. -/
inductive Side where
  | bare (run : List Char) (run_ne : run ≠ []) (isWordPart : ∀ c ∈ run, Text.isWordPart c)
  | quoted (opening : Char) (run : List Char) (closing : Option Char)
    (isQuote_opening : isQuote opening) (isWordPart : ∀ c ∈ run, Text.isWordPart c)
    (isQuote_closing : ∀ q ∈ closing, isQuote q)

namespace Side

/-- The word characters of the side. -/
def run : Side → List Char
  | bare run _ _ => run
  | quoted _ run _ _ _ _ => run

/-- The side as it is written. -/
def text : Side → List Char
  | bare run _ _ => run
  | quoted opening run closing _ _ _ => opening :: (run ++ closing.toList)

/-- No quote of the side is left open. -/
def IsClosed : Side → Prop
  | bare _ _ _ => True
  | quoted _ _ closing _ _ _ => closing.isSome

end Side

/-- A sign between the two sides. -/
inductive Sign where
  | equals
  | lessGreater
  | bangEquals
  deriving DecidableEq, Repr

namespace Sign

/-- The sign as it is written. -/
def text : Sign → List Char
  | equals => ['=']
  | lessGreater => ['<', '>']
  | bangEquals => ['!', '=']

/-- How the sides are compared. -/
def comparator : Sign → Comparator
  | equals => .equal
  | _ => .different

end Sign

/-- A text that ends in a quote, `OR` and one comparison, and has no quote before. -/
structure ComparisonForm where
  front : List Char
  quote : Char
  beforeOr : List Char
  or : List Char
  afterOr : List Char
  left : Side
  beforeSign : List Char
  sign : Sign
  afterSign : List Char
  right : Side
  front_free : ∀ c ∈ front, isQuote c = false
  isQuote_quote : isQuote quote
  isBlank_beforeOr : ∀ c ∈ beforeOr, Text.isBlank c
  spells_or : Spells "or" or
  isGap_afterOr : IsGap afterOr
  isClosed_left : left.IsClosed
  isBlank_beforeSign : ∀ c ∈ beforeSign, Text.isBlank c
  isBlank_afterSign : ∀ c ∈ afterSign, Text.isBlank c

namespace ComparisonForm

variable (f : ComparisonForm)

/-- The sign with the right side. -/
def tail : List Char := f.beforeSign ++ (f.sign.text ++ (f.afterSign ++ f.right.text))

/-- What stands behind the quote. -/
def body : List Char := f.beforeOr ++ (f.or ++ (f.afterOr ++ (f.left.text ++ f.tail)))

/-- The text as it is written. -/
def text : List Char := f.front ++ f.quote :: f.body

end ComparisonForm

/-! ### Its parts are read -/

variable {taken run cs rest left right : List Char} {op : Comparator}

/-- A quote is neither a word character nor white space. -/
lemma class_of_isQuote {c : Char} (h : isQuote c) :
    Text.isWordPart c = false ∧ Text.isBlank c = false := by
  rw [isQuote, Bool.or_eq_true, beq_iff_eq, beq_iff_eq] at h
  rcases h with rfl | rfl
  · decide
  · decide

lemma isWordPart_of_isQuote {c : Char} (h : isQuote c) : Text.isWordPart c = false :=
  (class_of_isQuote h).1

lemma isQuote_of_isWordPart {c : Char} (h : Text.isWordPart c) : isQuote c = false := by
  by_contra hq
  rw [isWordPart_of_isQuote (by simpa using hq)] at h
  cases h

/-- A side begins with a quote or a word character, so with no white space and no parenthesis. -/
lemma Side.head?_text (s : Side) (rest : List Char) :
    ∀ c ∈ (s.text ++ rest).head?, Text.isBlank c = false ∧ c ≠ '(' := by
  cases s with
  | bare run hne hrun =>
    refine forall_head?_append hne fun c hc => ⟨isBlank_of_isWordPart (hrun c hc), ?_⟩
    rintro rfl
    exact absurd (hrun _ hc) (by decide)
  | quoted opening run closing ho =>
    intro c hc
    obtain rfl : opening = c := Option.some.inj hc
    exact ⟨(class_of_isQuote ho).2, fun e => absurd (e ▸ ho) (by decide)⟩

/-- No word goes on in the sign. -/
lemma Sign.endsWord (s : Sign) {gap : List Char} (hg : ∀ c ∈ gap, Text.isBlank c)
    (rest : List Char) : EndsWord (gap ++ (s.text ++ rest)) := by
  intro c hc
  cases gap with
  | nil =>
    cases s with
    | equals => cases hc; decide
    | lessGreater => cases hc; decide
    | bangEquals => cases hc; decide
  | cons x gap =>
    obtain rfl : x = c := Option.some.inj hc
    exact isWordPart_of_isBlank (hg x List.mem_cons_self)

lemma takeWhile_append (hrun : ∀ c ∈ run, Text.isWordPart c) (hr : EndsWord rest) :
    Reader.takeWhile Text.isWordPart (run ++ rest) = some (run, rest) := by
  have htake := Text.takeWhile_append_of_forall hrun hr
  have hsplit : run ++ (run ++ rest).dropWhile Text.isWordPart = run ++ rest := by
    conv_rhs => rw [← List.takeWhile_append_dropWhile (p := Text.isWordPart) (l := run ++ rest)]
    rw [htake]
  rw [Reader.takeWhile, htake, List.append_cancel_left hsplit]

lemma satisfy_cons {p : Char → Bool} {c : Char} (h : p c) (cs : List Char) :
    Reader.satisfy p (c :: cs) = some (c, cs) := if_pos h

lemma satisfy_isQuote_of_isWordPart {c : Char} (h : Text.isWordPart c) (cs : List Char) :
    Reader.satisfy isQuote (c :: cs) = none := if_neg (by rw [isQuote_of_isWordPart h]; decide)

lemma Side.rightSide_text (s : Side) : rightSide s.text = some (s.run, []) := by
  cases s with
  | bare run hne hrun =>
    obtain ⟨c, cs, rfl⟩ := List.exists_cons_of_ne_nil hne
    have hnone := satisfy_isQuote_of_isWordPart (hrun c List.mem_cons_self) cs
    refine (orElse_of_none (bind_of_none hnone)).trans ?_
    show Reader.takeWhile1 Text.isWordPart (c :: cs) = some (c :: cs, [])
    rw [Reader.takeWhile1, List.takeWhile_eq_self_iff.2 hrun, List.dropWhile_eq_nil_iff.2 hrun]
  | quoted opening run closing ho hrun hc =>
    have hends : EndsWord closing.toList := by
      intro c h
      cases closing with
      | none => cases h
      | some q => exact isWordPart_of_isQuote (hc c h)
    have hclose : Reader.optional (Reader.satisfy isQuote) closing.toList = some (closing, []) := by
      cases closing with
      | none => rfl
      | some q => rw [Reader.optional, Option.toList_some, satisfy_cons (hc q rfl)]
    refine orElse_of_some ((bind_of_some (satisfy_cons ho _)).trans ?_)
    exact (bind_of_some (takeWhile_append hrun hends)).trans (bind_of_some hclose)

lemma Sign.comparator_append (s : Sign) (rest : List Char) :
    Injection.comparator (s.text ++ rest) = some (s.comparator, rest) := by
  cases s <;> rfl

/-- A sign begins with no white space. -/
lemma Sign.head?_text (s : Sign) (rest : List Char) :
    ∀ c ∈ (s.text ++ rest).head?, Text.isBlank c = false := by
  intro c hc
  cases s with
  | equals => cases hc; decide
  | lessGreater => cases hc; decide
  | bangEquals => cases hc; decide

namespace ComparisonForm

variable (f : ComparisonForm)

lemma comparison_tail : comparison f.tail = some ((f.sign.comparator, f.right.run), []) := by
  have hright : ∀ c ∈ f.right.text.head?, Text.isBlank c = false := fun c hc =>
    (f.right.head?_text [] c (by rwa [List.append_nil])).1
  refine (bind_of_some (blanks_append f.isBlank_beforeSign (f.sign.head?_text _))).trans ?_
  refine (bind_of_some (f.sign.comparator_append _)).trans ?_
  refine (bind_of_some (blanks_append f.isBlank_afterSign hright)).trans ?_
  exact bind_of_some f.right.rightSide_text

end ComparisonForm

/-- The longest run of word characters is tried first, and it is the left side if a comparison
follows it. -/
lemma bareComparison_append (hne : run ≠ []) (hrun : ∀ c ∈ run, Text.isWordPart c)
    (hr : EndsWord rest) (h : comparison rest = some ((op, right), left)) :
    bareComparison taken (run ++ rest) =
      some (.comparison (taken.reverse ++ run) op right, left) := by
  induction run generalizing taken with
  | nil => exact absurd rfl hne
  | cons c run ih =>
    rw [List.cons_append, bareComparison, if_pos (hrun c List.mem_cons_self)]
    cases run with
    | nil =>
      have hstop : bareComparison (c :: taken) rest = none := by
        cases rest with
        | nil => rfl
        | cons x rest => rw [bareComparison, hr x rfl]; rfl
      rw [List.nil_append, hstop, h, List.reverse_cons]
    | cons x run =>
      have hmore : bareComparison (c :: taken) (x :: run ++ rest) =
          some (.comparison ((c :: taken).reverse ++ x :: run) op right, left) :=
        ih (List.cons_ne_nil x run) fun y hy => hrun y (List.mem_cons_of_mem c hy)
      rw [hmore, List.reverse_cons, List.append_assoc]
      rfl

lemma blanksAround_append {c : Char} (hcs : ∀ x ∈ cs, Text.isBlank x)
    (hr : ∀ x ∈ rest.head?, Text.isBlank x = false ∧ x ≠ c) :
    blanksAround c (cs ++ rest) = some ((), rest) := by
  have hblank : ∀ x ∈ rest.head?, Text.isBlank x = false := fun x hx => (hr x hx).1
  have hmark : Reader.optional (Reader.char c) rest = some (none, rest) := by
    cases rest with
    | nil => rfl
    | cons x rest => rw [Reader.optional, Reader.char, if_neg (hr x rfl).2]
  have hnone : blanks ([] ++ rest) = some ((), rest) := blanks_append (List.forall_mem_nil _) hblank
  exact (bind_of_some (blanks_append hcs hblank)).trans ((bind_of_some hmark).trans hnone)

/-! ### The text is read -/

namespace ComparisonForm

variable (f : ComparisonForm)

/-- The comparison that the text shows. -/
def condition : Condition := .comparison f.left.run f.sign.comparator f.right.run

lemma endsWord_tail : EndsWord f.tail := f.sign.endsWord f.isBlank_beforeSign _

lemma quotedComparison_left {opening closing : Char} {run : List Char} (ho : isQuote opening)
    (hrun : ∀ c ∈ run, Text.isWordPart c) (hc : isQuote closing) :
    quotedComparison (opening :: (run ++ closing :: f.tail)) =
      some (.comparison run f.sign.comparator f.right.run, []) := by
  have hends : EndsWord (closing :: f.tail) := fun c h =>
    isWordPart_of_isQuote (Option.some.inj h ▸ hc)
  refine (bind_of_some (satisfy_cons ho _)).trans ?_
  refine (bind_of_some (takeWhile_append hrun hends)).trans ?_
  exact (bind_of_some (satisfy_cons hc _)).trans (bind_of_some f.comparison_tail)

/-- Both kinds of left sides are read to their end. -/
lemma orElse_left {q : Reader Condition} :
    Reader.orElse (Reader.orElse quotedComparison (bareComparison [])) q (f.left.text ++ f.tail) =
      some (f.condition, []) := by
  have hclosed := f.isClosed_left
  rw [condition]
  cases hl : f.left with
  | bare run hne hrun =>
    obtain ⟨c, cs, rfl⟩ := List.exists_cons_of_ne_nil hne
    have hnone := satisfy_isQuote_of_isWordPart (hrun c List.mem_cons_self) (cs ++ f.tail)
    refine orElse_of_some ((orElse_of_none (bind_of_none hnone)).trans ?_)
    exact bareComparison_append hne hrun f.endsWord_tail f.comparison_tail
  | quoted opening run closing ho hrun hc =>
    rw [hl] at hclosed
    obtain ⟨q, rfl⟩ := Option.isSome_iff_exists.1 hclosed
    have htext : (Side.quoted opening run (some q) ho hrun hc).text ++ f.tail =
        opening :: (run ++ q :: f.tail) := by
      simp [Side.text]
    rw [htext]
    exact orElse_of_some (orElse_of_some (f.quotedComparison_left ho hrun (hc q rfl)))

/-- **Behind the quote the comparison is read,** up to the end of the text. -/
theorem alternative_body : alternative f.body = some (f.condition, []) := by
  have hor : IsSmall "or" := by decide +kernel
  have hword : ∀ rest, ∀ c ∈ (f.or ++ rest).head?, Text.isBlank c = false ∧ c ≠ ')' := by
    intro rest
    refine forall_head?_append (f.spells_or.ne_nil hor) fun c hc => ?_
    have hw := f.spells_or.isWordPart hor c hc
    exact ⟨isBlank_of_isWordPart hw, fun e => absurd (e ▸ hw) (by decide)⟩
  have hends : ∀ rest, EndsWord (f.afterOr ++ rest) := fun rest =>
    forall_head?_append f.isGap_afterOr.1 fun c hc => isWordPart_of_isBlank (f.isGap_afterOr.2 c hc)
  refine (bind_of_some (blanksAround_append f.isBlank_beforeOr (hword _))).trans ?_
  refine (bind_of_some ((word_eq_some_iff hor).2 ⟨⟨f.or, rfl, f.spells_or⟩, hends _⟩)).trans ?_
  refine (bind_of_some (blanksAround_append f.isGap_afterOr.2 (f.left.head?_text _))).trans ?_
  exact f.orElse_left

/-- **The search finds the comparison** and nothing else. -/
theorem conditions_text : conditions f.text = [f.condition] := by
  have hat : conditionAt? (f.quote :: f.body) = some (f.condition, []) :=
    (if_pos f.isQuote_quote).trans f.alternative_body
  rw [text, (Passes.of_no_quote f.front_free _).conditions_eq, conditions_of_some hat, conditions]
  rfl

lemma holds_condition : f.condition.holds =
    if f.sign = .equals then Text.sameWord f.left.run f.right.run
    else !Text.sameWord f.left.run f.right.run := by
  rw [condition]
  cases f.sign with
  | equals => rfl
  | lessGreater => rfl
  | bangEquals => rfl

/-- **The check decides a single comparison**: it applies to a text that ends in one exactly when
the sides are the same word, ignoring case, or are not and ought to differ. -/
theorem applies_tautology_text : Check.tautology.applies (String.ofList f.text) =
    if f.sign = .equals then Text.sameWord f.left.run f.right.run
    else !Text.sameWord f.left.run f.right.run := by
  rw [Check.applies, String.toList_ofList, isTautology, conditions_text, List.any_cons,
    List.any_nil, Bool.or_false, holds_condition]

/-- A comparison of two words whose last quote is left open. -/
def unclosed : ComparisonForm where
  front := ['x']
  quote := '\''
  beforeOr := [' ']
  or := ['O', 'r']
  afterOr := [' ']
  left := .quoted '\'' ['a'] (some '\'') rfl (List.forall_mem_singleton.2 rfl) (by rintro _ ⟨⟩; rfl)
  beforeSign := []
  sign := .lessGreater
  afterSign := []
  right := .quoted '"' ['b'] none rfl (List.forall_mem_singleton.2 rfl) (by rintro _ ⟨⟩)
  front_free := List.forall_mem_singleton.2 rfl
  isQuote_quote := rfl
  isBlank_beforeOr := List.forall_mem_singleton.2 rfl
  spells_or := .cons (.capital 'o') (.cons (.small 'r') .nil)
  isGap_afterOr := ⟨List.cons_ne_nil _ _, List.forall_mem_singleton.2 rfl⟩
  isClosed_left := rfl
  isBlank_beforeSign := List.forall_mem_nil _
  isBlank_afterSign := List.forall_mem_nil _

theorem applies_tautology_unclosed : unclosed.text = "x' Or 'a'<>\"b".toList ∧
    Check.tautology.applies (String.ofList unclosed.text) :=
  ⟨by decide, unclosed.applies_tautology_text.trans (by decide)⟩

end ComparisonForm

end QueryGuard.Injection
