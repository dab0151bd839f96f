import QueryGuard.Proofs.Injection.Pieces

/-!
Further statements inside a string, without a reader: what a text with a statement behind a
semicolon looks like, and what one with a joined `SELECT`. Main statement: the two checks apply to
exactly these texts, wherever in the text the statement stands and whatever stands in front of it.
-/

namespace QueryGuard.Injection

open Text (Reader)

variable {cs rest : List Char}

/-! ### Two descriptions -/

/-- Somewhere in the text a semicolon is followed by a statement: by white space or none and one of
the words that begin a statement, with which no word goes on. -/
def HoldsStatement (cs : List Char) : Prop :=
  ∃ front gap word rest, ∃ w ∈ statementWords, cs = front ++ ';' :: (gap ++ (word ++ rest)) ∧
    (∀ c ∈ gap, Text.isBlank c) ∧ Spells w word ∧ EndsWord rest

/-- `ALL` with white space behind it, or nothing. -/
def IsAll (cs : List Char) : Prop :=
  cs = [] ∨ ∃ word gap, cs = word ++ gap ∧ Spells "all" word ∧ IsGap gap

/-- Somewhere in the text stands `UNION SELECT` or `UNION ALL SELECT`, and it is no part of longer
words. -/
def HoldsUnion (cs : List Char) : Prop :=
  ∃ front union gap all select rest,
    cs = front ++ (union ++ (gap ++ (all ++ (select ++ rest)))) ∧
      (∀ c ∈ front.getLast?, Text.isWordPart c = false) ∧ Spells "union" union ∧ IsGap gap ∧
        IsAll all ∧ Spells "select" select ∧ EndsWord rest

/-! ### A statement behind a semicolon -/

lemma isSmall_of_mem_statementWords {w : String} (h : w ∈ statementWords) : IsSmall w := by
  have hall : ∀ w ∈ statementWords, IsSmall w := by decide +kernel
  exact hall w h

lemma isBlank_of_spells {w : String} (hw : IsSmall w) {taken : List Char} (h : Spells w taken) :
    ∀ c ∈ (taken ++ rest).head?, Text.isBlank c = false := by
  exact forall_head?_append (h.ne_nil hw) fun c hc => isBlank_of_isWordPart (h.isWordPart hw c hc)

lemma begins_word_iff {w : String} (hw : IsSmall w) : begins (word w) cs ↔
    ∃ taken rest, cs = taken ++ rest ∧ Spells w taken ∧ EndsWord rest := by
  rw [begins, Option.isSome_iff_exists]
  constructor
  · rintro ⟨⟨u, rest⟩, h⟩
    obtain ⟨⟨taken, rfl, hs⟩, he⟩ := (word_eq_some_iff hw).1 h
    exact ⟨taken, rest, rfl, hs, he⟩
  · rintro ⟨taken, rest, rfl, hs, he⟩
    exact ⟨((), rest), (word_eq_some_iff hw).2 ⟨⟨taken, rfl, hs⟩, he⟩⟩

lemma opensStatement_iff : opensStatement cs ↔ ∃ gap word rest, ∃ w ∈ statementWords,
    cs = gap ++ (word ++ rest) ∧ (∀ c ∈ gap, Text.isBlank c) ∧ Spells w word ∧ EndsWord rest := by
  rw [opensStatement, List.any_eq_true]
  constructor
  · rintro ⟨w, hw, h⟩
    obtain ⟨word, rest, e, hs, he⟩ := (begins_word_iff (isSmall_of_mem_statementWords hw)).1 h
    refine ⟨cs.takeWhile Text.isBlank, word, rest, w, hw, ?_, fun c hc => ?_, hs, he⟩
    · rw [← e, List.takeWhile_append_dropWhile]
    · exact List.mem_takeWhile_imp hc
  · rintro ⟨gap, word, rest, w, hw, rfl, hgap, hs, he⟩
    have hsmall := isSmall_of_mem_statementWords hw
    refine ⟨w, hw, (begins_word_iff hsmall).2 ⟨word, rest, ?_, hs, he⟩⟩
    have hhead : ∀ c ∈ (word ++ rest).head?, Text.isBlank c = false := isBlank_of_spells hsmall hs
    exact (Prod.mk.inj (Option.some.inj (blanks_append hgap hhead))).2

/-- A failed semicolon hides no later one. -/
lemma isStacked_iff_exists :
    isStacked cs ↔ ∃ front rest, cs = front ++ ';' :: rest ∧ opensStatement rest := by
  induction cs with
  | nil =>
    refine ⟨nofun, ?_⟩
    rintro ⟨front, rest, e, -⟩
    cases front <;> cases e
  | cons c cs ih =>
    rw [isStacked, Bool.or_eq_true, Bool.and_eq_true, beq_iff_eq, ih]
    constructor
    · rintro (⟨rfl, h⟩ | ⟨front, rest, rfl, h⟩)
      · exact ⟨[], cs, rfl, h⟩
      · exact ⟨c :: front, rest, rfl, h⟩
    · rintro ⟨front, rest, e, h⟩
      cases front with
      | nil =>
        obtain ⟨rfl, rfl⟩ := List.cons.inj e
        exact .inl ⟨rfl, h⟩
      | cons x front =>
        obtain ⟨-, rfl⟩ := List.cons.inj e
        exact .inr ⟨front, rest, rfl, h⟩

/-- **A further statement is found** exactly where one stands behind a semicolon. -/
theorem isStacked_iff_holdsStatement : isStacked cs ↔ HoldsStatement cs := by
  rw [isStacked_iff_exists, HoldsStatement]
  constructor
  · rintro ⟨front, rest, rfl, h⟩
    obtain ⟨gap, word, rest, w, hw, rfl, hs⟩ := opensStatement_iff.1 h
    exact ⟨front, gap, word, rest, w, hw, rfl, hs⟩
  · rintro ⟨front, gap, word, rest, w, hw, rfl, hs⟩
    exact ⟨front, _, rfl, opensStatement_iff.2 ⟨gap, word, rest, w, hw, rfl, hs⟩⟩

/-! ### A joined `SELECT` -/

/-- White space is taken, and what is read behind it does not begin with any. -/
lemma begins_gap_iff {α : Type} {p : Reader α}
    (hp : ∀ cs, begins p cs → ∀ c ∈ cs.head?, Text.isBlank c = false) :
    begins (gap >>= fun _ => p) cs ↔ ∃ g rest, cs = g ++ rest ∧ IsGap g ∧ begins p rest := by
  rw [begins_bind_iff]
  constructor
  · rintro ⟨u, rest, hg, h⟩
    obtain ⟨g, hgap, rfl⟩ := exists_of_gap hg
    exact ⟨g, rest, rfl, hgap, h⟩
  · rintro ⟨g, rest, rfl, hgap, h⟩
    exact ⟨(), rest, gap_append hgap (hp rest h), h⟩

lemma begins_letters_iff {w : String} (hw : IsSmall w) {α : Type} {p : Reader α} :
    begins (letters w >>= fun _ => p) cs ↔
      ∃ taken rest, cs = taken ++ rest ∧ Spells w taken ∧ begins p rest := by
  rw [begins_bind_iff]
  constructor
  · rintro ⟨u, rest, hl, h⟩
    obtain ⟨taken, rfl, hs⟩ := (letters_eq_some_iff hw).1 hl
    exact ⟨taken, rest, rfl, hs, h⟩
  · rintro ⟨taken, rest, rfl, hs, h⟩
    exact ⟨(), rest, (letters_eq_some_iff hw).2 ⟨taken, rfl, hs⟩, h⟩

/-- The words of a joined `SELECT`. -/
lemma isSmall_union : IsSmall "union" ∧ IsSmall "all" ∧ IsSmall "select" := by decide +kernel

/-- What follows the white space behind `UNION`. -/
def joined : Reader Unit :=
  Reader.orElse (letters "all" >>= fun _ => gap >>= fun _ => word "select") (word "select")

lemma begins_joined_iff : begins joined cs ↔ ∃ all select rest, cs = all ++ (select ++ rest) ∧
    IsAll all ∧ Spells "select" select ∧ EndsWord rest := by
  obtain ⟨-, hall, hselect⟩ := isSmall_union
  have hblank : ∀ cs, begins (word "select") cs → ∀ c ∈ cs.head?, Text.isBlank c = false := by
    intro cs h
    obtain ⟨select, rest, rfl, hs, -⟩ := (begins_word_iff hselect).1 h
    exact isBlank_of_spells hselect hs
  rw [joined, begins_orElse_iff, begins_letters_iff hall]
  simp only [begins_gap_iff hblank, begins_word_iff hselect]
  constructor
  · rintro (⟨word, -, rfl, hw, gap, -, rfl, hg, select, rest, rfl, hs⟩ | ⟨select, rest, rfl, hs⟩)
    · refine ⟨word ++ gap, select, rest, by rw [List.append_assoc], .inr ?_, hs⟩
      exact ⟨word, gap, rfl, hw, hg⟩
    · exact ⟨[], select, rest, rfl, .inl rfl, hs⟩
  · rintro ⟨all, select, rest, rfl, rfl | ⟨word, gap, rfl, hw, hg⟩, hs⟩
    · exact .inr ⟨select, rest, rfl, hs⟩
    · refine .inl ⟨word, _, List.append_assoc .., hw, gap, _, rfl, hg, select, rest, rfl, hs⟩

lemma begins_unionSelect_iff : begins unionSelect cs ↔ ∃ union gap all select rest,
    cs = union ++ (gap ++ (all ++ (select ++ rest))) ∧ Spells "union" union ∧ IsGap gap ∧
      IsAll all ∧ Spells "select" select ∧ EndsWord rest := by
  obtain ⟨hunion, hall, hselect⟩ := isSmall_union
  have hblank : ∀ cs, begins joined cs → ∀ c ∈ cs.head?, Text.isBlank c = false := by
    intro cs h
    obtain ⟨all, select, rest, rfl, ha, hs, -⟩ := begins_joined_iff.1 h
    rcases ha with rfl | ⟨word, gap, rfl, hw, -⟩
    · rw [List.nil_append]
      exact isBlank_of_spells hselect hs
    · rw [List.append_assoc]
      exact isBlank_of_spells hall hw
  show begins (letters "union" >>= fun _ => gap >>= fun _ => joined) cs ↔ _
  rw [begins_letters_iff hunion]
  simp only [begins_gap_iff hblank, begins_joined_iff]
  constructor
  · rintro ⟨union, -, rfl, hu, gap, -, rfl, hg, all, select, rest, rfl, ha⟩
    exact ⟨union, gap, all, select, rest, rfl, hu, hg, ha⟩
  · rintro ⟨union, gap, all, select, rest, rfl, hu, hg, ha⟩
    exact ⟨union, _, rfl, hu, gap, _, rfl, hg, all, select, rest, rfl, ha⟩

/-- A failed `UNION` hides no later one. The character in front of the text is `before`. -/
lemma joinsFrom_iff_exists {before : Option Char} : joinsFrom before cs ↔ ∃ front rest,
    cs = front ++ rest ∧ (∀ c ∈ front.getLast?.or before, Text.isWordPart c = false) ∧
      begins unionSelect rest := by
  induction cs generalizing before with
  | nil =>
    refine ⟨nofun, ?_⟩
    rintro ⟨front, rest, e, -, h⟩
    obtain ⟨rfl, rfl⟩ := List.append_eq_nil_iff.1 e.symm
    obtain ⟨union, gap, all, select, rest, e, hu, -⟩ := begins_unionSelect_iff.1 h
    exact absurd (List.append_eq_nil_iff.1 e.symm).1 (hu.ne_nil isSmall_union.1)
  | cons c cs ih =>
    have hbefore : before.all (!Text.isWordPart ·) ↔
        ∀ c ∈ before, Text.isWordPart c = false := by
      cases before <;> simp
    have hlast : ∀ front : List Char,
        (c :: front).getLast?.or before = front.getLast?.or (some c) := fun front => by
      rw [List.getLast?_cons, Option.some_or, Option.or_some]
    -- a search begins here, or it is one of the rest
    rw [joinsFrom, Bool.or_eq_true, Bool.and_eq_true, hbefore, ih]
    constructor
    · rintro (⟨hb, h⟩ | ⟨front, rest, rfl, hb, h⟩)
      · exact ⟨[], c :: cs, rfl, hb, h⟩
      · exact ⟨c :: front, rest, rfl, hlast front ▸ hb, h⟩
    · rintro ⟨front, rest, e, hb, h⟩
      cases front with
      | nil =>
        obtain rfl := e
        exact .inl ⟨hb, h⟩
      | cons x front =>
        obtain ⟨rfl, rfl⟩ := List.cons.inj e
        exact .inr ⟨front, rest, rfl, hlast front ▸ hb, h⟩

/-- **A joined `SELECT` is found** exactly where one stands. -/
theorem isUnionSelect_iff_holdsUnion : isUnionSelect cs ↔ HoldsUnion cs := by
  rw [isUnionSelect, joinsFrom_iff_exists, HoldsUnion]
  simp only [Option.or_none, begins_unionSelect_iff]
  constructor
  · rintro ⟨front, -, rfl, hf, union, gap, all, select, rest, rfl, h⟩
    exact ⟨front, union, gap, all, select, rest, rfl, hf, h⟩
  · rintro ⟨front, union, gap, all, select, rest, rfl, hf, h⟩
    exact ⟨front, _, rfl, hf, union, gap, all, select, rest, rfl, h⟩

/-! ### The two checks -/

/-- **The checks for a further statement** apply to a string exactly where one stands in it. -/
theorem applies_stacked_union_iff (s : String) :
    (Check.stacked.applies s ↔ HoldsStatement s.toList) ∧
      (Check.union.applies s ↔ HoldsUnion s.toList) :=
  ⟨isStacked_iff_holdsStatement, isUnionSelect_iff_holdsUnion⟩

end QueryGuard.Injection
