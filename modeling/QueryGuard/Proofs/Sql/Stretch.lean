import QueryGuard.Proofs.Sql.Lexing
import QueryGuard.Sql.Token

/-!
Reading a bare stretch. A blank parts it: what stands before the blank and what stands behind it
are read as if they stood alone. So the tokens and placeholders of bare pieces that are put
together at blanks are those of the pieces. And it does not matter where a stretch stands: further
on in a text the same tokens and placeholders are read from it.
-/

namespace QueryGuard

open Grammar

/-! ### Placeholders by segments -/

/-- The placeholders of a segment. -/
def Placeholder.inSegment (s : Segment) : List (Style × Nat) :=
  if s.kind = .bare then inStretch s.start none s.text else []

lemma SqlText.placeholders_eq (t : SqlText) :
    t.placeholders = (t.segments.flatMap Placeholder.inSegment).mapIdx
      fun i p => { style := p.1, ordinal := i + 1, offset := p.2 } := by
  have h : (t.bareSegments.flatMap fun s => Placeholder.inStretch s.start none s.text) =
      t.segments.flatMap Placeholder.inSegment := by
    rw [bareSegments]
    induction t.segments with
    | nil => rfl
    | cons s ss ih =>
      rw [List.flatMap_cons, ← ih, List.filter_cons, Placeholder.inSegment]
      by_cases h : s.kind = .bare
      · simp [h]
      · simp [h]
  rw [placeholders, h]

lemma SqlText.map_placeholders (t : SqlText) :
    t.placeholders.map (fun p => (p.style, p.ordinal)) =
      ((t.segments.flatMap Placeholder.inSegment).map (·.1)).mapIdx
        fun i style => (style, i + 1) := by
  rw [placeholders_eq]
  exact List.ext_getElem? fun i => by simp [Function.comp_def]

/-! ### Up to a blank -/

lemma any_head?_append_blank {p : Char → Bool} (hp : p ' ' = false) (x y : List Char) :
    (x ++ ' ' :: y).head?.any p = x.head?.any p := by
  cases x with
  | nil => simpa using hp
  | cons c x => rfl

lemma head?_append_blank_eq {a : Char} (ha : a ≠ ' ') (x y : List Char) :
    (x ++ ' ' :: y).head? = some a ↔ x.head? = some a := by
  cases x with
  | nil => simpa using ha.symm
  | cons c x => rfl

namespace Placeholder

lemma at?_blank (c : Char) (cs : List Char) : at? (some ' ') c cs = at? none c cs := by
  simp [at?]

lemma at?_append_blank (before : Option Char) (c : Char) (x y : List Char) :
    at? before c (x ++ ' ' :: y) = at? before c x := by
  have hb : beginsName ' ' = false := by decide
  have hc : continuesName ' ' = false := by decide
  rw [at?, any_head?_append_blank hb, Text.takeWhile_append_cons hc]
  rfl

/-- **A blank parts the placeholders of a stretch.** -/
theorem inStretch_append_blank (pos : Nat) (before : Option Char) (x y : List Char) :
    inStretch pos before (x ++ ' ' :: y) =
      inStretch pos before x ++ inStretch (pos + Text.width x + 1) none y := by
  induction x generalizing pos before with
  | nil =>
    have hb : at? before ' ' y = none := by simp [at?]
    have hn : inStretch (pos + 1) (some ' ') y = inStretch (pos + 1) none y := by
      cases y with
      | nil => rfl
      | cons c y => simp only [inStretch, at?_blank]
    have hw : ' '.utf8Size = 1 := by decide
    simpa [inStretch, hb, hw] using hn
  | cons c x ih =>
    simp only [List.cons_append, inStretch, at?_append_blank, ih]
    rw [Text.width_cons, ← Nat.add_assoc]
    split <;> simp

end Placeholder

namespace Token

/-- A sign lies in its stretch. -/
lemma sign_le (cs : List Char) :
    (if cs.head? = some '+' ∨ cs.head? = some '-' then 1 else 0) ≤ cs.length := by
  cases cs with
  | nil => exact Nat.le_refl _
  | cons c cs =>
    rw [List.length_cons]
    split <;> omega

lemma exponentLength_append_blank (x y : List Char) :
    exponentLength (x ++ ' ' :: y) = exponentLength x := by
  have hd : Char.isDigit ' ' = false := by decide
  cases x with
  | nil => rfl
  | cons c x =>
    have hp := head?_append_blank_eq (a := '+') (by decide) x y
    have hm := head?_append_blank_eq (a := '-') (by decide) x y
    simp only [List.cons_append, exponentLength, hp, hm, List.drop_append_of_le_length (sign_le x),
      Text.takeWhile_append_cons (p := fun x => x.isDigit) hd]

lemma numberLength_append_blank (x y : List Char) :
    numberLength (x ++ ' ' :: y) = numberLength x := by
  have hd : isDigitOrPoint ' ' = false := by decide
  have hl : (x.takeWhile isDigitOrPoint).length ≤ x.length :=
    (List.takeWhile_sublist _).length_le
  simp only [numberLength, Text.takeWhile_append_cons hd]
  rw [List.drop_append_of_le_length hl, exponentLength_append_blank]

lemma lexeme_append_blank (before : Option Char) (c : Char) (x y : List Char) :
    lexeme before c (x ++ ' ' :: y) = lexeme before c x := by
  have hn : Placeholder.continuesName ' ' = false := by decide
  have hw : continuesWord ' ' = false := by decide
  have hd : Char.isDigit ' ' = false := by decide
  simp only [lexeme, Placeholder.at?_append_blank, Text.takeWhile_append_cons hn,
    Text.takeWhile_append_cons hw, numberLength_append_blank, beginsNumber,
    any_head?_append_blank (p := fun x => x.isDigit) hd]
  rfl

lemma exponentLength_le (cs : List Char) : exponentLength cs ≤ cs.length := by
  cases cs with
  | nil => exact Nat.le_refl _
  | cons c cs =>
    simp only [exponentLength]
    split
    · have hs := sign_le cs
      generalize (if cs.head? = some '+' ∨ cs.head? = some '-' then 1 else 0) = sign at hs ⊢
      have hl : ((cs.drop sign).takeWhile (·.isDigit)).length ≤ (cs.drop sign).length :=
        (List.takeWhile_sublist _).length_le
      rw [List.length_drop] at hl
      split
      · exact Nat.zero_le _
      · rw [List.length_cons]
        omega
    · exact Nat.zero_le _

/-- A lexeme lies in its stretch. -/
lemma lexeme_length_le (before : Option Char) (c : Char) (cs : List Char) :
    (lexeme before c cs).2 ≤ cs.length := by
  have ht : ∀ p : Char → Bool, (cs.takeWhile p).length ≤ cs.length := fun p =>
    (List.takeWhile_sublist p).length_le
  have he := exponentLength_le (cs.drop (cs.takeWhile isDigitOrPoint).length)
  rw [List.length_drop] at he
  unfold lexeme
  split
  · exact Nat.zero_le _
  · exact ht _
  · split
    · exact Nat.zero_le _
    · split
      · exact ht _
      · split
        · have := ht isDigitOrPoint
          simp only [numberLength]
          omega
        · exact Nat.zero_le _

lemma lexeme_blank (c : Char) (cs : List Char) : lexeme (some ' ') c cs = lexeme none c cs := by
  simp only [lexeme, Placeholder.at?_blank]

lemma inStretch_nil (pos : Nat) (before : Option Char) : inStretch pos before [] = [] := by
  rw [inStretch]

lemma inStretch_cons (pos : Nat) (before : Option Char) (c : Char) (cs : List Char) :
    inStretch pos before (c :: cs) =
      ((lexeme before c cs).1.map fun kind =>
          ⟨kind, pos, c :: cs.take (lexeme before c cs).2⟩).toList ++
        inStretch (pos + Text.width (c :: cs.take (lexeme before c cs).2))
          (c :: cs.take (lexeme before c cs).2).getLast? (cs.drop (lexeme before c cs).2) := by
  rw [inStretch]
  generalize lexeme before c cs = l
  obtain ⟨_ | kind, n⟩ := l <;> rfl

/-- **A blank parts the tokens of a stretch.** -/
theorem inStretch_append_blank (pos : Nat) (before : Option Char) :
    ∀ x y : List Char, inStretch pos before (x ++ ' ' :: y) =
      inStretch pos before x ++ inStretch (pos + Text.width x + 1) none y
  | [], y => by
    have hn : inStretch (pos + 1) (some ' ') y = inStretch (pos + 1) none y := by
      cases y with
      | nil => rw [inStretch_nil, inStretch_nil]
      | cons c y => rw [inStretch_cons, inStretch_cons, lexeme_blank]
    have hl : lexeme before ' ' y = (none, 0) := by simp [lexeme, Placeholder.at?, Text.isBlank]
    have hw : ' '.utf8Size = 1 := by decide
    rw [List.nil_append, inStretch_cons, inStretch_nil, hl]
    simpa [hw] using hn
  | c :: x, y => by
    -- the lexeme at `c` ends before the blank, so what is left of `x` still stands before it
    have hn := lexeme_length_le before c x
    rw [List.cons_append, inStretch_cons, inStretch_cons, lexeme_append_blank,
      List.take_append_of_le_length hn, List.drop_append_of_le_length hn,
      inStretch_append_blank _ _ (x.drop _) y]
    have hw : Text.width (c :: x) = Text.width (c :: x.take (lexeme before c x).2) +
        Text.width (x.drop (lexeme before c x).2) := by
      rw [← Text.width_append, List.cons_append, List.take_append_drop]
    rw [hw, List.append_assoc, Nat.add_assoc pos]
  termination_by x => x.length
  decreasing_by simp only [List.length_drop, List.length_cons]; omega

end Token

/-! ### The place of a stretch -/

lemma Placeholder.map_style_inStretch (pos pos' : Nat) (before : Option Char) (cs : List Char) :
    (inStretch pos before cs).map (·.1) = (inStretch pos' before cs).map (·.1) := by
  induction cs generalizing pos pos' before with
  | nil => rfl
  | cons c cs ih =>
    have ih := ih (pos + c.utf8Size) (pos' + c.utf8Size) (some c)
    simp only [inStretch]
    split
    · rw [List.map_cons, List.map_cons, ih]
    · exact ih

/-- The styles of the placeholders of pieces, wherever these stand. -/
lemma Placeholder.map_style_place (start start' : Nat) (ps : List (Piece Char)) :
    ((Segment.place start ps).flatMap inSegment).map (·.1) =
      ((Segment.place start' ps).flatMap inSegment).map (·.1) := by
  induction ps generalizing start start' with
  | nil => rfl
  | cons p ps ih =>
    rw [Segment.place_cons, Segment.place_cons, List.flatMap_cons, List.flatMap_cons,
      List.map_append, List.map_append, ih _ (start' + Text.width p.text), inSegment, inSegment]
    by_cases hk : p.kind = .bare
    · rw [if_pos hk, if_pos hk, map_style_inStretch]
    · rw [if_neg hk, if_neg hk]

namespace Token

/-- The token, `k` bytes further on. -/
def shift (k : Nat) (t : Token) : Token := { t with start := t.start + k }

theorem inStretch_shift (k pos : Nat) (before : Option Char) :
    ∀ cs : List Char, inStretch (pos + k) before cs = (inStretch pos before cs).map (shift k)
  | [] => by rw [inStretch_nil, inStretch_nil, List.map_nil]
  | c :: cs => by
    have hlen := lexeme_length_le before c cs
    rw [inStretch_cons, inStretch_cons, Nat.add_right_comm,
      inStretch_shift k _ _ (cs.drop (lexeme before c cs).2), List.map_append]
    congr 1
    cases (lexeme before c cs).1 <;> rfl
  termination_by cs => cs.length
  decreasing_by simp only [List.length_drop, List.length_cons]; omega

/-- A token of a stretch starts in the stretch. -/
theorem start_of_mem_inStretch {t : Token} (pos : Nat) (before : Option Char) :
    ∀ cs : List Char, t ∈ inStretch pos before cs →
      pos ≤ t.start ∧ t.start < pos + Text.width cs
  | [], h => by rw [inStretch_nil] at h; exact absurd h List.not_mem_nil
  | c :: cs, h => by
    have hw : Text.width (c :: cs) = Text.width (c :: cs.take (lexeme before c cs).2) +
        Text.width (cs.drop (lexeme before c cs).2) := by
      rw [← Text.width_append, List.cons_append, List.take_append_drop]
    have hpos : 0 < Text.width (c :: cs.take (lexeme before c cs).2) :=
      Text.width_pos (List.cons_ne_nil _ _)
    rw [inStretch_cons] at h
    rcases List.mem_append.1 h with h | h
    · obtain ⟨kind, -, rfl⟩ := Option.map_eq_some_iff.1 (Option.mem_toList.1 h)
      dsimp only
      omega
    · have ih := start_of_mem_inStretch _ _ (cs.drop (lexeme before c cs).2) h
      omega
  termination_by cs => cs.length
  decreasing_by simp only [List.length_drop, List.length_cons]; omega

lemma flatMap_place_shift (d : Dialect) (k start : Nat) (ps : List (Piece Char)) :
    (Segment.place (start + k) ps).flatMap (ofSegment d) =
      ((Segment.place start ps).flatMap (ofSegment d)).map (shift k) := by
  induction ps generalizing start with
  | nil => rfl
  | cons p ps ih =>
    obtain ⟨kind, text⟩ := p
    rw [Segment.place_cons, Segment.place_cons, List.flatMap_cons, List.flatMap_cons,
      List.map_append, Nat.add_right_comm, ih]
    congr 1
    cases kind with
    | bare => exact inStretch_shift k start none text
    | literal => rfl
    | comment => rfl

/-- A token of pieces starts where these stand. -/
lemma start_of_mem_place {d : Dialect} {t : Token} {start : Nat} {ps : List (Piece Char)}
    (hne : ∀ p ∈ ps, p.text ≠ []) (h : t ∈ (Segment.place start ps).flatMap (ofSegment d)) :
    start ≤ t.start ∧ t.start < start + Text.width (textOf ps) := by
  induction ps generalizing start with
  | nil => exact absurd h List.not_mem_nil
  | cons p ps ih =>
    have hp := Text.width_pos (hne p List.mem_cons_self)
    rw [Segment.place_cons, List.flatMap_cons] at h
    rw [textOf_cons, Text.width_append]
    rcases List.mem_append.1 h with h | h
    · obtain ⟨kind, text⟩ := p
      cases kind with
      | bare =>
        have hs := start_of_mem_inStretch start none text h
        dsimp only
        omega
      | literal =>
        obtain rfl := List.mem_singleton.1 h
        dsimp only at hp ⊢
        omega
      | comment => exact absurd h List.not_mem_nil
    · have ih := ih (fun q hq => hne q (List.mem_cons_of_mem _ hq)) h
      omega

end Token

/-! ### Bare pieces put together at blanks -/

variable {β : Type}

/-- A blank parts what is read of a stretch, and of nothing nothing is read. -/
structure PartsAtBlanks (read : Nat → List Char → List β) : Prop where
  nil (pos : Nat) : read pos [] = []
  blank (pos : Nat) (x y : List Char) :
    read pos (x ++ ' ' :: y) = read pos x ++ read (pos + Text.width x + 1) y

namespace PartsAtBlanks

variable {read : Nat → List Char → List β}

lemma placeholders : PartsAtBlanks fun pos x => Placeholder.inSegment ⟨.bare, pos, x⟩ :=
  ⟨fun _ => rfl, fun pos x y => Placeholder.inStretch_append_blank pos none x y⟩

lemma tokens : PartsAtBlanks fun pos x => Token.inStretch pos none x :=
  ⟨fun pos => Token.inStretch_nil pos none,
    fun pos x y => Token.inStretch_append_blank pos none x y⟩

lemma blank_cons (h : PartsAtBlanks read) (pos : Nat) (y : List Char) :
    read pos (' ' :: y) = read (pos + 1) y := by
  have e := h.blank pos [] y
  rwa [h.nil, List.nil_append, Text.width_nil, Nat.add_zero, List.nil_append] at e

lemma blanks (h : PartsAtBlanks read) (pos n : Nat) : read pos (List.replicate n ' ') = [] := by
  induction n generalizing pos with
  | zero => exact h.nil pos
  | succ n ih => rw [List.replicate_succ, h.blank_cons, ih]

/-- The parts on the two sides of a blank are read apart, to whichever of them it belongs. -/
lemma append (h : PartsAtBlanks read) (pos : Nat) {x y : List Char}
    (hs : x.getLast? = some ' ' ∨ y.head? = some ' ') :
    read pos (x ++ y) = read pos x ++ read (pos + Text.width x) y := by
  have hw : ' '.utf8Size = 1 := by decide
  rcases hs with hs | hs
  · obtain ⟨x, rfl⟩ := List.getLast?_eq_some_iff.1 hs
    have e := h.blank pos x []
    rw [h.nil, List.append_nil] at e
    rw [List.append_assoc, List.singleton_append, h.blank, e]
    simp [hw, Nat.add_assoc]
  · obtain ⟨y, rfl⟩ := List.head?_eq_some_iff.1 hs
    rw [h.blank, h.blank_cons]

end PartsAtBlanks

/-- Between bare pieces that stand side by side there is a blank. -/
def Seamed (ps : List (Piece Char)) : Prop :=
  ps.IsChain fun p q => p.kind = .bare → q.kind = .bare →
    p.text.getLast? = some ' ' ∨ q.text.head? = some ' '

/-- What stands first stays first when bare pieces are made one. -/
lemma head_join {p q : Piece Char} {ps qs : List (Piece Char)} (hp : p.text ≠ [])
    (h : join (p :: ps) = q :: qs) : q.kind = p.kind ∧ q.text.head? = p.text.head? := by
  rw [join] at h
  split at h
  · obtain ⟨rfl, -⟩ := List.cons.inj h
    exact ⟨rfl, rfl⟩
  · split at h
    · next hk =>
      obtain ⟨rfl, -⟩ := List.cons.inj h
      obtain ⟨c, cs, hc⟩ := List.exists_cons_of_ne_nil hp
      exact ⟨hk.1.symm, by simp [hc]⟩
    · obtain ⟨rfl, -⟩ := List.cons.inj h
      exact ⟨rfl, rfl⟩

/-- **Bare pieces put together at blanks are read apart.** -/
theorem flatMap_place_join {read : Segment → List β}
    (h : PartsAtBlanks fun pos x => read ⟨.bare, pos, x⟩) {ps : List (Piece Char)}
    (hne : ∀ p ∈ ps, p.text ≠ []) (hs : Seamed ps) (start : Nat) :
    (Segment.place start (join ps)).flatMap read = (Segment.place start ps).flatMap read := by
  induction ps generalizing start with
  | nil => rfl
  | cons p ps ih =>
    have ih := fun start => ih (fun q hq => hne q (List.mem_cons_of_mem _ hq)) hs.tail start
    rw [Segment.place_cons, List.flatMap_cons, ← ih, join]
    cases hj : join ps with
    | nil => rfl
    | cons q qs =>
      dsimp only
      split
      · next hk =>
        cases ps with
        | nil => cases hj
        | cons r ps =>
          -- at the seam no token goes on from the one piece to the other
          obtain ⟨hkr, hr⟩ := head_join (hne r (by simp)) hj
          have hseam := (List.isChain_cons_cons.1 hs).1 hk.1 (hkr ▸ hk.2)
          rw [← hr] at hseam
          have e := h.append start hseam
          obtain ⟨k, a⟩ := p
          obtain ⟨l, b⟩ := q
          obtain ⟨rfl, rfl⟩ : k = .bare ∧ l = .bare := hk
          simp only [Segment.place_cons, List.flatMap_cons, Text.width_append, Nat.add_assoc] at e ⊢
          rw [e, List.append_assoc]
      · rfl

end QueryGuard
