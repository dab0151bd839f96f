import QueryGuard.Edit
import QueryGuard.Proofs.Sql.Reading

/-!
Lexemes in other surroundings. A lexeme is read as before when another text stands behind it that
would not make it longer, and when another character stands in front of it, unless it is a question
mark or a colon. So where a run of lexemes of a text is replaced, the lexemes around it stay.
-/

namespace QueryGuard

open Grammar

variable {d : Dialect}

/-! ### Openers -/

lemma Dialect.opener?_congr {c : Char} {a b : List Char} (h : a.head? = b.head?) :
    d.opener? (c :: a) = d.opener? (c :: b) := by
  simp only [opener?, h]

lemma Dialect.opener?_of_joinsMarks {c y : Char} (hy : Token.joinsMarks y = false) {s : List Char}
    (h : d.opener? (c :: s) = none) (r : List Char) : d.opener? (c :: y :: r) = none := by
  have hne : y ≠ '-' ∧ y ≠ '*' := by
    constructor
    · rintro rfl
      exact absurd hy (by decide)
    · rintro rfl
      exact absurd hy (by decide)
  simp only [opener?] at h ⊢
  cases hq : Quote.ofChar? c with
  | some q => rw [hq] at h; cases h
  | none =>
    rw [hq] at h
    by_cases hd : c = '#' ∧ d = .mysql
    · obtain ⟨rfl, rfl⟩ := hd
      simp at h
    · simp [hne, hd]

lemma Quote.ofChar?_of_joinsMarks {y : Char} (hy : Token.joinsMarks y = false) :
    Quote.ofChar? y = none := by
  cases hq : Quote.ofChar? y with
  | none => rfl
  | some q =>
    obtain rfl := Quote.ofChar?_eq_some.1 hq
    cases q <;> exact absurd hy (by decide)

/-- A literal or a comment that is closed may stand in front of anything but a quote. -/
lemma Grammar.Spells.congr_next {k : Segment.Kind} {text : List Char} {x y : Char}
    (h : Spells id d k text (some x)) (hk : k ≠ .bare) (hx : x ≠ '\n')
    (hy : Quote.ofChar? y = none) : Spells id d k text (some y) := by
  cases h with
  | bare => exact absurd rfl hk
  | @closedLiteral q _ _ hb _ =>
    refine .closedLiteral hb fun e => ?_
    obtain rfl : y = q.char := Option.some.inj e
    rw [Quote.ofChar?_char] at hy
    cases hy
  | line _ _ hn => exact absurd (hn x rfl) hx
  | closedBlock hb => exact .closedBlock hb

namespace Lexeme

variable {l : Lexeme} {ls : List Lexeme} {before before' : Option Char} {rest s r : List Char}
  {y : Char}

/-! ### What stands behind -/

/-- The lexeme is over: it is bare, or it is closed. -/
def Ends (d : Dialect) (l : Lexeme) : Prop :=
  l.kind = .bare ∨ Spells id d l.kind l.text (some ' ')

lemma Reads.ends (h : l.Reads d before s) {x : Char} (hx : s.head? = some x) (hn : x ≠ '\n') :
    l.Ends d := by
  cases h with
  | bare => exact .inl rfl
  | literal hs =>
    rw [hx] at hs
    exact .inr (hs.congr_next nofun hn (by decide))
  | comment hs =>
    rw [hx] at hs
    exact .inr (hs.congr_next nofun hn (by decide))

lemma Reads.of_noLonger {p : List Char} (h : l.Reads d before (p ++ s))
    (hy : Token.NoLonger s.head? y) (he : p = [] → l.Ends d) :
    l.Reads d before (p ++ y :: r) := by
  have hq := Quote.ofChar?_of_joinsMarks hy.apart
  cases h with
  | @bare c cs token? ho hlex =>
    refine .bare ?_ ?_
    · -- an opener is one or two characters
      cases hcs : cs ++ p with
      | nil =>
        rw [← List.append_assoc, hcs] at ho ⊢
        exact Dialect.opener?_of_joinsMarks hy.apart ho r
      | cons a w =>
        rw [← List.append_assoc, hcs] at ho ⊢
        rw [← ho]
        exact Dialect.opener?_congr rfl
    · rw [← List.append_assoc] at hlex ⊢
      rw [← hlex]
      -- `y` goes on with the lexeme no more than `s` does
      refine Token.lexeme_append_of_noLonger ?_ fun z hz => ?_
      · rw [hlex, List.length_append]
        exact Nat.le_add_right _ _
      · obtain rfl := Option.some.inj hz
        exact hy
  | literal hs =>
    refine .literal ?_
    -- text in front of `y` hides it, and without such text the literal has ended
    cases p with
    | cons a p => exact hs
    | nil =>
      rcases he rfl with hb | hb
      · cases hb
      · exact hb.congr_next nofun (by decide) hq
  | comment hs =>
    refine .comment ?_
    cases p with
    | cons a p => exact hs
    | nil =>
      rcases he rfl with hb | hb
      · cases hb
      · exact hb.congr_next nofun (by decide) hq

/-- What begins with a character that opens nothing is bare. -/
lemma Reads.kind_eq_bare (h : l.Reads d before rest) {c : Char} (hc : l.text.head? = some c)
    (hn : Token.opensNothing c) : l.kind = .bare := by
  have hopens : ∀ {k : Segment.Kind} {text : List Char}, Spells id d k text rest.head? →
      text.head? = some c → k = .bare := by
    intro k text hs hc
    by_contra hk
    obtain ⟨o, -, ho⟩ := hs.exists_opens hk
    obtain ⟨r, rfl⟩ := List.head?_eq_some_iff.1 hc
    exact Dialect.opener?_eq_none.1 (Dialect.opener?_of_opensNothing hn r) o ho
  cases h with
  | bare => rfl
  | literal hs => exact absurd (hopens hs hc) nofun
  | comment hs => exact absurd (hopens hs hc) nofun

lemma Reading.ne_nil_of_mem (h : Reading d rest before ls) (hl : l ∈ ls) : l.text ≠ [] := by
  induction ls generalizing before with
  | nil => exact absurd hl List.not_mem_nil
  | cons k ls ih =>
    rcases List.mem_cons.1 hl with rfl | hl
    · exact h.1.text_ne_nil
    · exact ih h.2 hl

lemma textOf_eq_nil_iff (h : Reading d rest before ls) : textOf ls = [] ↔ ls = [] := by
  constructor
  · intro e
    cases ls with
    | nil => rfl
    | cons k ls =>
      rw [textOf_cons, List.append_eq_nil_iff] at e
      exact absurd e.1 h.1.text_ne_nil
  · rintro rfl
    rfl

/-- **Lexemes are read again** in front of a text that would not make the last of them longer. -/
theorem Reading.of_noLonger (h : Reading d s before ls) (hy : Token.NoLonger s.head? y)
    (he : ∀ l ∈ ls.getLast?, l.Ends d) : Reading d (y :: r) before ls := by
  induction ls generalizing before with
  | nil => trivial
  | cons l ls ih =>
    refine ⟨h.1.of_noLonger hy fun hp => ?_, ih h.2 fun k hk => he k ?_⟩
    · obtain rfl := (textOf_eq_nil_iff h.2).1 hp
      exact he l rfl
    · cases ls with
      | nil => cases hk
      | cons m ls => rwa [List.getLast?_cons_cons]

/-- The last of lexemes in front of more text is over, unless a line comment is. -/
lemma Reading.ends_getLast? {x : Char} (h : Reading d (x :: s) before ls) (hx : x ≠ '\n') :
    ∀ l ∈ ls.getLast?, l.Ends d := by
  induction ls generalizing before with
  | nil => exact nofun
  | cons l ls ih =>
    intro k hk
    cases ls with
    | nil =>
      obtain rfl : l = k := Option.some.inj hk
      exact h.1.ends rfl hx
    | cons m ls =>
      rw [List.getLast?_cons_cons] at hk
      exact ih h.2 k hk

/-! ### What stands in front -/

lemma Reads.congr_before (h : l.Reads d before rest)
    (hq : l.text.head? = some '?' →
      (before = some '?' ∨ before = some ':' ↔ before' = some '?' ∨ before' = some ':'))
    (hc : l.text.head? = some ':' → (before = some ':' ↔ before' = some ':')) :
    l.Reads d before' rest := by
  cases h with
  | bare ho hlex =>
    refine .bare ho ?_
    rw [← hlex]
    symm
    exact Token.lexeme_congr_before (fun e => hq (by rw [e]; rfl)) (fun e => hc (by rw [e]; rfl)) _
  | literal hs => exact .literal hs
  | comment hs => exact .comment hs

lemma Reading.congr_before (h : Reading d rest before ls)
    (hq : (textOf ls).head? ≠ some '?') (hc : (textOf ls).head? ≠ some ':') :
    Reading d rest before' ls := by
  cases ls with
  | nil => trivial
  | cons l ls =>
    have hhead : (textOf (l :: ls)).head? = l.text.head? := by
      obtain ⟨c, cs, e⟩ := List.exists_cons_of_ne_nil h.1.text_ne_nil
      rw [textOf_cons, e]
      rfl
    rw [hhead] at hq hc
    exact ⟨h.1.congr_before (fun e => absurd e hq) (fun e => absurd e hc), h.2⟩

/-- **Lexemes may stand in the place of others** where they change nothing around them. -/
theorem Reading.replace {as bs ms cs : List Lexeme} (h : Reading d [] before (as ++ (bs ++ cs)))
    (hm : Reading d (textOf cs) (after before as) ms) (hms : (textOf ms).head? = some y)
    (hy : Token.NoLonger (textOf (bs ++ cs)).head? y) (he : ∀ l ∈ as.getLast?, l.Ends d)
    (hc : Reading d [] (after (after before as) ms) cs) :
    Reading d [] before (as ++ (ms ++ cs)) := by
  obtain ⟨x, hx⟩ := List.head?_eq_some_iff.1 hms
  rw [reading_append, reading_append]
  refine ⟨?_, ?_, hc⟩
  · have ha := (reading_append.1 h).1
    rw [List.append_nil] at ha ⊢
    rw [textOf_append, hx, List.cons_append]
    exact ha.of_noLonger hy he
  · rwa [List.append_nil]

end Lexeme

/-! ### Edits -/

namespace Edit

lemma apply_singleton (cs : List Char) (e : Edit) : apply cs [e] =
    Text.takeBytes e.span.start cs ++ (e.text ++ Text.dropBytes e.span.stop cs) := by
  have hs : sort [e] = [e] := List.mergeSort_singleton e
  rw [apply, hs, splice, if_neg (Nat.not_lt_zero _), splice, List.append_assoc]
  rfl

/-- A part of a text is replaced. -/
lemma apply_replace (as bs cs text : List Char) :
    apply (as ++ (bs ++ cs))
        [⟨⟨Text.width as, Text.width as + Text.width bs⟩, text⟩] = as ++ (text ++ cs) := by
  rw [apply_singleton]
  congr 1
  · exact Text.takeBytes_width_append as _
  · congr 1
    show Text.dropBytes (Text.width as + Text.width bs) _ = cs
    rw [← Text.width_append, ← List.append_assoc, Text.dropBytes_width_append]

lemma sort_of_pairwise {es : List Edit} (h : es.Pairwise fun a b => a.span.start ≤ b.span.start) :
    sort es = es :=
  List.mergeSort_of_pairwise (h.imp fun hab => decide_eq_true hab)

end Edit

end QueryGuard
