import QueryGuard.Proofs.Sql.Stretch

/-!
Lexemes. What stands behind a lexeme decides only where it ends, and no opener and no placeholder
starts inside it. So a lexeme is read again when what stands behind it becomes something that would
not make it longer.
-/

namespace QueryGuard

variable {d : Dialect}

/-! ### What stands behind -/

/-- A character that can stand in a number, or that makes an opener of the character before it. -/
def Token.joinsMarks (c : Char) : Bool :=
  isDigitOrPoint c || c == 'e' || c == 'E' || c == '+' || c == '-' || c == '*' ||
    (Quote.ofChar? c).isSome

/-- `y` in the place of `x` makes nothing longer that stands before it. -/
structure Token.NoLonger (x : Option Char) (y : Char) : Prop where
  word : continuesWord y → x.any continuesWord
  name : Placeholder.continuesName y → x.any Placeholder.continuesName
  begins : Placeholder.beginsName y → x.any Placeholder.beginsName
  apart : joinsMarks y = false

lemma Token.noLonger_of_mark {y : Char} (hw : continuesWord y = false)
    (hn : Placeholder.beginsName y = false) (ha : joinsMarks y = false) (x : Option Char) :
    NoLonger x y := by
  have hname : Placeholder.continuesName y = false := by
    simp only [continuesWord, Bool.or_eq_false_iff] at hw
    simp only [Placeholder.continuesName, hw, Bool.or_self]
  refine ⟨fun h => ?_, fun h => ?_, fun h => ?_, ha⟩
  · rw [hw] at h
    cases h
  · rw [hname] at h
    cases h
  · rw [hn] at h
    cases h

lemma Text.takeWhile_append_of_noLonger {p : Char → Bool} {w s s' : List Char}
    (hle : ((w ++ s).takeWhile p).length ≤ w.length)
    (hs : ∀ y ∈ s'.head?, p y → s.head?.any p) :
    (w ++ s').takeWhile p = (w ++ s).takeWhile p := by
  induction w with
  | nil =>
    -- the word ends in front of `s`, whose first character does not go on with it
    have hnil : s.takeWhile p = [] := List.eq_nil_of_length_eq_zero (Nat.le_zero.1 hle)
    have hs0 : s.head?.any p = false := by
      cases s with
      | nil => rfl
      | cons x s =>
        rw [List.takeWhile_cons] at hnil
        split at hnil
        · cases hnil
        · next hx => simpa using hx
    rw [List.nil_append, List.nil_append, hnil]
    cases s' with
    | nil => rfl
    | cons y s' =>
      have hy : p y = false := by
        by_contra hy
        have := hs y rfl (by simpa using hy)
        rw [hs0] at this
        cases this
      rw [List.takeWhile_cons, hy]
      rfl
  | cons c w ih =>
    simp only [List.cons_append, List.takeWhile_cons] at hle ⊢
    split
    · next hc =>
      rw [if_pos hc] at hle
      rw [ih (by simpa using hle)]
    · rfl

lemma Text.takeWhile_of_append {p : Char → Bool} {w s : List Char}
    (hle : ((w ++ s).takeWhile p).length ≤ w.length) : w.takeWhile p = (w ++ s).takeWhile p := by
  have h : (w ++ []).takeWhile p = _ := takeWhile_append_of_noLonger hle nofun
  rwa [List.append_nil] at h

lemma Placeholder.continuesName_of_beginsName {c : Char} (h : beginsName c) : continuesName c := by
  simp only [beginsName, Bool.or_eq_true] at h
  rcases h with h | h
  · simp [continuesName, Text.isAlphanumeric, h]
  · simp [continuesName, h]

namespace Token

variable {w s s' : List Char} {before : Option Char} {c : Char}

/-! ### Numbers -/

lemma joinsMarks_of_isDigitOrPoint (h : isDigitOrPoint c) : joinsMarks c := by
  simp only [joinsMarks, h, Bool.true_or]

lemma joinsMarks_of_isDigit (h : c.isDigit) : joinsMarks c :=
  joinsMarks_of_isDigitOrPoint (by simp [isDigitOrPoint, h])

/-- What can stand in a number does not begin `s`. -/
def StopsNumber (s : List Char) : Prop := ∀ y ∈ s.head?, joinsMarks y = false

lemma StopsNumber.takeWhile_eq {p : Char → Bool} (hp : ∀ y, p y → joinsMarks y)
    (h : StopsNumber s) (w : List Char) : (w ++ s).takeWhile p = w.takeWhile p := by
  cases s with
  | nil => rw [List.append_nil]
  | cons y s =>
    have hy : p y = false := by
      by_contra hy
      have hj := hp y (by simpa using hy)
      rw [h y rfl] at hj
      cases hj
    exact Text.takeWhile_append_cons hy w s

lemma StopsNumber.head?_eq_iff {a : Char} (ha : joinsMarks a) (h : StopsNumber s)
    (w : List Char) : (w ++ s).head? = some a ↔ w.head? = some a := by
  cases w with
  | cons b w => rfl
  | nil =>
    cases s with
    | nil => rfl
    | cons y s =>
      constructor
      · intro e
        obtain rfl := Option.some.inj e
        have hy := h y rfl
        rw [ha] at hy
        cases hy
      · intro e
        cases e

/-- The length of a sign, and of an exponent by the number of its digits. -/
def signLength (cs : List Char) : Nat := if cs.head? = some '+' ∨ cs.head? = some '-' then 1 else 0

def exponentOf (sign digits : Nat) : Nat := if digits = 0 then 0 else 1 + sign + digits

lemma exponentOf_le {sign m n : Nat} (h : m ≤ n) : exponentOf sign m ≤ exponentOf sign n := by
  unfold exponentOf
  split
  · exact Nat.zero_le _
  · split <;> omega

lemma signLength_le (cs : List Char) : signLength cs ≤ cs.length := sign_le cs

lemma exponentLength_cons (c : Char) (cs : List Char) : exponentLength (c :: cs) =
    if c = 'e' ∨ c = 'E' then
      exponentOf (signLength cs) ((cs.drop (signLength cs)).takeWhile (·.isDigit)).length
    else 0 := by
  by_cases hc : c = 'e' ∨ c = 'E'
  · rw [if_pos hc]
    simp only [exponentLength, if_pos hc]
    unfold signLength
    generalize (if cs.head? = some '+' ∨ cs.head? = some '-' then 1 else 0) = sign
    generalize ((cs.drop sign).takeWhile (·.isDigit)).length = n
    cases n with
    | zero => rfl
    | succ n => exact (if_neg (Nat.succ_ne_zero n)).symm
  · simp only [exponentLength, if_neg hc]

lemma StopsNumber.exponentLength_eq (h : StopsNumber s) (w : List Char) :
    exponentLength (w ++ s) = exponentLength w := by
  cases w with
  | nil =>
    cases s with
    | nil => rfl
    | cons y s =>
      have hy := h y rfl
      have hne : ¬ (y = 'e' ∨ y = 'E') := by
        rintro (rfl | rfl)
        · exact absurd hy (by decide)
        · exact absurd hy (by decide)
      rw [List.nil_append, exponentLength_cons, if_neg hne]
      rfl
  | cons b w =>
    have hsign : signLength (w ++ s) = signLength w := by
      have hp := h.head?_eq_iff (a := '+') (by decide) w
      have hm := h.head?_eq_iff (a := '-') (by decide) w
      simp only [signLength, hp, hm]
    have hd := h.takeWhile_eq (p := fun x => x.isDigit) (fun y => joinsMarks_of_isDigit)
      (w.drop (signLength w))
    rw [List.cons_append, exponentLength_cons, exponentLength_cons, hsign,
      List.drop_append_of_le_length (signLength_le w), hd]

lemma StopsNumber.numberLength_eq (h : StopsNumber s) (w : List Char) :
    numberLength (w ++ s) = numberLength w := by
  have hl : (w.takeWhile isDigitOrPoint).length ≤ w.length := (List.takeWhile_sublist _).length_le
  have ht := h.takeWhile_eq (p := isDigitOrPoint) (fun y => joinsMarks_of_isDigitOrPoint) w
  simp only [numberLength, ht]
  rw [List.drop_append_of_le_length hl, h.exponentLength_eq]

lemma length_takeWhile_le_append (p : Char → Bool) (w s : List Char) :
    (w.takeWhile p).length ≤ ((w ++ s).takeWhile p).length := by
  induction w with
  | nil => exact Nat.zero_le _
  | cons a w ih =>
    simp only [List.cons_append, List.takeWhile_cons]
    split
    · simpa using ih
    · exact Nat.le_refl _

/-- An exponent that is there without what follows it is there with it. -/
lemma exponentLength_le_append (w s : List Char) : exponentLength w ≤ exponentLength (w ++ s) := by
  cases w with
  | nil => exact Nat.zero_le _
  | cons b w =>
    rw [List.cons_append, exponentLength_cons, exponentLength_cons]
    split
    · cases w with
      | nil => exact Nat.zero_le _
      | cons x w =>
        have hsign : signLength (x :: w ++ s) = signLength (x :: w) := rfl
        rw [hsign, List.drop_append_of_le_length (signLength_le _)]
        exact exponentOf_le (length_takeWhile_le_append _ _ _)
    · exact Nat.le_refl _

lemma exponentLength_cut (h : exponentLength (w ++ s) ≤ w.length) :
    exponentLength w = exponentLength (w ++ s) := by
  cases w with
  | nil => exact (Nat.le_zero.1 h).symm
  | cons b w =>
    have hle := exponentLength_le_append (b :: w) s
    rw [List.cons_append, exponentLength_cons] at h hle ⊢
    rw [exponentLength_cons] at hle ⊢
    by_cases hb : b = 'e' ∨ b = 'E'
    · rw [if_pos hb] at h hle ⊢
      rw [if_pos hb] at hle ⊢
      cases w with
      | nil =>
        -- one character more than `e` would be needed
        have hz : exponentOf (signLength s) ((s.drop (signLength s)).takeWhile (·.isDigit)).length =
            0 := by
          unfold exponentOf at h ⊢
          split
          · rfl
          · next hn =>
            rw [List.nil_append, if_neg hn, List.length_singleton] at h
            omega
        rw [List.nil_append, hz]
        rfl
      | cons x w =>
        have hsign : signLength (x :: w ++ s) = signLength (x :: w) := rfl
        have hs := signLength_le (x :: w)
        rw [hsign, List.drop_append_of_le_length hs] at h ⊢
        by_cases hz : (((x :: w).drop (signLength (x :: w)) ++ s).takeWhile (·.isDigit)).length = 0
        · have hz' := length_takeWhile_le_append (·.isDigit) ((x :: w).drop (signLength (x :: w))) s
          rw [hz] at hz' ⊢
          rw [Nat.le_zero.1 hz']
        · have hlen : (((x :: w).drop (signLength (x :: w)) ++ s).takeWhile (·.isDigit)).length ≤
              ((x :: w).drop (signLength (x :: w))).length := by
            rw [exponentOf, if_neg hz, List.length_cons] at h
            rw [List.length_drop]
            omega
          rw [Text.takeWhile_of_append hlen]
    · rw [if_neg hb, if_neg hb]

lemma numberLength_cut (h : numberLength (w ++ s) ≤ w.length) :
    numberLength w = numberLength (w ++ s) := by
  have hm : ((w ++ s).takeWhile isDigitOrPoint).length ≤ w.length := by
    simp only [numberLength] at h
    omega
  have ht := Text.takeWhile_of_append hm
  simp only [numberLength, ← ht] at h ⊢
  have hl : (w.takeWhile isDigitOrPoint).length ≤ w.length := (List.takeWhile_sublist _).length_le
  rw [List.drop_append_of_le_length hl] at h ⊢
  rw [exponentLength_cut]
  rw [List.length_drop]
  omega

/-! ### Reading a lexeme again -/

lemma head?_append_cases (w s : List Char) :
    w = [] ∧ (w ++ s).head? = s.head? ∨ w ≠ [] ∧ ∀ s', (w ++ s').head? = (w ++ s).head? := by
  cases w with
  | nil => exact .inl ⟨rfl, rfl⟩
  | cons a w => exact .inr ⟨List.cons_ne_nil a w, fun _ => rfl⟩

lemma length_takeWhile_pos {p : Char → Bool} {cs : List Char} (h : cs.head?.any p) :
    0 < (cs.takeWhile p).length := by
  cases cs with
  | nil => cases h
  | cons x cs =>
    have hx : p x := h
    rw [List.takeWhile_cons, if_pos hx, List.length_cons]
    omega

lemma at?_eq_none_iff : Placeholder.at? before c w = none ↔
    ¬ (c = '?' ∧ before ≠ some '?' ∧ before ≠ some ':') ∧
      ¬ (c = ':' ∧ before ≠ some ':' ∧ w.head?.any Placeholder.beginsName) := by
  unfold Placeholder.at?
  split
  · next h => simp [h]
  · next h =>
    split
    · next h' => simp [h']
    · next h' => simp [h, h']

lemma at?_eq_positional_iff : Placeholder.at? before c w = some .positional ↔
    c = '?' ∧ before ≠ some '?' ∧ before ≠ some ':' := by
  unfold Placeholder.at?
  split
  · next h => simp [h]
  · next h =>
    split
    · simp [h]
    · simp [h]

lemma at?_eq_named_iff {name : String} : Placeholder.at? before c w = some (.named name) ↔
    (c = ':' ∧ before ≠ some ':' ∧ w.head?.any Placeholder.beginsName) ∧
      name = String.ofList (w.takeWhile Placeholder.continuesName) := by
  unfold Placeholder.at?
  split
  · next h =>
    obtain ⟨rfl, -⟩ := h
    constructor
    · intro e
      cases e
    · rintro ⟨⟨e, -⟩, -⟩
      exact absurd e (by decide)
  · split
    · next h => simp [h, eq_comm]
    · next h =>
      constructor
      · intro e
        cases e
      · exact fun e => absurd e.1 h

lemma any_head?_of_noLonger {p : Char → Bool} (hs : ∀ y ∈ s'.head?, p y → s.head?.any p)
    (h : (w ++ s').head?.any p) : (w ++ s).head?.any p := by
  cases w with
  | cons a w => exact h
  | nil =>
    cases s' with
    | nil => cases h
    | cons y s' => exact hs y rfl h

lemma beginsNumber_eq (hle : beginsNumber c (w ++ s) → numberLength (w ++ s) ≤ w.length)
    (hs : StopsNumber s') : beginsNumber c (w ++ s') = beginsNumber c (w ++ s) := by
  cases w with
  | cons a w => rfl
  | nil =>
    -- nothing is in front, so a point would need a digit directly behind it
    have hz : ∀ x, (x = s ∨ x = s') → (c == '.' && x.head?.any (·.isDigit)) = false := by
      rintro x (rfl | rfl)
      -- a digit would make the number longer than what is in front of it
      · by_contra hx
        have hx : (c == '.' && x.head?.any (·.isDigit)) = true := by simpa using hx
        have hb : beginsNumber c ([] ++ x) := by
          rw [beginsNumber, List.nil_append, hx, Bool.or_true]
        have hle := hle hb
        have hd : x.head?.any isDigitOrPoint := by
          rw [Bool.and_eq_true] at hx
          cases x with
          | nil => exact absurd hx.2 (by simp)
          | cons y x =>
            have hy : y.isDigit := hx.2
            simp [isDigitOrPoint, hy]
        have hpos := length_takeWhile_pos hd
        rw [List.nil_append, numberLength, List.length_nil] at hle
        omega
      · cases x with
        | nil => simp
        | cons y x =>
          have hy : y.isDigit = false := by
            by_contra hy
            have hj := joinsMarks_of_isDigit (c := y) (by simpa using hy)
            rw [hs y rfl] at hj
            cases hj
          simp [hy]
    rw [beginsNumber, beginsNumber, List.nil_append, List.nil_append, hz s (.inl rfl),
      hz s' (.inr rfl)]

/-- A named placeholder stays where what stands behind it would not make it longer. -/
lemma at?_named_append {name : String}
    (hat : Placeholder.at? before c (w ++ s) = some (.named name))
    (hle : ((w ++ s).takeWhile Placeholder.continuesName).length ≤ w.length)
    (hs : ∀ y ∈ s'.head?, NoLonger s.head? y) :
    Placeholder.at? before c (w ++ s') = some (.named name) ∧
      (w ++ s').takeWhile Placeholder.continuesName =
        (w ++ s).takeWhile Placeholder.continuesName := by
  obtain ⟨⟨hc, hb, hany⟩, rfl⟩ := at?_eq_named_iff.1 hat
  have ht := Text.takeWhile_append_of_noLonger hle fun y hy => (hs y hy).name
  have hany' : (w ++ s').head?.any Placeholder.beginsName := by
    rcases head?_append_cases w s with ⟨rfl, -⟩ | ⟨-, e⟩
    · -- a name that begins behind the colon would be part of the lexeme
      have hname : (([] : List Char) ++ s).head?.any Placeholder.continuesName := by
        cases s with
        | nil => cases hany
        | cons x s => exact Placeholder.continuesName_of_beginsName hany
      have hpos := length_takeWhile_pos hname
      simp only [List.length_nil] at hle
      omega
    · rw [e s']
      exact hany
  exact ⟨at?_eq_named_iff.2 ⟨⟨hc, hb, hany'⟩, by rw [ht]⟩, ht⟩

/-- **A lexeme is read again** when what stands behind it would not make it longer. -/
theorem lexeme_append_of_noLonger (hle : (lexeme before c (w ++ s)).2 ≤ w.length)
    (hs : ∀ y ∈ s'.head?, NoLonger s.head? y) :
    lexeme before c (w ++ s') = lexeme before c (w ++ s) := by
  have hstop : StopsNumber s' := fun y hy => (hs y hy).apart
  unfold lexeme at hle ⊢
  cases hat : Placeholder.at? before c (w ++ s) with
  | some style =>
    rw [hat] at hle
    cases style with
    | positional => rw [at?_eq_positional_iff.2 (at?_eq_positional_iff.1 hat)]
    | named name =>
      obtain ⟨hat', ht⟩ := at?_named_append hat hle hs
      simp only [hat', ht]
  | none =>
    -- what joins no more than before starts no placeholder either
    have hat' : Placeholder.at? before c (w ++ s') = none := by
      obtain ⟨hq, hn⟩ := at?_eq_none_iff.1 hat
      refine at?_eq_none_iff.2 ⟨hq, fun h => hn ⟨h.1, h.2.1, ?_⟩⟩
      exact any_head?_of_noLonger (fun y hy => (hs y hy).begins) h.2.2
    simp only [hat, hat'] at hle ⊢
    -- a blank is taken alone; a word and a number take what goes on with them
    by_cases hblank : Text.isBlank c
    · rw [if_pos hblank, if_pos hblank]
    · rw [if_neg hblank] at hle ⊢
      rw [if_neg hblank]
      by_cases hword : beginsWord c
      · rw [if_pos hword] at hle ⊢
        rw [if_pos hword, Text.takeWhile_append_of_noLonger hle fun y hy => (hs y hy).word]
      · rw [if_neg hword] at hle ⊢
        rw [if_neg hword]
        have hnum : beginsNumber c (w ++ s) → numberLength (w ++ s) ≤ w.length := by
          intro hb
          rwa [if_pos hb] at hle
        rw [beginsNumber_eq hnum hstop]
        by_cases hb : beginsNumber c (w ++ s)
        · rw [if_pos hb, if_pos hb, hstop.numberLength_eq, numberLength_cut (hnum hb)]
        · rw [if_neg hb, if_neg hb]

/-- A lexeme is read from itself alone. -/
lemma lexeme_of_append (hle : (lexeme before c (w ++ s)).2 ≤ w.length) :
    lexeme before c w = lexeme before c (w ++ s) := by
  have h : lexeme before c (w ++ []) = _ := lexeme_append_of_noLonger hle nofun
  rwa [List.append_nil] at h

/-- The character in front of a lexeme matters to question marks and colons only. -/
lemma lexeme_congr_before {before' : Option Char}
    (hq : c = '?' →
      (before = some '?' ∨ before = some ':' ↔ before' = some '?' ∨ before' = some ':'))
    (hc : c = ':' → (before = some ':' ↔ before' = some ':')) (cs : List Char) :
    lexeme before c cs = lexeme before' c cs := by
  have hat : Placeholder.at? before c cs = Placeholder.at? before' c cs := by
    unfold Placeholder.at?
    by_cases h : c = '?'
    · have hq := hq h
      simp only [h, true_and, ← not_or, hq]
      simp
    · by_cases h' : c = ':'
      · have hc := hc h'
        simp only [h, false_and, if_false, ne_eq, hc]
      · simp only [h, h', false_and, if_false]
  unfold lexeme
  rw [hat]

end Token

/-! ### Inside a lexeme -/

/-- No opener starts in `cs`, where `s` stands behind it. -/
def Dialect.Unopened (d : Dialect) : List Char → List Char → Prop
  | [], _ => True
  | c :: cs, s => d.opener? (c :: (cs ++ s)) = none ∧ d.Unopened cs s

lemma Dialect.unopened_append {a b s : List Char} :
    d.Unopened (a ++ b) s ↔ d.Unopened a (b ++ s) ∧ d.Unopened b s := by
  induction a with
  | nil => simp [Unopened]
  | cons c a ih => simp only [List.cons_append, Unopened, List.append_assoc, ih, and_assoc]

lemma Dialect.Unopened.bareLength {cs s : List Char} (h : d.Unopened cs s) :
    d.bareLength (cs ++ s) = cs.length + d.bareLength s := by
  induction cs with
  | nil => simp
  | cons c cs ih =>
    rw [List.cons_append, Dialect.bareLength, h.1, ih h.2, List.length_cons]
    simp only [Option.isSome_none, Bool.false_eq_true, if_false]
    omega

/-- A character with which no opener starts. -/
def Token.opensNothing (c : Char) : Bool :=
  (Quote.ofChar? c).isNone && c != '-' && c != '/' && c != '#'

/-- A character with which neither an opener nor a placeholder starts. -/
def Token.isPlain (c : Char) : Bool := opensNothing c && c != '?' && c != ':'

lemma Dialect.opener?_of_opensNothing {c : Char} (h : Token.opensNothing c) (cs : List Char) :
    d.opener? (c :: cs) = none := by
  simp only [Token.opensNothing, Bool.and_eq_true, Option.isNone_iff_eq_none, bne_iff_ne] at h
  obtain ⟨⟨⟨hq, hm⟩, hs⟩, hh⟩ := h
  simp [opener?, hq, hm, hs, hh]

lemma Token.isPlain_iff {c : Char} : isPlain c = true ↔ opensNothing c ∧ c ≠ '?' ∧ c ≠ ':' := by
  simp [isPlain, and_assoc]

lemma Dialect.opener?_of_isPlain {c : Char} (h : Token.isPlain c) (cs : List Char) :
    d.opener? (c :: cs) = none :=
  opener?_of_opensNothing (Token.isPlain_iff.1 h).1 cs

lemma Dialect.unopened_of_isPlain {cs : List Char} (h : ∀ c ∈ cs, Token.isPlain c)
    (s : List Char) : d.Unopened cs s := by
  induction cs with
  | nil => trivial
  | cons c cs ih =>
    exact ⟨opener?_of_isPlain (h c List.mem_cons_self) _,
      ih fun x hx => h x (List.mem_cons_of_mem c hx)⟩

namespace Token

variable {w s cs : List Char} {before : Option Char} {c : Char}

/-- A class of characters without the marks of openers and placeholders is plain. -/
lemma isPlain_of_class {p : Char → Bool}
    (hp : ['\x27', '"', '\x60', '-', '/', '#', '?', ':'].all fun c => !p c) (h : p c) :
    isPlain c := by
  have hne : ∀ a ∈ ['\x27', '"', '\x60', '-', '/', '#', '?', ':'], c ≠ a := by
    rintro a ha rfl
    have hc := List.all_eq_true.1 hp c ha
    rw [h] at hc
    cases hc
  have hq : Quote.ofChar? c = none := by
    cases hq : Quote.ofChar? c with
    | none => rfl
    | some q =>
      obtain rfl := Quote.ofChar?_eq_some.1 hq
      cases q
      · exact absurd rfl (hne _ (by simp [Quote.char]))
      · exact absurd rfl (hne _ (by simp [Quote.char]))
      · exact absurd rfl (hne _ (by simp [Quote.char]))
  have ho : opensNothing c := by
    simp only [opensNothing, hq, Option.isNone_none, Bool.and_eq_true, bne_iff_ne, true_and]
    exact ⟨⟨hne '-' (by simp), hne '/' (by simp)⟩, hne '#' (by simp)⟩
  exact isPlain_iff.2 ⟨ho, hne '?' (by simp), hne ':' (by simp)⟩

lemma isPlain_of_continuesWord (h : continuesWord c) : isPlain c :=
  isPlain_of_class (p := continuesWord) (by decide) h

lemma isPlain_of_continuesName (h : Placeholder.continuesName c) : isPlain c :=
  isPlain_of_class (p := Placeholder.continuesName) (by decide) h

lemma isPlain_of_isDigitOrPoint (h : isDigitOrPoint c) : isPlain c :=
  isPlain_of_class (p := isDigitOrPoint) (by decide) h

/-- What a lexeme of a class reaches through is of that class. -/
lemma forall_of_length_takeWhile_eq {p : Char → Bool}
    (h : ((cs ++ s).takeWhile p).length = cs.length) : ∀ x ∈ cs, p x := by
  have hpre : (cs ++ s).takeWhile p <+: cs ++ s := List.takeWhile_prefix p
  have e : (cs ++ s).takeWhile p = cs := by
    rw [List.prefix_iff_eq_take.1 hpre, h, List.take_left]
  intro x hx
  rw [← e] at hx
  exact List.mem_takeWhile_imp hx

lemma take_exponentLength (cs : List Char) : cs.take (exponentLength cs) = [] ∨
    ∃ e sign digits, cs.take (exponentLength cs) = e :: (sign ++ digits) ∧ (e = 'e' ∨ e = 'E') ∧
      (sign = [] ∨ sign = ['+'] ∨ sign = ['-']) ∧ digits ≠ [] ∧ ∀ x ∈ digits, x.isDigit := by
  cases cs with
  | nil => exact .inl rfl
  | cons e cs =>
    rw [exponentLength_cons]
    by_cases he : e = 'e' ∨ e = 'E'
    · rw [if_pos he, exponentOf]
      -- without a digit behind the sign there is no exponent
      by_cases hn : ((cs.drop (signLength cs)).takeWhile (·.isDigit)).length = 0
      · rw [if_pos hn]
        exact .inl rfl
      · rw [if_neg hn]
        right
        refine ⟨e, cs.take (signLength cs), (cs.drop (signLength cs)).takeWhile (·.isDigit), ?_, he,
          ?_, ?_, ?_⟩
        · rw [Nat.add_assoc, Nat.add_comm 1, List.take_succ_cons, List.take_add,
            Text.take_length_takeWhile]
        · unfold signLength
          split
          · next h =>
            cases cs with
            | nil => simp at h
            | cons x cs =>
              right
              rcases h with h | h
              · exact .inl (by rw [Option.some.inj h]; rfl)
              · exact .inr (by rw [Option.some.inj h]; rfl)
          · exact .inl rfl
        · exact fun h => hn (by rw [h]; rfl)
        · exact fun x hx => List.mem_takeWhile_imp hx
    · rw [if_neg he]
      exact .inl rfl

lemma isPlain_of_isDigit (h : c.isDigit) : isPlain c :=
  isPlain_of_isDigitOrPoint (by simp [isDigitOrPoint, h])

/-- Neither an opener nor a placeholder starts in an exponent: its sign stands before a digit. -/
lemma unopened_exponent {x : List Char}
    (hx : x = [] ∨ ∃ e sign digits, x = e :: (sign ++ digits) ∧ (e = 'e' ∨ e = 'E') ∧
      (sign = [] ∨ sign = ['+'] ∨ sign = ['-']) ∧ digits ≠ [] ∧ ∀ a ∈ digits, a.isDigit)
    (s : List Char) : d.Unopened x s ∧ ∀ a ∈ x, a ≠ '?' ∧ a ≠ ':' := by
  have hplain : ∀ a, isPlain a → a ≠ '?' ∧ a ≠ ':' := fun a ha => (isPlain_iff.1 ha).2
  rcases hx with rfl | ⟨e, sign, digits, rfl, he, hs, hne, hd⟩
  · exact ⟨trivial, nofun⟩
  · have hep : isPlain e := by
      rcases he with rfl | rfl
      · decide
      · decide
    have hdp : ∀ a ∈ digits, isPlain a := fun a ha => isPlain_of_isDigit (hd a ha)
    -- a minus sign is no dash of a comment, as a digit follows
    have hsign : d.Unopened sign (digits ++ s) ∧ ∀ a ∈ sign, a ≠ '?' ∧ a ≠ ':' := by
      rcases hs with rfl | rfl | rfl
      · exact ⟨trivial, nofun⟩
      · exact ⟨⟨Dialect.opener?_of_isPlain (by decide) _, trivial⟩,
          List.forall_mem_singleton.2 (by decide)⟩
      · obtain ⟨x, digits, rfl⟩ := List.exists_cons_of_ne_nil hne
        have hx : x ≠ '-' := by
          rintro rfl
          exact absurd (hd '-' List.mem_cons_self) (by decide)
        refine ⟨⟨?_, trivial⟩, List.forall_mem_singleton.2 (by decide)⟩
        have hq : Quote.ofChar? '-' = none := by decide
        simp [Dialect.opener?, hq, hx]
    refine ⟨⟨Dialect.opener?_of_isPlain hep _, ?_⟩, ?_⟩
    · exact Dialect.unopened_append.2 ⟨hsign.1, Dialect.unopened_of_isPlain hdp s⟩
    · intro a ha
      rcases List.mem_cons.1 ha with rfl | ha
      · exact hplain a hep
      · rcases List.mem_append.1 ha with ha | ha
        · exact hsign.2 a ha
        · exact hplain a (hdp a ha)

/-- **Neither an opener nor a placeholder starts inside a lexeme.** -/
theorem lexeme_inside (h : (lexeme before c (cs ++ s)).2 = cs.length) :
    d.Unopened cs s ∧ ∀ x ∈ cs, x ≠ '?' ∧ x ≠ ':' := by
  have hplain : (∀ x ∈ cs, isPlain x) → d.Unopened cs s ∧ ∀ x ∈ cs, x ≠ '?' ∧ x ≠ ':' := by
    intro hp
    exact ⟨Dialect.unopened_of_isPlain hp s, fun x hx => (isPlain_iff.1 (hp x hx)).2⟩
  have hnil : 0 = cs.length → d.Unopened cs s ∧ ∀ x ∈ cs, x ≠ '?' ∧ x ≠ ':' := by
    intro e
    obtain rfl := List.eq_nil_of_length_eq_zero e.symm
    exact ⟨trivial, nofun⟩
  -- the lexeme is one character, a name, a word or a number
  unfold lexeme at h
  split at h
  · exact hnil h
  · exact hplain fun x hx => isPlain_of_continuesName (forall_of_length_takeWhile_eq h x hx)
  · split at h
    · exact hnil h
    · split at h
      · exact hplain fun x hx => isPlain_of_continuesWord (forall_of_length_takeWhile_eq h x hx)
      · split at h
        · -- digits and points, then an exponent
          have h : numberLength (cs ++ s) = cs.length := h
          have e : cs = (cs ++ s).take (numberLength (cs ++ s)) := by rw [h, List.take_left]
          unfold numberLength at e
          simp only at e
          rw [List.take_add, Text.take_length_takeWhile] at e
          have hx := unopened_exponent (d := d) (take_exponentLength
            ((cs ++ s).drop ((cs ++ s).takeWhile isDigitOrPoint).length)) s
          generalize List.take _ (List.drop _ _) = x at e hx
          have hm : ∀ a ∈ (cs ++ s).takeWhile isDigitOrPoint, isPlain a := fun a ha =>
            isPlain_of_isDigitOrPoint (List.mem_takeWhile_imp ha)
          generalize (cs ++ s).takeWhile isDigitOrPoint = m at e hm
          subst e
          refine ⟨Dialect.unopened_append.2 ⟨Dialect.unopened_of_isPlain hm _, hx.1⟩, ?_⟩
          intro a ha
          rcases List.mem_append.1 ha with ha | ha
          · exact (isPlain_iff.1 (hm a ha)).2
          · exact hx.2 a ha
        · exact hnil h

end Token

end QueryGuard
