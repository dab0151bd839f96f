import QueryGuard.Binding.Literal
import QueryGuard.Proofs.Guard.Message
import QueryGuard.Suggestion.Bind

/-!
# The values of literals

* `Value.ofLiteral_quoted`: a text between quotes, with the quotes in it doubled, denotes the text;
* `Value.ofLiteral_signed`: digits, with a sign or without, denote their integer;
* `Value.ofLiteral_apart`: a sign with anything but a digit, a letter or a point behind it denotes
  no number.

The code that binds a value tells a string from an integer (`Bind.value_string_ne_int`), and a string
from the same with its backslashes doubled (`Bind.value_double_iff`).
-/

namespace QueryGuard

namespace Literal

/-! ### Doubled marks -/

variable {q : Char} {cs : List Char}

lemma double_of_notMem (h : q ∉ cs) : double q cs = cs := by
  induction cs with
  | nil => rfl
  | cons c cs ih =>
    rw [List.mem_cons, not_or] at h
    rw [double, if_neg (Ne.symm h.1), ih h.2]

/-! ### Integers -/

/-- The integer that digits write behind a sign. -/
def signed (sign digits : List Char) : Int :=
  if sign = ['-'] then -(Text.decimalValue digits : Int) else Text.decimalValue digits

/-- A sign, or none. -/
def IsSign (sign : List Char) : Prop := sign = [] ∨ sign = ['+'] ∨ sign = ['-']

variable {sign digits : List Char}

/-- Digits are read to their end. -/
lemma takeWhile1_digits (hne : digits ≠ []) (hd : ∀ c ∈ digits, c.isDigit) :
    Text.Reader.takeWhile1 Char.isDigit digits = some (digits, []) := by
  have htake : digits.takeWhile Char.isDigit = digits := List.takeWhile_eq_self_iff.2 hd
  have hdrop : digits.dropWhile Char.isDigit = [] := List.dropWhile_eq_nil_iff.2 hd
  rw [Text.Reader.takeWhile1, htake, hdrop]
  cases digits with
  | nil => exact absurd rfl hne
  | cons c cs => rfl

lemma integer_signed (hs : IsSign sign) (hne : digits ≠ []) (hd : ∀ c ∈ digits, c.isDigit) :
    integer (sign ++ digits) = some (signed sign digits, []) := by
  have hread := takeWhile1_digits hne hd
  rcases hs with rfl | rfl | rfl
  · cases digits with
    | nil => exact absurd rfl hne
    | cons c cs =>
      have hc := hd c List.mem_cons_self
      have hsign : (c == '+' || c == '-') = false := by
        by_contra h
        rw [Bool.not_eq_false, Bool.or_eq_true, beq_iff_eq, beq_iff_eq] at h
        rcases h with rfl | rfl <;> exact absurd hc (by decide)
      simp [integer, bind, Text.Reader.bind, Text.Reader.optional, Text.Reader.satisfy, hsign,
        hread, pure, Text.Reader.pure, signed]
  · simp [integer, bind, Text.Reader.bind, Text.Reader.optional, Text.Reader.satisfy, hread, pure,
      Text.Reader.pure, signed]
  · simp [integer, bind, Text.Reader.bind, Text.Reader.optional, Text.Reader.satisfy, hread, pure,
      Text.Reader.pure, signed]

theorem number?_signed (hs : IsSign sign) (hne : digits ≠ []) (hd : ∀ c ∈ digits, c.isDigit)
    (h : isInt64 (signed sign digits)) :
    number? (sign ++ digits) = some (.int (signed sign digits)) := by
  have hwhole : Text.Reader.whole integer (sign ++ digits) = some (signed sign digits) := by
    rw [Text.Reader.whole, integer_signed hs hne hd]
  rw [number?, hwhole, Option.filter_some, if_pos h]

/-- A character that no number goes on with behind a sign. -/
def endsSign (c : Char) : Bool := !c.isDigit && !c.isAlpha && c != '.'

/-- Behind a sign there is no number where neither digits, a point nor a word begins. -/
theorem number?_apart {s c : Char} (hs : s = '+' ∨ s = '-') (hc : endsSign c) (cs : List Char) :
    number? (s :: c :: cs) = none := by
  simp only [endsSign, Bool.and_eq_true, Bool.not_eq_true', bne_iff_ne] at hc
  obtain ⟨⟨hdigit, halpha⟩, hpoint⟩ := hc
  have hsign : (s == '+' || s == '-') = true := by
    rcases hs with rfl | rfl <;> decide
  have hword : numberWord? [] = none := by decide
  have hinteger : integer (s :: c :: cs) = none := by
    simp [integer, bind, Text.Reader.bind, Text.Reader.optional, Text.Reader.satisfy, hsign,
      Text.Reader.takeWhile1, hdigit]
  have hspecial : special (s :: c :: cs) = none := by
    simp [special, bind, Text.Reader.bind, Text.Reader.optional, Text.Reader.satisfy, hsign,
      Text.Reader.takeWhile, halpha, hword, Text.Reader.ofOption, Text.Reader.fail]
  have hdecimal : decimal (s :: c :: cs) = none := by
    simp [decimal, bind, Text.Reader.bind, Text.Reader.optional, Text.Reader.satisfy, hsign,
      Text.Reader.takeWhile, hdigit, Text.Reader.char, hpoint, Text.Reader.require,
      Text.Reader.fail, pure, Text.Reader.pure]
  simp [number?, Text.Reader.whole, hinteger, Text.Reader.orElse, hspecial, hdecimal]

end Literal

/-! ### What literals denote -/

namespace Value

/-- A content between quotes, with the quotes in it doubled, is read back. -/
theorem ofLiteral_quoted (content : List Char) :
    ofLiteral (Quote.single.char ::
        (Literal.double Quote.single.char content ++ [Quote.single.char])) =
      .string (String.ofList content) := by
  have hdrop : Literal.dropClosing Quote.single.char
      (Literal.double Quote.single.char content ++ [Quote.single.char]) =
        Literal.double Quote.single.char content := by
    rw [Literal.dropClosing, if_pos (List.getLast?_concat ..), List.dropLast_concat]
  have hbody : Literal.body Quote.single.char
      (Literal.double Quote.single.char content ++ [Quote.single.char]) = content := by
    rw [Literal.body, hdrop, Literal.undouble_double]
  rw [ofLiteral, if_pos (.inl rfl)]
  exact congrArg (fun cs => Value.string (String.ofList cs)) hbody

theorem ofLiteral_signed {sign digits : List Char} (hs : Literal.IsSign sign) (hne : digits ≠ [])
    (hd : ∀ c ∈ digits, c.isDigit) (h : isInt64 (Literal.signed sign digits)) :
    ofLiteral (sign ++ digits) = .int (Literal.signed sign digits) := by
  have hnumber := Literal.number?_signed hs hne hd h
  obtain ⟨c, cs, hcs⟩ : ∃ c cs, sign ++ digits = c :: cs :=
    List.exists_cons_of_ne_nil (by simp [hne])
  have hmark : ¬ (c = '\x27' ∨ c = '"') := by
    have hc : c ∈ sign ++ digits := hcs ▸ List.mem_cons_self
    rintro (rfl | rfl)
    all_goals
      rcases List.mem_append.1 hc with hc | hc
      · rcases hs with rfl | rfl | rfl <;> exact absurd hc (by decide)
      · exact absurd (hd _ hc) (by decide)
  rw [hcs] at hnumber ⊢
  rw [ofLiteral, if_neg hmark, hnumber, Option.getD_some]

theorem ofLiteral_apart {s c : Char} (hs : s = '+' ∨ s = '-') (hc : Literal.endsSign c)
    (cs : List Char) : ofLiteral (s :: c :: cs) = .string (String.ofList (s :: c :: cs)) := by
  have hmark : ¬ (s = '\x27' ∨ s = '"') := by rcases hs with rfl | rfl <;> decide
  rw [ofLiteral, if_neg hmark, Literal.number?_apart hs hc, Option.getD_none]

end Value

/-! ### The code that binds a value -/

namespace Bind

/-- Every backslash more makes the code for a string longer. -/
lemma length_escape_double (cs : List Char) :
    ((Literal.double '\\' cs).flatMap Text.escapeChar).length =
      (cs.flatMap Text.escapeChar).length + 2 * cs.count '\\' := by
  have hescape : Text.escapeChar '\\' = ['\\', '\\'] := by decide
  induction cs with
  | nil => rfl
  | cons c cs ih =>
    rw [Literal.double]
    split
    · next h =>
      subst h
      simp only [List.flatMap_cons, List.length_append, ih, hescape, List.count_cons_self,
        List.length_cons, List.length_nil]
      omega
    · next h =>
      simp only [List.flatMap_cons, List.length_append, ih, List.count_cons_of_ne h]
      omega

/-- With its backslashes doubled a string is bound as itself only where there are none. -/
theorem value_double_iff (s : String) :
    value (.string (String.ofList (Literal.double '\\' s.toList))) = value (.string s) ↔
      '\\' ∉ s.toList := by
  constructor
  · intro h
    have hexpr := congrArg (fun b => b.expr.toList.length) h
    simp only [value, literal, Text.toList_quoted, String.toList_ofList, List.length_cons,
      List.length_append, length_escape_double] at hexpr
    exact List.count_eq_zero.1 (by omega)
  · intro h
    rw [Literal.double_of_notMem h, String.ofList_toList]

theorem value_string_ne_int (s : String) (n : Int) : value (.string s) ≠ value (.int n) := by
  intro h
  have hexpr := congrArg (fun b => b.expr.toList.head?) h
  simp only [value, literal, Text.toList_quoted, List.head?_cons] at hexpr
  have hmem : '"' ∈ (toString n).toList := List.mem_of_head? hexpr.symm
  have hdigits : ∀ m : Nat, '"' ∉ Nat.toDigits 10 m := fun m hm =>
    absurd (Nat.isDigit_of_mem_toDigits (by decide) (by decide) hm) (by decide)
  cases n with
  | ofNat m =>
    have htext : (toString (Int.ofNat m)).toList = Nat.toDigits 10 m := Text.toList_toString m
    exact hdigits m (htext ▸ hmem)
  | negSucc m =>
    have htext : (toString (Int.negSucc m)).toList = '-' :: Nat.toDigits 10 (m + 1) := by
      rw [← Text.toList_toString]
      exact String.toList_append
    rw [htext] at hmem
    rcases List.mem_cons.1 hmem with h | h
    · exact absurd h (by decide)
    · exact hdigits _ h

end Bind

end QueryGuard
