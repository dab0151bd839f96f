import Mathlib.Data.List.Basic
import Mathlib.Tactic.Lemma
import QueryGuard.Guard
import QueryGuard.Proofs.Sql.Lexing

/-!
What the messages of findings tell apart. A quoted text is told from what stands in front of it by
its quotes, since a quote inside it stands behind a backslash. Main statements: the message on a
bound string tells the key and the check, that on a row its number, and that on a literal the
literal.
-/

namespace QueryGuard

/-! ### Numbers and quoted texts -/

namespace Text

lemma toDigits_injective {m n : Nat} (h : Nat.toDigits 10 m = Nat.toDigits 10 n) : m = n := by
  have hvalues := congrArg (Nat.ofDigitChars 10 · 0) h
  simpa only [Nat.ofDigitChars_ten_toDigits] using hvalues

lemma toList_toString (n : Nat) : (toString n).toList = Nat.toDigits 10 n := by
  rw [Nat.toString_eq_ofList_toDigits, String.toList_ofList]

lemma quote_notMem_toDigits (n : Nat) : '"' ∉ Nat.toDigits 16 n := by
  have hdigit : ∀ d < 16, '"' ≠ Nat.digitChar d := by decide
  induction n using Nat.strongRecOn with
  | ind n ih =>
    rw [Nat.toDigits_eq_if (by decide)]
    split
    · next h => exact mt List.mem_singleton.1 (hdigit n h)
    · next h =>
      rw [List.mem_append, not_or]
      exact ⟨ih _ (Nat.div_lt_self (by omega) (by decide)),
        mt List.mem_singleton.1 (hdigit _ (Nat.mod_lt n (by decide)))⟩

lemma quote_notMem_escapeChar {c : Char} (h : c ≠ '"') : '"' ∉ escapeChar c := by
  unfold escapeChar
  iterate 5
    split
    · decide
  split
  · rw [List.mem_append, List.mem_append, not_or, not_or]
    exact ⟨⟨by decide, quote_notMem_toDigits c.toNat⟩, by decide⟩
  · exact mt List.mem_singleton.1 h.symm

lemma getLast?_of_escapeChar {c : Char} {xs ys : List Char}
    (h : escapeChar c = xs ++ '"' :: ys) : xs.getLast? = some '\\' := by
  by_cases hc : c = '"'
  · have hq : escapeChar c = ['\\', '"'] := by
      rw [hc]
      rfl
    rw [hq] at h
    rcases xs with _ | ⟨x, _ | ⟨y, xs⟩⟩
    · cases h
    · rw [(List.cons.inj h).1]
      rfl
    · simp at h
  · exact absurd (h ▸ List.mem_append_right xs List.mem_cons_self) (quote_notMem_escapeChar hc)

/-- A quote in an escaped text stands behind a backslash. -/
lemma getLast?_of_escaped {cs xs ys : List Char} (h : cs.flatMap escapeChar = xs ++ '"' :: ys) :
    xs.getLast? = some '\\' := by
  induction cs generalizing xs with
  | nil => simp at h
  | cons c cs ih =>
    rw [List.flatMap_cons] at h
    rcases List.append_eq_append_iff.1 h with ⟨zs, rfl, hzs⟩ | ⟨zs, hc, hzs⟩
    · rw [List.getLast?_append, ih hzs]
      rfl
    · cases zs with
      | nil => exact absurd (@ih [] hzs.symm) (by simp)
      | cons z zs =>
        obtain ⟨rfl, -⟩ := List.cons.inj hzs
        exact getLast?_of_escapeChar hc

lemma toList_quoted (s : String) :
    (quoted s).toList = '"' :: (s.toList.flatMap escapeChar ++ ['"']) := by
  rw [quoted, String.toList_ofList, List.cons_append]

/-- A quoted text is not the end of another behind a blank. -/
lemma append_quoted_ne {cs : List Char} (hcs : cs.getLast? = some ' ') (s t : String) :
    cs ++ (quoted s).toList ≠ (quoted t).toList := by
  intro h
  rw [toList_quoted, toList_quoted] at h
  rcases cs with _ | ⟨c, _ | ⟨d, cs⟩⟩
  · cases hcs
  · obtain rfl : c = ' ' := Option.some.inj hcs
    exact absurd (List.cons.inj h).1 (by decide)
  · have hbody : (d :: cs ++ '"' :: s.toList.flatMap escapeChar) ++ ['"'] =
        t.toList.flatMap escapeChar ++ ['"'] := by
      rw [List.append_assoc]
      exact (List.cons.inj h).2
    have hlast := getLast?_of_escaped (List.append_cancel_right hbody).symm
    rw [List.getLast?_cons_cons, hlast] at hcs
    cases hcs

/-- Where quoted texts end two equal texts, each behind a blank, what stands in front of them is
equal. -/
lemma eq_of_append_quoted {as bs : List Char} {s t : String} (ha : as.getLast? = some ' ')
    (hb : bs.getLast? = some ' ') (h : as ++ (quoted s).toList = bs ++ (quoted t).toList) :
    as = bs := by
  rcases List.append_eq_append_iff.1 h with ⟨cs, rfl, hcs⟩ | ⟨cs, rfl, hcs⟩
  · rcases List.eq_nil_or_concat' cs with rfl | ⟨ds, d, rfl⟩
    · rw [List.append_nil]
    · rw [← List.append_assoc, List.getLast?_concat] at hb
      refine absurd hcs.symm (append_quoted_ne ?_ t s)
      rw [List.getLast?_concat, hb]
  · rcases List.eq_nil_or_concat' cs with rfl | ⟨ds, d, rfl⟩
    · rw [List.append_nil]
    · rw [← List.append_assoc, List.getLast?_concat] at ha
      refine absurd hcs.symm (append_quoted_ne ?_ s t)
      rw [List.getLast?_concat, ha]

end Text

/-! ### Bound strings -/

lemma ParamKey.text_injective {key key' : ParamKey} (h : key.text = key'.text) : key = key' := by
  have hmarks : ∀ (i : Nat) (n : String), (index i).text ≠ (name n).text := by
    intro i n he
    have he := congrArg String.toList he
    rw [text, text, String.toList_append, String.toList_append] at he
    exact absurd (List.cons.inj he).1 (by decide)
  cases key with
  | index i =>
    cases key' with
    | index j =>
      have hdigits := congrArg String.toList ((String.append_right_inj "#").1 h)
      rw [Text.toList_toString, Text.toList_toString] at hdigits
      rw [Nat.succ.inj (Text.toDigits_injective hdigits)]
    | name n => exact absurd h (hmarks i n)
  | name n =>
    cases key' with
    | index j => exact absurd h.symm (hmarks j n)
    | name m => rw [(String.append_right_inj ":").1 h]

namespace Injection

/-- The check as a message shows it. -/
def remark (check : Check) : String := "(" ++ check.name ++ "): "

/-- What stands in front of the quoted string of a message. -/
def preface (key : ParamKey) (check : Check) : String :=
  "Parameter " ++ (key.text ++ (" looks like SQL injection " ++ remark check))

lemma message_finding (key : ParamKey) (s : String) (check : Check) :
    (finding key s check).message = preface key check ++ Text.quoted (excerpt s) := by
  have hjoin : " looks like SQL injection (" = " looks like SQL injection " ++ "(" := by
    decide +kernel
  show "Parameter " ++ key.text ++ " looks like SQL injection (" ++ check.name ++ "): " ++
    Text.quoted (excerpt s) = _
  simp only [preface, remark, hjoin, String.append_assoc]

lemma eq_of_suffix_remark {check check' : Check}
    (h : (remark check).toList <:+ (remark check').toList) : check = check' := by
  rw [← List.isSuffixOf_iff_suffix] at h
  revert h
  cases check <;> cases check' <;> decide +kernel

lemma suffix_preface (key : ParamKey) (check : Check) :
    (remark check).toList <:+ (preface key check).toList := by
  simp only [preface, String.toList_append, ← List.append_assoc]
  exact List.suffix_append _ _

lemma getLast?_preface (key : ParamKey) (check : Check) :
    (preface key check).toList.getLast? = some ' ' := by
  have hblank : "): ".toList = [')', ':', ' '] := by decide +kernel
  simp only [preface, remark, String.toList_append, List.getLast?_append, hblank]
  rfl

/-- **The message on a bound string tells the key and the check.** -/
theorem eq_of_message_finding {key key' : ParamKey} {s s' : String} {check check' : Check}
    (h : (finding key s check).message = (finding key' s' check').message) :
    key = key' ∧ check = check' := by
  have hlists := congrArg String.toList h
  rw [message_finding, message_finding, String.toList_append, String.toList_append] at hlists
  have hfront := Text.eq_of_append_quoted (getLast?_preface key check)
    (getLast?_preface key' check') hlists
  -- of the two remarks one ends with the other, so they are on the same check
  have hcheck : check = check' := by
    rcases List.suffix_or_suffix_of_suffix (suffix_preface key check)
      (hfront ▸ suffix_preface key' check') with hs | hs
    · exact eq_of_suffix_remark hs
    · exact (eq_of_suffix_remark hs).symm
  subst hcheck
  have hkeys := (String.append_right_inj _).1 (String.toList_inj.1 hfront)
  exact ⟨ParamKey.text_injective ((String.append_left_inj _).1 hkeys), rfl⟩

end Injection

/-! ### Rows and literals -/

namespace Reconciliation

/-- What stands in front of the number of a row in a message does not depend on the row. -/
lemma exists_message_row {s : Statement} (hrows : 1 < s.valueRows.length) (columns : List String) :
    ∃ front : String, ∀ (i : Nat) (r : ValueRow), ∃ rest : String,
      (row s columns i r).message = front ++ (toString (i + 1) ++ (" " ++ rest)) := by
  have hjoin : " has " = " " ++ "has " := by decide +kernel
  refine ⟨"INSERT into " ++ s.table.getD "the table" ++ " lists " ++
    plural columns.length "column" ++ " but " ++ "VALUES row ", fun i r => ?_⟩
  refine ⟨"has " ++ plural r.entries.length
    (if r.isAllPlaceholders then "placeholder" else "value"), ?_⟩
  unfold row
  rw [if_pos hrows]
  show "INSERT into " ++ s.table.getD "the table" ++ " lists " ++ plural columns.length "column" ++
    " but " ++ ("VALUES row " ++ toString (i + 1)) ++ " has " ++ plural r.entries.length
      (if r.isAllPlaceholders then "placeholder" else "value") = _
  rw [hjoin]
  simp only [String.append_assoc]

lemma takeWhile_toDigits (n : Nat) (cs : List Char) :
    (Nat.toDigits 10 n ++ ' ' :: cs).takeWhile Char.isDigit = Nat.toDigits 10 n := by
  rw [Text.takeWhile_append_cons (by decide), List.takeWhile_eq_self_iff]
  exact fun c hc => Nat.isDigit_of_mem_toDigits (by decide) (by decide) hc

/-- **The message on one of several rows tells its number.** -/
theorem eq_of_message_row {s : Statement} {columns : List String} {i j : Nat} {r r' : ValueRow}
    (hrows : 1 < s.valueRows.length)
    (h : (row s columns i r).message = (row s columns j r').message) : i = j := by
  have hblank : " ".toList = [' '] := by decide +kernel
  obtain ⟨front, hfront⟩ := exists_message_row hrows columns
  obtain ⟨rest, hr⟩ := hfront i r
  obtain ⟨rest', hr'⟩ := hfront j r'
  rw [hr, hr', String.append_right_inj, ← String.toList_inj] at h
  simp only [String.toList_append, Text.toList_toString, hblank, List.singleton_append] at h
  have hdigits := congrArg (List.takeWhile Char.isDigit) h
  rw [takeWhile_toDigits, takeWhile_toDigits] at hdigits
  exact Nat.succ.inj (Text.toDigits_injective hdigits)

end Reconciliation

lemma SqlText.message_literalFinding_inj {t : SqlText} {a b : Span} :
    (t.literalFinding a).message = (t.literalFinding b).message ↔
      t.slice a.start a.stop = t.slice b.start b.stop := by
  show "Hardcoded value " ++ _ ++ _ = "Hardcoded value " ++ _ ++ _ ↔ _
  rw [String.append_left_inj, String.append_right_inj, String.ofList_inj]

end QueryGuard
