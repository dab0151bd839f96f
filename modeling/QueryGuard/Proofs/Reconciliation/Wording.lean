import QueryGuard.Proofs.Guard.Message
import QueryGuard.Proofs.Reconciliation.Names
import QueryGuard.Proofs.Sql.Parts

/-!
What the findings of a comparison say in words. Main statements: the finding on missing values tells
how many are expected and given, and the finding on missing names tells these names.
-/

namespace QueryGuard

namespace Reconciliation

/-! ### Counts -/

/-- The finding when there are fewer values than positional placeholders. -/
def valuesMissing (expected given : Nat) : Finding :=
  let counts := s!"({expected} expected, {given} given)"
  let holders := plural expected "placeholder"
  let values := plural given "value"
  .ofCode .paramCountMismatch
    s!"Missing parameters: the query has {holders} but only {values} bound {counts}"

lemma count?_of_lt {expected given : Nat} (h : given < expected) :
    count? expected given = some (valuesMissing expected given) := if_pos h

/-- A number of things ends where its first blank stands. -/
lemma plural_append_inj {m n : Nat} {word x y : String}
    (h : plural m word ++ x = plural n word ++ y) : m = n ∧ x = y := by
  have hsplit : ∀ k, ∃ rest : String, plural k word = toString k ++ (" " ++ rest) := by
    intro k
    unfold plural
    split
    · exact ⟨word, String.append_assoc⟩
    · refine ⟨word ++ "s", ?_⟩
      show toString k ++ " " ++ word ++ "s" = _
      simp only [String.append_assoc]
  have hblank : " ".toList = [' '] := by decide +kernel
  obtain ⟨r, hr⟩ := hsplit m
  obtain ⟨s, hs⟩ := hsplit n
  have hlists := congrArg String.toList h
  simp only [hr, hs, String.toList_append, Text.toList_toString, hblank, List.append_assoc,
    List.cons_append, List.nil_append] at hlists
  have hdigits := congrArg (List.takeWhile Char.isDigit) hlists
  rw [takeWhile_toDigits, takeWhile_toDigits] at hdigits
  obtain rfl := Text.toDigits_injective hdigits
  exact ⟨rfl, (String.append_right_inj _).1 h⟩

lemma head?_append {s : String} {c : Char} (hs : s.toList.head? = some c) (x : String) :
    (s ++ x).toList.head? = some c := by
  rw [String.toList_append, List.head?_append, hs, Option.some_or]

/-- Findings are different when their words begin with different letters. -/
lemma ne_of_head? {f g : Finding} {c d : Char} (hf : f.message.toList.head? = some c)
    (hg : g.message.toList.head? = some d) (hne : c ≠ d) : f ≠ g := by
  rintro rfl
  rw [hf] at hg
  exact hne (Option.some.inj hg)

/-- The words on missing values, up to the counts at their end. -/
lemma message_valuesMissing (expected given : Nat) : ∃ rest : String,
    (valuesMissing expected given).message = "Missing parameters: the query has " ++
      (plural expected "placeholder" ++ (" but only " ++ (plural given "value" ++ rest))) := by
  refine ⟨" bound " ++ s!"({expected} expected, {given} given)", ?_⟩
  show "Missing parameters: the query has " ++ plural expected "placeholder" ++ " but only " ++
    plural given "value" ++ " bound " ++ s!"({expected} expected, {given} given)" = _
  simp only [String.append_assoc]

/-- **The finding on missing values tells the counts.** -/
theorem valuesMissing_inj {e g e' g' : Nat} (h : valuesMissing e g = valuesMissing e' g') :
    e = e' ∧ g = g' := by
  obtain ⟨r, hr⟩ := message_valuesMissing e g
  obtain ⟨r', hr'⟩ := message_valuesMissing e' g'
  have hmessage := congrArg Finding.message h
  rw [hr, hr', String.append_right_inj] at hmessage
  obtain ⟨he, hrest⟩ := plural_append_inj hmessage
  exact ⟨he, (plural_append_inj ((String.append_right_inj _).1 hrest)).1⟩

/-- Values are found missing where there are fewer of them than placeholders. -/
lemma eq_of_count?_valuesMissing {m n e g : Nat} (h : count? m n = some (valuesMissing e g)) :
    n < m ∧ e = m ∧ g = n := by
  by_cases hlt : n < m
  · rw [count?_of_lt hlt] at h
    exact ⟨hlt, (valuesMissing_inj (Option.some.inj h.symm))⟩
  · -- else there are too many, which is said in other words
    exfalso
    obtain ⟨r, hr⟩ := message_valuesMissing e g
    have hM : (valuesMissing e g).message.toList.head? = some 'M' := by
      rw [hr]
      exact head?_append (by decide +kernel) _
    unfold count? at h
    rw [if_neg hlt] at h
    split at h
    · refine ne_of_head? (c := 'E') ?_ hM (by decide) (Option.some.inj h)
      show ("Extra parameters: the query has " ++ _ ++ _ ++ _ ++ _ ++ _).toList.head? = _
      simp only [String.append_assoc]
      exact head?_append (by decide +kernel) _
    · cases h

/-! ### Names -/

/-- Names as they are listed. -/
lemma toList_nameList (ns : List String) :
    (nameList ns).toList = [',', ' '].intercalate (ns.map fun n => ':' :: n.toList) := by
  have hmarks : ", ".toList = [',', ' '] ∧ ":".toList = [':'] := by decide +kernel
  rw [nameList, String.toList_intercalate, List.map_map, hmarks.1]
  refine congrArg _ (List.map_congr_left fun n _ => ?_)
  rw [Function.comp_apply, String.toList_append, hmarks.2, List.singleton_append]

/-- The names behind the first, as they are listed behind it. -/
def listedAfter (ns : List String) : List Char :=
  ns.flatMap fun n => ',' :: ' ' :: ':' :: n.toList

lemma listedAfter_cons (n : String) (ns : List String) :
    listedAfter (n :: ns) = ',' :: ' ' :: ':' :: (n.toList ++ listedAfter ns) := rfl

lemma toList_nameList_cons (n : String) (ns : List String) :
    (nameList (n :: ns)).toList = ':' :: (n.toList ++ listedAfter ns) := by
  rw [toList_nameList]
  induction ns generalizing n with
  | nil => simp [listedAfter]
  | cons m ns ih =>
    have htail := ih m
    rw [List.map_cons] at htail
    rw [List.map_cons, List.map_cons, List.intercalate_cons_cons, htail, listedAfter_cons,
      List.append_assoc]
    rfl

/-- What stands behind listed names begins with a mark or a blank. -/
lemma continuesName_head?_listedAfter {ns : List String} {x : List Char}
    (hx : ∀ c ∈ x.head?, c = ' ') :
    ∀ c ∈ (listedAfter ns ++ x).head?, Placeholder.continuesName c = false := by
  cases ns with
  | nil =>
    intro c hc
    rw [hx c hc]
    decide
  | cons n ns =>
    intro c hc
    obtain rfl := Option.some.inj hc
    decide

lemma listedAfter_append_inj {ns ms : List String} {x y : List Char}
    (hn : ∀ n ∈ ns, ∀ c ∈ n.toList, Placeholder.continuesName c)
    (hm : ∀ m ∈ ms, ∀ c ∈ m.toList, Placeholder.continuesName c)
    (hx : ∀ c ∈ x.head?, c = ' ') (hy : ∀ c ∈ y.head?, c = ' ')
    (h : listedAfter ns ++ x = listedAfter ms ++ y) : ns = ms := by
  induction ns generalizing ms with
  | nil =>
    cases ms with
    | nil => rfl
    | cons m ms =>
      -- a comma is no blank
      have hc := hx ',' (by rw [show x = _ from h]; rfl)
      exact absurd hc (by decide)
  | cons n ns ih =>
    cases ms with
    | nil =>
      have hc := hy ',' (by rw [show y = _ from h.symm]; rfl)
      exact absurd hc (by decide)
    | cons m ms =>
      obtain ⟨hn, hns⟩ := List.forall_mem_cons.1 hn
      obtain ⟨hm, hms⟩ := List.forall_mem_cons.1 hm
      simp only [listedAfter_cons, List.cons_append, List.append_assoc, List.cons.injEq,
        true_and] at h
      have htake := congrArg (List.takeWhile Placeholder.continuesName) h
      rw [Text.takeWhile_append_of_forall hn (continuesName_head?_listedAfter hx),
        Text.takeWhile_append_of_forall hm (continuesName_head?_listedAfter hy),
        String.toList_inj] at htake
      subst htake
      rw [ih hns hms (List.append_cancel_left h)]

/-- What is said of bound values stands behind a blank. -/
lemma head?_positionHint (b : Bindings) : ∀ c ∈ (positionHint b).toList.head?, c = ' ' := by
  have hblank : " (".toList = [' ', '('] := by decide +kernel
  unfold positionHint
  split
  · next v vs =>
    intro c hc
    change c ∈ (" (" ++ _ ++ _).toList.head? at hc
    simp only [String.toList_append, hblank, List.cons_append, List.head?_cons] at hc
    exact (Option.some.inj hc).symm
  · simp

lemma message_namesMissing (ns : List String) (b : Bindings) : (namesMissing ns b).message =
    "Missing named parameters: " ++ (nameList ns ++ positionHint b) := by
  rw [namesMissing, Finding.ofCode, String.append_assoc]

/-- **The finding on missing names tells them.** -/
theorem namesMissing_inj {ns ms : List String} {b b' : Bindings}
    (hn : ∀ n ∈ ns, ∀ c ∈ n.toList, Placeholder.continuesName c)
    (hm : ∀ m ∈ ms, ∀ c ∈ m.toList, Placeholder.continuesName c)
    (h : namesMissing ns b = namesMissing ms b') : ns = ms := by
  have hmessage := congrArg Finding.message h
  rw [message_namesMissing, message_namesMissing, String.append_right_inj, ← String.toList_inj,
    String.toList_append, String.toList_append] at hmessage
  have hx := head?_positionHint b
  have hy := head?_positionHint b'
  have hnil : (nameList []).toList = [] := toList_nameList []
  cases ns with
  | nil =>
    cases ms with
    | nil => rfl
    | cons m ms =>
      rw [hnil, List.nil_append, toList_nameList_cons, List.cons_append] at hmessage
      exact absurd (hx ':' (by rw [hmessage]; rfl)) (by decide)
  | cons n ns =>
    cases ms with
    | nil =>
      rw [hnil, List.nil_append, toList_nameList_cons, List.cons_append] at hmessage
      exact absurd (hy ':' (by rw [← hmessage]; rfl)) (by decide)
    | cons m ms =>
      -- with a comma and a blank in front, the first name is listed as the others are
      refine listedAfter_append_inj hn hm hx hy ?_
      rw [toList_nameList_cons, toList_nameList_cons] at hmessage
      rw [listedAfter_cons, listedAfter_cons]
      exact congrArg (fun cs => ',' :: ' ' :: cs) hmessage

/-! ### The first letter -/

lemma head?_namesMissing (ns : List String) (b : Bindings) :
    (namesMissing ns b).message.toList.head? = some 'M' := by
  rw [message_namesMissing]
  exact head?_append (by decide +kernel) _

lemma head?_namesUnexpected (ns : List String) :
    (namesUnexpected ns).message.toList.head? = some 'U' :=
  head?_append (s := "Unexpected named parameters: ") (by decide +kernel) _

lemma head?_namedForPositional (e : Nat) (ns : List String) :
    (namedForPositional e ns).message.toList.head? = some 'N' := by
  have hmessage : (namedForPositional e ns).message =
      "Named parameters supplied for positional placeholders: the query has " ++
        (plural e "placeholder" ++ (" but" ++
          s!" {nameList ns} were bound by name. Pass a list of values instead")) := by
    show "Named parameters supplied for positional placeholders: the query has " ++
      plural e "placeholder" ++ " but" ++
        s!" {nameList ns} were bound by name. Pass a list of values instead" = _
    rw [String.append_assoc, String.append_assoc]
  rw [hmessage]
  exact head?_append (by decide +kernel) _

end Reconciliation

end QueryGuard
