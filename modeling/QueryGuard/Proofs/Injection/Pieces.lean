import Mathlib.Data.List.Forall2
import QueryGuard.Injection.Battery
import QueryGuard.Proofs.Sql.Parts

/-!
What the pieces of the patterns take. A word is taken letter by letter, in any letter case; white
space is taken up to the next other character. Main statement: a word is taken off a text exactly
where the text begins with characters that stand for its letters.
-/

namespace QueryGuard.Injection

open Text (Reader)

/-! ### Characters -/

/-- The character stands for the small letter when case is ignored: it is that letter or its
capital, or the long s, or the sign of the kelvin. -/
inductive StandsFor : Char → Char → Prop where
  | small (w : Char) : StandsFor w w
  | capital (w : Char) : StandsFor w.toUpper w
  | longS : StandsFor '\u017f' 's'
  | kelvin : StandsFor '\u212a' 'k'

/-- The text spells the word, in any letter case. -/
def Spells (w : String) (cs : List Char) : Prop := List.Forall₂ StandsFor cs w.toList

/-- The text does not go on with a word character. -/
def EndsWord (cs : List Char) : Prop := ∀ c ∈ cs.head?, Text.isWordPart c = false

/-- White space, of which there is some. -/
def IsGap (cs : List Char) : Prop := cs ≠ [] ∧ ∀ c ∈ cs, Text.isBlank c

/-- A class of characters is gone through by its code points. -/
lemma of_forall_code {P : Char → Prop} {codes : List Nat} (h : ∀ n ∈ codes, P (Char.ofNat n))
    {c : Char} (hc : c.toNat ∈ codes) : P c := by
  have hp := h c.toNat hc
  rwa [Char.ofNat_toNat] at hp

lemma toNat_mem_of_isLower {w : Char} (h : w.isLower) : w.toNat ∈ List.range' 0x61 26 := by
  have h : (decide (w.val ≥ 'a'.val) && decide (w.val ≤ 'z'.val)) = true := h
  rw [Bool.and_eq_true, decide_eq_true_eq, decide_eq_true_eq] at h
  exact List.mem_range'_1.2
    ⟨UInt32.le_iff_toNat_le.1 h.1, Nat.lt_succ_of_le (UInt32.le_iff_toNat_le.1 h.2)⟩

/-- A small letter and its capital stand for the letter, and both are word characters. -/
lemma letter_of_isLower {w : Char} (h : w.isLower) :
    foldCase w = w ∧ foldCase w.toUpper = w ∧ Text.isWordPart w ∧ Text.isWordPart w.toUpper := by
  have hall : ∀ n ∈ List.range' 0x61 26, foldCase (Char.ofNat n) = Char.ofNat n ∧
      foldCase (Char.ofNat n).toUpper = Char.ofNat n ∧ Text.isWordPart (Char.ofNat n) ∧
        Text.isWordPart (Char.ofNat n).toUpper := by
    decide +kernel
  exact of_forall_code (P := fun w => foldCase w = w ∧ foldCase w.toUpper = w ∧
    Text.isWordPart w ∧ Text.isWordPart w.toUpper) hall (toNat_mem_of_isLower h)

lemma toUpper_toLower {c : Char} (h : c.isUpper) : c.toLower.toUpper = c := by
  have hall : ∀ n ∈ List.range' 0x41 26,
      (Char.ofNat n).toLower.toUpper = Char.ofNat n := by
    decide +kernel
  have h : 'A'.val ≤ c.val ∧ c.val ≤ 'Z'.val := of_decide_eq_true h
  have hmem : c.toNat ∈ List.range' 0x41 26 := List.mem_range'_1.2
    ⟨UInt32.le_iff_toNat_le.1 h.1, Nat.lt_succ_of_le (UInt32.le_iff_toNat_le.1 h.2)⟩
  exact of_forall_code (P := fun c => c.toLower.toUpper = c) hall hmem

lemma standsFor_toLower (c : Char) : StandsFor c c.toLower := by
  by_cases h : c.isUpper
  · have hup := StandsFor.capital c.toLower
    rwa [toUpper_toLower h] at hup
  · have hlow : c.toLower = c := dif_neg fun hu => h (decide_eq_true hu)
    rw [hlow]
    exact .small c

/-- **Case is ignored** as the letters that stand for each other say. -/
theorem foldCase_eq_iff {c w : Char} (hw : w.isLower) : foldCase c = w ↔ StandsFor c w := by
  constructor
  · intro h
    unfold foldCase at h
    split at h
    · next hs =>
      subst hs h
      exact .longS
    · split at h
      · next hk =>
        subst hk h
        exact .kelvin
      · subst h
        exact standsFor_toLower c
  · rintro (_ | _ | _ | _)
    · exact (letter_of_isLower hw).1
    · exact (letter_of_isLower hw).2.1
    · rfl
    · rfl

lemma StandsFor.isWordPart {c w : Char} (h : StandsFor c w) (hw : w.isLower) :
    Text.isWordPart c := by
  cases h with
  | small => exact (letter_of_isLower hw).2.2.1
  | capital => exact (letter_of_isLower hw).2.2.2
  | longS => decide +kernel
  | kelvin => decide +kernel

lemma isWordPart_of_isBlank {c : Char} (h : Text.isBlank c) : Text.isWordPart c = false := by
  have hall : ∀ n ∈ Lexeme.blankCodes, Text.isWordPart (Char.ofNat n) = false := by
    decide +kernel
  exact of_forall_code (P := fun c => Text.isWordPart c = false) hall
    (Lexeme.toNat_mem_blankCodes h)

lemma isBlank_of_isWordPart {c : Char} (h : Text.isWordPart c) : Text.isBlank c = false := by
  by_contra hb
  rw [isWordPart_of_isBlank (by simpa using hb)] at h
  cases h

/-! ### Readers one after the other -/

section Readers

variable {α β : Type} {p : Reader α} {f : α → Reader β} {cs mid rest : List Char} {a : α} {b : β}

lemma bind_of_some (h : p cs = some (a, mid)) : (p >>= f) cs = f a mid := by
  show Reader.bind p f cs = f a mid
  rw [Reader.bind, h]

lemma bind_of_none (h : p cs = none) : (p >>= f) cs = none := by
  show Reader.bind p f cs = none
  rw [Reader.bind, h]

lemma orElse_of_some {q : Reader α} (h : p cs = some (a, rest)) :
    Reader.orElse p q cs = some (a, rest) := by
  rw [Reader.orElse, h, Option.some_or]

lemma orElse_of_none {q : Reader α} (h : p cs = none) : Reader.orElse p q cs = q cs := by
  rw [Reader.orElse, h, Option.none_or]

lemma begins_bind_iff :
    begins (p >>= f) cs ↔ ∃ a mid, p cs = some (a, mid) ∧ begins (f a) mid := by
  cases h : p cs with
  | none => simp [begins, bind_of_none h]
  | some r =>
    obtain ⟨a, mid⟩ := r
    rw [begins, bind_of_some h]
    constructor
    · intro hf
      exact ⟨a, mid, rfl, hf⟩
    · rintro ⟨a', mid', e, hf⟩
      cases e
      exact hf

lemma begins_orElse_iff {q : Reader α} :
    begins (Reader.orElse p q) cs ↔ begins p cs ∨ begins q cs := by
  simp [begins, Reader.orElse]

end Readers

/-! ### Words -/

/-- The word is written in small letters, of which there is at least one. -/
def IsSmall (w : String) : Prop := w.toList ≠ [] ∧ w.toList.all Char.isLower

instance : DecidablePred IsSmall := fun w => by unfold IsSmall; infer_instance

lemma IsSmall.isLower {w : String} (h : IsSmall w) : ∀ c ∈ w.toList, c.isLower :=
  List.all_eq_true.1 h.2

variable {w : String} {cs rest taken : List Char}

lemma afterWord?_eq_some_iff {ws : List Char} (hw : ∀ w ∈ ws, w.isLower) :
    afterWord? ws cs = some rest ↔
      ∃ taken, cs = taken ++ rest ∧ List.Forall₂ StandsFor taken ws := by
  induction ws generalizing cs with
  | nil =>
    constructor
    · rintro ⟨⟩
      exact ⟨[], rfl, .nil⟩
    · rintro ⟨taken, rfl, h⟩
      cases h
      rfl
  | cons w ws ih =>
    cases cs with
    | nil =>
      refine ⟨nofun, ?_⟩
      rintro ⟨taken, e, h⟩
      cases h
      cases e
    | cons c cs =>
      have hstands : foldCase c = w ↔ StandsFor c w := foldCase_eq_iff (hw w List.mem_cons_self)
      rw [afterWord?]
      split
      · next hc =>
        -- the first character stands for the first letter, and the rest for the others
        rw [ih fun x hx => hw x (List.mem_cons_of_mem _ hx)]
        constructor
        · rintro ⟨taken, rfl, h⟩
          exact ⟨c :: taken, rfl, .cons (hstands.1 hc) h⟩
        · rintro ⟨taken, e, h⟩
          cases h with
          | cons _ h =>
            obtain ⟨-, rfl⟩ := List.cons.inj e
            exact ⟨_, rfl, h⟩
      · next hc =>
        refine ⟨nofun, ?_⟩
        rintro ⟨taken, e, h⟩
        cases h with
        | cons h _ =>
          obtain ⟨rfl, -⟩ := List.cons.inj e
          exact absurd (hstands.2 h) hc

lemma wordEnds_iff : wordEnds cs ↔ EndsWord cs := by
  cases cs with
  | nil => simp [wordEnds, EndsWord]
  | cons c cs => simp [wordEnds, EndsWord]

/-- **A word is taken where the text spells it.** -/
theorem letters_eq_some_iff (hw : IsSmall w) :
    letters w cs = some ((), rest) ↔ ∃ taken, cs = taken ++ rest ∧ Spells w taken := by
  rw [letters, Option.map_eq_some_iff]
  simp only [Prod.mk.injEq, true_and, exists_eq_right]
  exact afterWord?_eq_some_iff hw.isLower

/-- **A whole word is taken where the text spells it and no word character goes on.** -/
theorem word_eq_some_iff (hw : IsSmall w) : word w cs = some ((), rest) ↔
    (∃ taken, cs = taken ++ rest ∧ Spells w taken) ∧ EndsWord rest := by
  unfold word
  simp only [Spells, ← afterWord?_eq_some_iff hw.isLower]
  cases afterWord? w.toList cs with
  | none => simp
  | some left =>
    by_cases hl : wordEnds left
    · have he := wordEnds_iff.1 hl
      simp only [hl, if_true, Option.some.injEq, Prod.mk.injEq, true_and]
      exact ⟨fun e => ⟨e, e ▸ he⟩, fun e => e.1⟩
    · have he := fun h => hl (wordEnds_iff.2 h)
      simp only [hl, Option.some.injEq]
      exact ⟨nofun, fun e => absurd (e.1 ▸ e.2) he⟩

lemma Spells.ne_nil (h : Spells w taken) (hw : IsSmall w) : taken ≠ [] := by
  rintro rfl
  exact hw.1 (List.forall₂_nil_left_iff.1 h)

lemma isWordPart_of_forall₂ {ws : List Char} (h : List.Forall₂ StandsFor taken ws)
    (hw : ∀ w ∈ ws, w.isLower) : ∀ c ∈ taken, Text.isWordPart c := by
  induction h with
  | nil => exact List.forall_mem_nil _
  | cons hstands _ ih =>
    rw [List.forall_mem_cons] at hw ⊢
    exact ⟨hstands.isWordPart hw.1, ih hw.2⟩

/-- A spelled word has word characters only. -/
lemma Spells.isWordPart (h : Spells w taken) (hw : IsSmall w) : ∀ c ∈ taken, Text.isWordPart c :=
  isWordPart_of_forall₂ h hw.isLower

/-- Where a text begins with characters of a class, its first character is of the class. -/
lemma forall_head?_append {P : Char → Prop} (hne : taken ≠ []) (h : ∀ c ∈ taken, P c) :
    ∀ c ∈ (taken ++ rest).head?, P c := by
  obtain ⟨x, xs, rfl⟩ := List.exists_cons_of_ne_nil hne
  intro c hc
  obtain rfl : x = c := Option.some.inj hc
  exact h x List.mem_cons_self

/-! ### White space -/

lemma blanks_append (hcs : ∀ c ∈ cs, Text.isBlank c)
    (hr : ∀ c ∈ rest.head?, Text.isBlank c = false) : blanks (cs ++ rest) = some ((), rest) := by
  rw [blanks, List.dropWhile_append_of_pos hcs]
  cases rest with
  | nil => rfl
  | cons c rest => rw [List.dropWhile_cons_of_neg (by simp [hr c rfl])]

lemma gap_append (hcs : IsGap cs) (hr : ∀ c ∈ rest.head?, Text.isBlank c = false) :
    gap (cs ++ rest) = some ((), rest) := by
  obtain ⟨c, cs, rfl⟩ := List.exists_cons_of_ne_nil hcs.1
  have hall := blanks_append hcs.2 hr
  rw [gap, if_pos]
  · exact hall
  · exact hcs.2 c List.mem_cons_self

lemma exists_of_gap {u : Unit} (h : gap cs = some (u, rest)) : ∃ g, IsGap g ∧ cs = g ++ rest := by
  unfold gap at h
  split at h
  · next hc =>
    cases h
    refine ⟨cs.takeWhile Text.isBlank, ⟨?_, fun c hc => List.mem_takeWhile_imp hc⟩,
      List.takeWhile_append_dropWhile.symm⟩
    cases cs with
    | nil => cases hc
    | cons c cs =>
      have hc : Text.isBlank c := hc
      rw [List.takeWhile_cons_of_pos hc]
      exact List.cons_ne_nil _ _
  · cases h

end QueryGuard.Injection
