import QueryGuard.Guard
import QueryGuard.Proofs.Sql.InsertHead

/-!
Statements that cannot be read to their end. A keyword is compared in lower case and cut off by its
bytes, which differ at the sign of the kelvin. A keyword without a `k` is found as if characters
were counted; one that ends in `k` may end inside that sign. Main statement: reading breaks off
exactly on a `DELETE` with a modifier `QUICK` that is written with the sign of the kelvin.
-/

namespace QueryGuard

namespace Head

variable {word : String} {front rest cs v u : List Char}

/-! ### What a torn head looks like -/

/-- The text goes on with modifiers, each behind blanks, up to a `QUICK` that is written with the
sign of the kelvin. What stands behind it does not matter. -/
inductive TearsModifiers : List Char → Prop where
  | quick {g rest : List Char} (quic : Spelling "quic") : g ≠ [] → (∀ c ∈ g, isGap c) →
      TearsModifiers (g ++ (quic.text ++ kelvin :: rest))
  | modifier {g rest : List Char} {word : String} (modifier : Spelling word) : g ≠ [] →
      (∀ c ∈ g, isGap c) → word ∈ deleteModifiers → TearsModifiers rest →
      TearsModifiers (g ++ (modifier.text ++ rest))

/-- The head is that of a `DELETE` with such modifiers. -/
inductive TearsDelete : List Char → Prop where
  | delete {g rest : List Char} (delete : Spelling "delete") : (∀ c ∈ g, isGap c) →
      TearsModifiers rest → TearsDelete (g ++ (delete.text ++ rest))

/-! ### Comparing in lower case -/

/-- A small letter or another character of one byte. -/
def IsSmall (c : Char) : Prop := c.toLower = c ∧ c.utf8Size = 1

instance (c : Char) : Decidable (IsSmall c) := inferInstanceAs (Decidable (_ ∧ _))

/-- All characters are such. -/
def AreSmall (cs : List Char) : Prop := ∀ c ∈ cs, IsSmall c

instance (cs : List Char) : Decidable (AreSmall cs) := List.decidableBAll _ _

lemma utf8Size_of_toLower {c : Char} (h : c.toLower.utf8Size = 1) : c.utf8Size = 1 := by
  unfold Char.toLower at h
  split at h
  · next hc => exact if_pos (UInt32.le_trans hc.2 (by decide))
  · exact h

lemma ne_kelvin_of_utf8Size {c : Char} (h : c.utf8Size = 1) : c ≠ kelvin := by
  rintro rfl
  exact absurd h (by decide)

lemma lowerCase_of_ne {c : Char} (h : c ≠ kelvin) : lowerCase c = c.toLower := if_neg h

lemma IsSmall.lowerCase_eq {c : Char} (h : IsSmall c) : lowerCase c = c := by
  rw [lowerCase_of_ne (ne_kelvin_of_utf8Size h.2), h.1]

lemma lower_of_isSmall (hv : AreSmall v) : Text.lower v = v :=
  (List.map_congr_left fun c hc => (hv c hc).1).trans (List.map_id v)

/-- A word in any letter case has as many bytes as characters. -/
lemma width_of_lower (hv : AreSmall v) (h : Text.lower front = v) :
    Text.width front = v.length := by
  subst h
  induction front with
  | nil => rfl
  | cons x xs ih =>
    obtain ⟨hx, hxs⟩ := List.forall_mem_cons.1 hv
    rw [Text.width_cons, utf8Size_of_toLower hx.2, ih hxs, Nat.add_comm]
    rfl

/-- A text agrees with a word that it begins with, as far as what stands behind both agrees. -/
lemma agrees_append (hv : AreSmall v) (h : Text.lower front = v) :
    agrees (v ++ u) (front ++ rest) = agrees u rest := by
  subst h
  induction front with
  | nil => rfl
  | cons x xs ih =>
    obtain ⟨hx, hxs⟩ := List.forall_mem_cons.1 hv
    have hne : x ≠ kelvin := ne_kelvin_of_utf8Size (utf8Size_of_toLower hx.2)
    have hsame : lowerCase x.toLower = lowerCase x := by rw [hx.lowerCase_eq, lowerCase_of_ne hne]
    rw [Text.lower, List.map_cons, List.cons_append, List.cons_append, agrees,
      List.zip_cons_cons, List.all_cons, hsame, beq_self_eq_true, Bool.true_and]
    exact ih hxs

/-- Nothing but a `k` lets the sign of the kelvin pass: a text that agrees with a word and is not
shorter begins with the part of it that has no `k`. -/
lemma exists_parts_of_agrees (hv : AreSmall v) (hk : 'k' ∉ v)
    (h : agrees (v ++ u) cs) (hle : Text.width (v ++ u) ≤ Text.width cs) :
    ∃ front rest, cs = front ++ rest ∧ Text.lower front = v ∧ agrees u rest ∧
      Text.width u ≤ Text.width rest := by
  induction v generalizing cs with
  | nil => exact ⟨[], cs, rfl, rfl, h, hle⟩
  | cons c v ih =>
    obtain ⟨hc, hv⟩ := List.forall_mem_cons.1 hv
    rw [List.mem_cons, not_or] at hk
    cases cs with
    | nil => exact absurd hle (Nat.not_le.2 (Text.width_pos (List.cons_ne_nil c (v ++ u))))
    | cons x xs =>
      rw [agrees, List.cons_append, List.zip_cons_cons, List.all_cons, Bool.and_eq_true,
        beq_iff_eq, hc.lowerCase_eq] at h
      have hne : x ≠ kelvin := by
        rintro rfl
        exact hk.1 h.1.symm
      have hx : x.toLower = c := by rw [h.1, lowerCase_of_ne hne]
      rw [List.cons_append, Text.width_cons, Text.width_cons, hc.2,
        utf8Size_of_toLower (hx ▸ hc.2)] at hle
      obtain ⟨front, rest, rfl, hlower, hu⟩ := ih hv hk.2 h.2 (Nat.le_of_add_le_add_left hle)
      exact ⟨x :: front, rest, rfl, by rw [← hx, ← hlower]; rfl, hu⟩

/-! ### Looking for one keyword -/

/-- What is found where reading does not break off. -/
def Match.ofOption (rest? : Option (List Char)) : Match := (rest?.map .found).getD .missing

lemma keyword?_append_eq (h : Text.lower front = Text.lower word.toList) :
    keyword? word (front ++ rest) =
      if rest.head?.any Token.continuesWord then none else some rest := by
  have hlen : word.toList.length = front.length := by
    simpa [Text.lower] using (congrArg List.length h).symm
  have hsame : Text.beginsWithWord word.toList (front ++ rest) := by
    rw [Text.beginsWithWord, hlen, List.take_left, Text.sameWord_iff, h]
  simp only [keyword?, hlen, List.drop_left, hsame, true_and, ite_not]

lemma exists_parts_of_keyword? (h : keyword? word cs = some rest) :
    ∃ front, cs = front ++ rest ∧ Text.lower front = Text.lower word.toList := by
  simp only [keyword?, Option.ite_none_right_eq_some, Option.some.injEq] at h
  obtain ⟨⟨hsame, -⟩, rfl⟩ := h
  exact ⟨_, (List.take_append_drop _ _).symm, (Text.sameWord_iff.1 hsame).symm⟩

/-- Where nothing but the word itself agrees with it, reading does not break off. -/
lemma seek_eq_of_parts (hw : AreSmall word.toList)
    (hparts : agrees word.toList cs → Text.width word.toList ≤ Text.width cs →
      ∃ front rest, cs = front ++ rest ∧ Text.lower front = word.toList) :
    seek word cs = .ofOption (keyword? word cs) := by
  have hsmall := lower_of_isSmall hw
  have hwidth := width_of_lower hw hsmall
  by_cases h : ∃ front rest, cs = front ++ rest ∧ Text.lower front = word.toList
  · obtain ⟨front, rest, rfl, hlower⟩ := h
    have hfront : Text.width front = Text.width word.toList := by
      rw [width_of_lower hw hlower, hwidth]
    have hagrees : agrees word.toList (front ++ rest) := by
      rw [← List.append_nil word.toList, agrees_append hw hlower]
      rfl
    have hle : Text.width front ≤ Text.width (front ++ rest) := by
      rw [Text.width_append]
      exact Nat.le_add_right _ _
    rw [seek, ← hfront, Text.takeBytes_width_append, Text.dropBytes_width_append,
      if_pos ⟨hagrees, hle⟩, if_neg (not_not.2 rfl), keyword?_append_eq (hlower.trans hsmall.symm)]
    split <;> rfl
  · have hnone : keyword? word cs = none := by
      refine Option.eq_none_iff_forall_ne_some.2 fun rest hk => h ?_
      obtain ⟨front, e, hlower⟩ := exists_parts_of_keyword? hk
      exact ⟨front, rest, e, hlower.trans hsmall⟩
    rw [seek, if_neg fun hs => h (hparts hs.1 hs.2), hnone]
    rfl

/-- **A keyword without a `k`** is found as it is said where characters are counted. -/
theorem seek_eq_of_notMem (hw : AreSmall word.toList) (hk : 'k' ∉ word.toList) (cs : List Char) :
    seek word cs = .ofOption (keyword? word cs) := by
  refine seek_eq_of_parts hw fun h hle => ?_
  rw [← List.append_nil word.toList] at h hle
  obtain ⟨front, rest, e, hlower, -⟩ := exists_parts_of_agrees hw hk h hle
  exact ⟨front, rest, e, hlower⟩

/-- The text begins with a `QUICK` that is written with the sign of the kelvin. -/
def BeginsWithKelvin (cs : List Char) : Prop :=
  ∃ (quic : Spelling "quic") (rest : List Char), cs = quic.text ++ kelvin :: rest

lemma quick_eq : "quick".toList = "quic".toList ++ ['k'] := by decide

lemma areSmall_quic : AreSmall "quic".toList := by decide

/-- The first five bytes end inside of the sign, of which the first four are the letters. -/
lemma seek_kelvin (quic : Spelling "quic") (rest : List Char) :
    seek "quick" (quic.text ++ kelvin :: rest) = .torn := by
  have hfour : Text.width quic.text = 4 := width_of_lower areSmall_quic quic.lower_eq
  have hfive : Text.width "quick".toList = 4 + 1 := by decide
  have hthree : kelvin.utf8Size = 3 := by decide
  have hagrees : agrees "quick".toList (quic.text ++ kelvin :: rest) := by
    rw [quick_eq, agrees_append areSmall_quic quic.lower_eq]
    rfl
  have hle : 4 + 1 ≤ Text.width (quic.text ++ kelvin :: rest) := by
    rw [Text.width_append, Text.width_cons]
    omega
  have hcut : Text.takeBytes (4 + 1) (quic.text ++ kelvin :: rest) = quic.text ++ [kelvin] := by
    rw [Text.takeBytes_append_of_ge (by omega), hfour, Nat.add_sub_cancel_left, Text.takeBytes,
      hthree, Text.takeBytes_zero]
  have hwidth : Text.width (quic.text ++ [kelvin]) ≠ 4 + 1 := by
    rw [Text.width_append, Text.width_cons, Text.width_nil]
    omega
  rw [seek, hfive, if_pos ⟨hagrees, hle⟩, hcut, if_pos hwidth]

/-- **`QUICK` breaks reading off** only where it is written with the sign of the kelvin. -/
theorem seek_quick_of_not (h : ¬ BeginsWithKelvin cs) :
    seek "quick" cs = .ofOption (keyword? "quick" cs) := by
  refine seek_eq_of_parts (by decide) fun hagrees hle => ?_
  rw [quick_eq] at hagrees hle
  obtain ⟨front, rest, rfl, hlower, hk, hle⟩ :=
    exists_parts_of_agrees areSmall_quic (by decide) hagrees hle
  cases rest with
  | nil => exact absurd hle (by decide)
  | cons x rest =>
    rw [agrees, List.zip_cons_cons, List.all_cons, Bool.and_eq_true, beq_iff_eq] at hk
    have hne : x ≠ kelvin := by
      rintro rfl
      exact h ⟨⟨front, hlower⟩, rest, rfl⟩
    rw [lowerCase_of_ne hne] at hk
    -- the character at the end has the lower case `k` in ASCII, so it is a letter of the word
    refine ⟨front ++ [x], rest, by simp, ?_⟩
    rw [Text.lower, List.map_append, List.map_singleton, ← hk.1, quick_eq, ← hlower]
    rfl

/-! ### Looking for modifiers -/

/-- A modifier in letters is not written with the sign of the kelvin. -/
lemma not_beginsWithKelvin (modifier : Spelling word) (hword : word ∈ deleteModifiers)
    (rest : List Char) : ¬ BeginsWithKelvin (modifier.text ++ rest) := by
  rintro ⟨quic, rest', e⟩
  have hwords : ∀ w ∈ deleteModifiers, 4 < w.toList.length ∧ kelvin ∉ w.toList := by decide
  obtain ⟨hlong, hletters⟩ := hwords word hword
  have hfour : quic.text.length = 4 := by
    simpa [Text.lower] using congrArg List.length quic.lower_eq
  have hlen : 4 < modifier.text.length := by
    rwa [← modifier.lower_eq, Text.lower, List.length_map] at hlong
  have hmem : kelvin ∈ modifier.text := by
    refine List.mem_of_getElem? (i := 4) ?_
    rw [← List.getElem?_append_left hlen, e, List.getElem?_append_right hfour.le, hfour]
    rfl
  refine hletters ?_
  rw [← modifier.lower_eq]
  exact List.mem_map.2 ⟨kelvin, hmem, by decide⟩

/-- Where `QUICK` breaks reading off, the modifier that is looked for first is not there. -/
lemma seekAny_kelvin (h : BeginsWithKelvin cs) : seekAny deleteModifiers cs = .torn := by
  obtain ⟨quic, rest, rfl⟩ := h
  have hlow : keyword? "low_priority" (quic.text ++ kelvin :: rest) = none := by
    refine keyword?_eq_none (n := 1) (by decide) ?_
    have hquic : quic.text.map Char.toLower = "quic".toList := quic.lower_eq
    rw [Text.lower, Text.lower, List.map_append, hquic,
      List.take_append_of_le_length (by decide)]
    decide
  rw [deleteModifiers, seekAny, seek_eq_of_notMem (by decide) (by decide), hlow]
  show seekAny ["quick", "ignore"] _ = _
  rw [seekAny, seek_kelvin]

lemma seekAny_of_not (h : ¬ BeginsWithKelvin cs) :
    seekAny deleteModifiers cs = .ofOption (anyKeyword? deleteModifiers cs) := by
  have hseek : ∀ w ∈ deleteModifiers, seek w cs = .ofOption (keyword? w cs) := by
    simp only [deleteModifiers, List.forall_mem_cons, List.not_mem_nil, false_imp_iff,
      implies_true, and_true]
    exact ⟨seek_eq_of_notMem (by decide) (by decide) cs, seek_quick_of_not h,
      seek_eq_of_notMem (by decide) (by decide) cs⟩
  have hany : ∀ ws, (∀ w ∈ ws, seek w cs = .ofOption (keyword? w cs)) →
      seekAny ws cs = .ofOption (anyKeyword? ws cs) := by
    intro ws hws
    induction ws with
    | nil => rfl
    | cons w ws ih =>
      obtain ⟨hw, hws⟩ := List.forall_mem_cons.1 hws
      have ih := ih hws
      rw [seekAny, hw, ih, anyKeyword?, anyKeyword?, List.findSome?_cons]
      cases keyword? w cs <;> rfl
  exact hany _ hseek

/-- A modifier that is there is found. -/
lemma seekAny_append (modifier : Spelling word) (hword : word ∈ deleteModifiers)
    (hrest : ∀ c ∈ rest.head?, Token.continuesWord c = false) :
    seekAny deleteModifiers (modifier.text ++ rest) = .found rest := by
  have hfirst : ∀ w ∈ deleteModifiers, ∀ w' ∈ deleteModifiers, 1 ≤ w.toList.length ∧
      Text.lower w.toList = w.toList ∧ (w ≠ w' → w.toList.take 1 ≠ w'.toList.take 1) := by decide
  have hsome : keyword? word (modifier.text ++ rest) = some rest :=
    keyword?_append modifier (hfirst word hword word hword).2.1 hrest
  -- the modifiers differ in their first letters, so no other one is found before it
  have hnone : ∀ w ∈ deleteModifiers, w ≠ word → keyword? w (modifier.text ++ rest) = none := by
    intro w hw hne
    obtain ⟨hlen, hlower, hdiffer⟩ := hfirst w hw word hword
    refine keyword?_eq_none hlen ?_
    have hmodifier : modifier.text.map Char.toLower = word.toList := modifier.lower_eq
    rw [hlower, Text.lower, List.map_append, hmodifier,
      List.take_append_of_le_length (hfirst word hword word hword).1]
    exact hdiffer hne
  have hany : anyKeyword? deleteModifiers (modifier.text ++ rest) = some rest := by
    cases hk : anyKeyword? deleteModifiers (modifier.text ++ rest) with
    | none => exact absurd (List.findSome?_eq_none_iff.1 hk word hword) (by simp [hsome])
    | some r =>
      obtain ⟨as, w, bs, hsplit, hw, -⟩ := List.findSome?_eq_some_iff.1 hk
      have hmem : w ∈ deleteModifiers := hsplit ▸ List.mem_append_right as List.mem_cons_self
      obtain rfl : w = word := by
        by_contra hne
        rw [hnone w hmem hne] at hw
        cases hw
      rw [← hw, hsome]
  rw [seekAny_of_not (not_beginsWithKelvin modifier hword rest), hany]
  rfl

/-- What stands at the beginning of a text that a modifier is looked for in. -/
lemma seekAny_cases (cs : List Char) :
    (BeginsWithKelvin cs ∧ seekAny deleteModifiers cs = .torn) ∨
    seekAny deleteModifiers cs = .missing ∨
    ∃ (word : String) (modifier : Spelling word) (rest : List Char), word ∈ deleteModifiers ∧
      cs = modifier.text ++ rest ∧ seekAny deleteModifiers cs = .found rest := by
  by_cases hk : BeginsWithKelvin cs
  · exact .inl ⟨hk, seekAny_kelvin hk⟩
  · rw [seekAny_of_not hk]
    cases hany : anyKeyword? deleteModifiers cs with
    | none => exact .inr (.inl rfl)
    | some rest =>
      obtain ⟨as, w, bs, hsplit, hw, -⟩ := List.findSome?_eq_some_iff.1 hany
      have hmem : w ∈ deleteModifiers := hsplit ▸ List.mem_append_right as List.mem_cons_self
      have hlower : ∀ w ∈ deleteModifiers, Text.lower w.toList = w.toList := by decide
      obtain ⟨front, rfl, hfront⟩ := exists_parts_of_keyword? hw
      exact .inr (.inr ⟨w, ⟨front, hfront.trans (hlower w hmem)⟩, rest, hmem, rfl, rfl⟩)

lemma exists_parts_of_gap? (h : gap? cs = some rest) :
    ∃ g, g ≠ [] ∧ (∀ c ∈ g, isGap c) ∧ cs = g ++ rest := by
  simp only [gap?, Option.ite_none_right_eq_some, Option.some.injEq] at h
  obtain ⟨hgap, rfl⟩ := h
  refine ⟨cs.takeWhile isGap, ?_, fun c hc => List.mem_takeWhile_imp hc,
    List.takeWhile_append_dropWhile.symm⟩
  cases cs with
  | nil => cases hgap
  | cons c cs =>
    have hc : isGap c := hgap
    rw [List.takeWhile_cons_of_pos hc]
    exact List.cons_ne_nil _ _

lemma seekModifiers_of_torn {words : List String} (hg : gap? cs = some rest)
    (h : seekAny words rest = .torn) : seekModifiers words cs = .torn := by
  rw [seekModifiers]
  split
  · next hn => cases hg.symm.trans hn
  · next hs =>
    obtain rfl := Option.some.inj (hg.symm.trans hs)
    split
    · next hm => cases h.symm.trans hm
    · next hf => cases h.symm.trans hf
    · rfl

lemma seekModifiers_of_found {words : List String} {rest' : List Char} (hg : gap? cs = some rest)
    (h : seekAny words rest = .found rest') :
    seekModifiers words cs = seekModifiers words rest' := by
  rw [seekModifiers]
  split
  · next hn => cases hg.symm.trans hn
  · next hs =>
    obtain rfl := Option.some.inj (hg.symm.trans hs)
    split
    · next hm => cases h.symm.trans hm
    · next hf =>
      obtain rfl := Match.found.inj (h.symm.trans hf)
      rfl
    · next ht => cases h.symm.trans ht

lemma TearsModifiers.head?_isGap (h : TearsModifiers cs) : ∀ c ∈ cs.head?, isGap c := by
  cases h with
  | quick _ hne hg =>
    obtain ⟨c, g, rfl⟩ := List.exists_cons_of_ne_nil hne
    exact Text.forall_head? rfl (hg c List.mem_cons_self)
  | modifier _ hne hg =>
    obtain ⟨c, g, rfl⟩ := List.exists_cons_of_ne_nil hne
    exact Text.forall_head? rfl (hg c List.mem_cons_self)

lemma TearsModifiers.stops (h : TearsModifiers cs) :
    ∀ c ∈ cs.head?, Token.continuesWord c = false := fun c hc =>
  Lexeme.continuesWord_of_isGap (h.head?_isGap c hc)

/-- **Looking for modifiers breaks off** exactly where one of them is a `QUICK` that is written with
the sign of the kelvin. -/
theorem seekModifiers_eq_torn_iff :
    seekModifiers deleteModifiers cs = .torn ↔ TearsModifiers cs := by
  constructor
  · intro h
    fun_induction seekModifiers deleteModifiers cs with
    | case1 => cases h
    | case2 => cases h
    | case3 cs after hgap rest hseek ih =>
      -- a modifier is found behind the blanks, and reading breaks off behind it
      obtain ⟨g, hne, hg, rfl⟩ := exists_parts_of_gap? hgap
      rcases seekAny_cases after with ⟨-, e⟩ | e | ⟨word, modifier, rest', hword, rfl, e⟩
      · cases hseek.symm.trans e
      · cases hseek.symm.trans e
      · obtain rfl := Match.found.inj (hseek.symm.trans e)
        exact .modifier modifier hne hg hword (ih h)
    | case4 cs after hgap hseek =>
      -- reading breaks off at the modifier behind the blanks
      obtain ⟨g, hne, hg, rfl⟩ := exists_parts_of_gap? hgap
      rcases seekAny_cases after with ⟨⟨quic, rest, rfl⟩, -⟩ | e | ⟨_, _, _, _, _, e⟩
      · exact .quick quic hne hg
      · cases hseek.symm.trans e
      · cases hseek.symm.trans e
  · intro h
    induction h with
    | @quick g rest quic hne hg =>
      have hgap : gap? (g ++ (quic.text ++ kelvin :: rest)) = some (quic.text ++ kelvin :: rest) :=
        gap?_append hne hg (quic.isGap_of_head?_text (by decide))
      exact seekModifiers_of_torn hgap (seekAny_kelvin ⟨quic, rest, rfl⟩)
    | @modifier g rest word modifier hne hg hword hrest ih =>
      have hletter : ∀ w ∈ deleteModifiers, w.toList.head?.any (·.isAlpha) := by decide
      have hgap : gap? (g ++ (modifier.text ++ rest)) = some (modifier.text ++ rest) :=
        gap?_append hne hg (modifier.isGap_of_head?_text (hletter word hword))
      rw [seekModifiers_of_found hgap (seekAny_append modifier hword hrest.stops)]
      exact ih

/-- **Reading the head of a `DELETE` breaks off** exactly at such a modifier. -/
theorem isTorn_iff : isTorn cs ↔ TearsDelete cs := by
  constructor
  · intro h
    rw [isTorn] at h
    cases hk : keyword? "delete" (skipGap cs) with
    | none =>
      rw [hk] at h
      cases h
    | some rest =>
      rw [hk, Option.any_some, beq_iff_eq] at h
      obtain ⟨front, e, hfront⟩ := exists_parts_of_keyword? hk
      have hcs : cs = cs.takeWhile isGap ++ (front ++ rest) := by
        rw [← e]
        exact List.takeWhile_append_dropWhile.symm
      rw [hcs]
      exact .delete ⟨front, hfront.trans (by decide)⟩ (fun c hc => List.mem_takeWhile_imp hc)
        (seekModifiers_eq_torn_iff.1 h)
  · rintro ⟨delete, hg, hrest⟩
    rw [isTorn, skipGap_append hg, skipGap_of_head? (delete.isGap_of_head?_text (by decide)),
      keyword?_append delete (by decide) hrest.stops, Option.any_some, beq_iff_eq]
    exact seekModifiers_eq_torn_iff.2 hrest

/-- The head is that of a `DELETE`, whatever stands behind its modifiers. -/
lemma TearsDelete.kind (h : TearsDelete cs) :
    Statement.Kind.ofKeyword (leadingWord? cs) = .delete := by
  obtain @⟨g, rest, delete, hg, hrest⟩ := h
  have hletters : ∀ c ∈ delete.text, Text.isAlphabetic c := fun c hc =>
    delete.isAlphabetic_of_mem (by decide) hc
  -- a modifier stands behind blanks, so the leading word ends with the letters of the keyword
  have hnext : rest.takeWhile Text.isAlphabetic = [] := by
    cases rest with
    | nil => rfl
    | cons c cs =>
      have hc : Text.isAlphabetic c = false := by
        by_contra hc
        have hstop := hrest.stops c rfl
        rw [Token.continuesWord, Text.isAlphanumeric_of_isAlphabetic (by simpa using hc)] at hstop
        cases hstop
      rw [List.takeWhile_cons, hc]
      rfl
  have hlead : leadingWord? (g ++ (delete.text ++ rest)) = some (String.ofList delete.text) := by
    obtain ⟨c, cs, hc⟩ := List.exists_cons_of_ne_nil (delete.text_ne_nil (by decide))
    rw [leadingWord?, skipGap_append hg,
      skipGap_of_head? (delete.isGap_of_head?_text (by decide)),
      List.takeWhile_append_of_pos hletters, hnext, List.append_nil, hc]
  have hsame : ∀ w : String, Text.sameWord (String.ofList delete.text).toList w.toList =
      ("delete".toList == Text.lower w.toList) := fun w => by
    rw [Text.sameWord, String.toList_ofList, delete.lower_eq]
  rw [hlead, Statement.Kind.ofKeyword]
  simp only [hsame]
  decide

end Head

/-! ### Torn statements -/

/-- **A statement is torn** exactly where its head is that of a `DELETE` with such a modifier. -/
theorem SqlText.isTorn_iff (t : SqlText) : t.isTorn ↔ Head.TearsDelete t.statementHead := by
  rw [isTorn, Bool.and_eq_true, beq_iff_eq, Head.isTorn_iff, kind_statement]
  exact and_iff_right_of_imp Head.TearsDelete.kind

/-- Reading the query breaks off before there is a report on it. -/
def Config.BreaksOff (c : Config) (q : Query) : Prop :=
  c.enabled ∧ Head.TearsDelete (SqlText.ofString c.dialect q.sql).statementHead

lemma Config.breaksOff_iff (c : Config) (q : Query) :
    (c.enabled && q.isTorn c.dialect) ↔ c.BreaksOff q := by
  rw [BreaksOff, ← SqlText.isTorn_iff, Bool.and_eq_true, Query.isTorn]

lemma Config.validate?_eq_none_iff (c : Config) (q : Query) (context : Option Json) :
    c.validate? q context = none ↔ c.BreaksOff q := by
  rw [validate?, ← breaksOff_iff]
  split
  · next h => exact iff_of_true rfl h
  · next h => exact iff_of_false (Option.some_ne_none _) h

/-- There is a report with a property where the validation has it and does not break off. -/
lemma Config.exists_validate?_iff (c : Config) (q : Query) (context : Option Json)
    (P : Report → Prop) :
    (∃ r, c.validate? q context = some r ∧ P r) ↔
      P (c.validate q context) ∧ ¬ c.BreaksOff q := by
  rw [validate?, ← breaksOff_iff]
  split
  · next h => simp [h]
  · next h => simp [h]

end QueryGuard
