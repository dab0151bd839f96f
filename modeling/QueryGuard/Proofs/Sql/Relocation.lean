import Mathlib.Tactic.Lemma
import Mathlib.Data.List.Find
import QueryGuard.Review

/-!
Tokens at other places. When tokens keep their kinds and their order, and their texts too unless
they are strings, then the same statement is read from them: only the places and the texts of the
strings are others.
-/

namespace QueryGuard

/-! ### Tokens -/

/-- The tokens keep their kinds, and their texts unless they are strings. -/
structure Token.Relocates (g : Token → Token) : Prop where
  kind (t : Token) : (g t).kind = t.kind
  text (t : Token) : t.kind ≠ .string → (g t).text = t.text

/-- The tokens of the stream stay in order. -/
def Token.KeepsOrder (g : Token → Token) (ts : List Token) : Prop :=
  ∀ a ∈ ts, ∀ b ∈ ts, (g a).start ≤ (g b).start ↔ a.start ≤ b.start

variable {g : Token → Token}

lemma Token.Relocates.map_kind (h : Relocates g) (ts : List Token) :
    (ts.map g).map (·.kind) = ts.map (·.kind) := by
  rw [List.map_map]
  exact List.map_congr_left fun t _ => h.kind t

/-- What is asked of the text of a token that is no string has the same answer. -/
lemma Token.Relocates.kind_and_text (h : Relocates g) {k : Kind} (hk : k ≠ .string)
    (p : List Char → Bool) (t : Token) :
    ((g t).kind == k && p (g t).text) = (t.kind == k && p t.text) := by
  rw [h.kind]
  by_cases e : t.kind = k
  · rw [h.text t (e ▸ hk)]
  · rw [beq_eq_false_iff_ne.2 e, Bool.false_and, Bool.false_and]

lemma Token.Relocates.isWord (h : Relocates g) (w : String) (t : Token) :
    (g t).isWord w = t.isWord w :=
  h.kind_and_text (by decide) (fun cs => Text.sameWord cs w.toList) t

lemma Token.KeepsOrder.start_eq {ts : List Token} (h : KeepsOrder g ts) {a b : Token} (ha : a ∈ ts)
    (hb : b ∈ ts) : (g a).start = (g b).start ↔ a.start = b.start := by
  have hab := h a ha b hb
  have hba := h b hb a ha
  omega

/-! ### Depths -/

namespace DeepToken

/-- The token at its other place. -/
def relocate (g : Token → Token) (t : DeepToken) : DeepToken := ⟨g t.token, t.depth⟩

lemma ofTokens_map (h : Token.Relocates g) (depth : Nat) (ts : List Token) :
    ofTokens depth (ts.map g) = (ofTokens depth ts).map (relocate g) := by
  induction ts generalizing depth with
  | nil => rfl
  | cons t ts ih =>
    simp only [List.map_cons, ofTokens, h.kind]
    split <;> rw [ih] <;> rfl

lemma token_mem_of_mem_ofTokens {depth : Nat} {ts : List Token} {t : DeepToken}
    (h : t ∈ ofTokens depth ts) : t.token ∈ ts := by
  induction ts generalizing depth with
  | nil => exact absurd h List.not_mem_nil
  | cons u ts ih =>
    simp only [ofTokens] at h
    split at h <;> rcases List.mem_cons.1 h with rfl | h <;>
      first | exact List.mem_cons_self | exact List.mem_cons_of_mem _ (ih h)

lemma isTopWord_relocate (h : Token.Relocates g) (w : String) (t : DeepToken) :
    (relocate g t).isTopWord w = t.isTopWord w := by
  rw [isTopWord, isTopWord, relocate, h.isWord]
  rfl

lemma endsStatement_relocate (h : Token.Relocates g) (t : DeepToken) :
    (relocate g t).endsStatement = t.endsStatement := by
  rw [endsStatement, endsStatement, relocate, h.kind]
  rfl

end DeepToken

/-! ### Lists -/

namespace ListItem

/-- The item with its tokens at their other places. -/
def relocate (g : Token → Token) (i : ListItem) : ListItem := ⟨i.tokens.map g, i.nested⟩

lemma isVoid_relocate (i : ListItem) : (relocate g i).isVoid = i.isVoid := by
  simp [isVoid, relocate]

lemma isSign_eq (h : Token.Relocates g) (t : Token) : isSign (g t) = isSign t :=
  h.kind_and_text (by decide) (fun cs => cs == ['-'] || cs == ['+']) t

lemma entry_relocate (h : Token.Relocates g) (i : ListItem) : (relocate g i).entry = i.entry := by
  obtain ⟨ts, nested⟩ := i
  rcases ts with _ | ⟨t, _ | ⟨u, _ | ⟨v, ts⟩⟩⟩ <;>
    simp [entry, relocate, h.kind, isSign_eq h]

lemma isSome_span?_relocate (i : ListItem) : (relocate g i).span?.isSome = i.span?.isSome := by
  have hspan : ∀ i : ListItem, i.span?.isSome = !i.tokens.isEmpty := by
    rintro ⟨_ | ⟨t, ts⟩, nested⟩
    · rfl
    · simp [span?, List.getLast?_cons]
  rw [hspan, hspan, relocate, List.isEmpty_map]

end ListItem

namespace ParenList

/-- The list with its tokens at their other places. -/
def relocate (g : Token → Token) (l : ParenList) : ParenList :=
  ⟨g l.opening, g l.closing, l.items.map (ListItem.relocate g)⟩

lemma entries_relocate (h : Token.Relocates g) (l : ParenList) :
    (relocate g l).entries = l.entries := by
  simp only [entries, relocate, List.map_map]
  exact List.map_congr_left fun i _ => i.entry_relocate h

lemma length_hardcoded_relocate (h : Token.Relocates g) (l : ParenList) :
    (relocate g l).hardcoded.length = l.hardcoded.length := by
  rw [hardcoded, hardcoded, entries_relocate h]
  split
  · simp only [relocate, List.filterMap_map, List.length_filterMap_eq_countP]
    refine List.countP_congr fun i _ => ?_
    simp only [Function.comp_apply, ListItem.entry_relocate h]
    split
    · rw [ListItem.isSome_span?_relocate]
    · rfl
  · rfl

namespace Unclosed

/-- The open list with its tokens at their other places. -/
def relocate (g : Token → Token) (u : Unclosed) : Unclosed :=
  ⟨g u.opening, u.items.map (ListItem.relocate g), u.tokens.map g, u.nested⟩

lemma item_relocate (u : Unclosed) : (relocate g u).item = ListItem.relocate g u.item := by
  simp [item, relocate, ListItem.relocate]

lemma close_relocate (u : Unclosed) (t : Token) :
    (relocate g u).close (g t) = ParenList.relocate g (u.close t) := by
  have hi : (relocate g u).items.isEmpty = u.items.isEmpty := List.isEmpty_map
  dsimp only [close]
  rw [item_relocate, ListItem.isVoid_relocate, hi]
  by_cases hv : u.item.isVoid && u.items.isEmpty
  · rw [if_pos hv, if_pos hv]
    rfl
  · rw [if_neg hv, if_neg hv]
    simp [ParenList.relocate, relocate]

end Unclosed

namespace Matching

/-- The lists with their tokens at their other places. -/
def relocate (g : Token → Token) (m : Matching) : Matching :=
  ⟨m.unclosed.map (Unclosed.relocate g), m.closed.map (ParenList.relocate g)⟩

lemma inner_relocate {f f' : Unclosed → Unclosed} (m : Matching)
    (h : ∀ u, f' (u.relocate g) = (f u).relocate g) :
    (relocate g m).inner f' = relocate g (m.inner f) := by
  obtain ⟨_ | ⟨u, us⟩, ls⟩ := m
  · rfl
  · simp [inner, relocate, h]

/-- A step is the same at the other places. -/
lemma step_relocate (h : Token.Relocates g) (m : Matching) (t : Token) :
    (relocate g m).step (g t) = relocate g (m.step t) := by
  have hpush : (relocate g m).inner (Unclosed.push · (g t)) =
      relocate g (m.inner (Unclosed.push · t)) := m.inner_relocate fun _ => rfl
  have hcomma : (relocate g m).inner Unclosed.comma = relocate g (m.inner Unclosed.comma) :=
    m.inner_relocate fun u => by
      simp [Unclosed.comma, Unclosed.item_relocate]
      rfl
  have hnest : (relocate g m).inner Unclosed.nest = relocate g (m.inner Unclosed.nest) :=
    m.inner_relocate fun _ => rfl
  simp only [step, h.kind]
  split
  · rw [hnest]
    rfl
  · obtain ⟨_ | ⟨u, us⟩, ls⟩ := m
    · rfl
    · simp [relocate, Unclosed.close_relocate]
  · exact hcomma
  · exact hpush

end Matching

lemma Matching.foldl_relocate (h : Token.Relocates g) (ts : List Token) (m : Matching) :
    (ts.map g).foldl Matching.step (m.relocate g) = (ts.foldl Matching.step m).relocate g := by
  induction ts generalizing m with
  | nil => rfl
  | cons t ts ih => rw [List.map_cons, List.foldl_cons, List.foldl_cons, step_relocate h, ih]

/-- **The lists of relocated tokens** are those of the tokens, relocated. -/
theorem ofTokens_map (h : Token.Relocates g) (ts : List Token) :
    ofTokens (ts.map g) = (ofTokens ts).map (relocate g) := by
  have hempty : Matching.empty.relocate g = Matching.empty := rfl
  rw [ofTokens, ofTokens, ← hempty, Matching.foldl_relocate h, hempty, Matching.relocate,
    List.map_reverse]

/-- Every parenthesis of the lists is one of the tokens. -/
structure Matching.Within (ts : List Token) (m : Matching) : Prop where
  unclosed : ∀ u ∈ m.unclosed, u.opening ∈ ts
  closed : ∀ l ∈ m.closed, l.opening ∈ ts ∧ l.closing ∈ ts

lemma Matching.Within.inner {ts : List Token} {m : Matching} (h : m.Within ts)
    {f : Unclosed → Unclosed} (hf : ∀ u, (f u).opening = u.opening) : (m.inner f).Within ts := by
  obtain ⟨_ | ⟨u, us⟩, ls⟩ := m
  · exact h
  · refine ⟨fun v hv => ?_, h.closed⟩
    rcases List.mem_cons.1 hv with rfl | hv
    · rw [hf]
      exact h.unclosed u List.mem_cons_self
    · exact h.unclosed v (List.mem_cons_of_mem _ hv)

/-- A step opens and closes lists with its token only. -/
lemma Matching.Within.step {ts : List Token} {m : Matching} (h : m.Within ts) {t : Token}
    (ht : t ∈ ts) : (m.step t).Within ts := by
  unfold Matching.step
  split
  · have hn := h.inner (f := Unclosed.nest) fun _ => rfl
    refine ⟨fun u hu => ?_, hn.closed⟩
    rcases List.mem_cons.1 hu with rfl | hu
    · exact ht
    · exact hn.unclosed u hu
  · obtain ⟨_ | ⟨u, us⟩, ls⟩ := m
    · exact h
    · refine ⟨fun v hv => h.unclosed v (List.mem_cons_of_mem _ hv), fun l hl => ?_⟩
      rcases List.mem_cons.1 hl with rfl | hl
      · exact ⟨h.unclosed u List.mem_cons_self, ht⟩
      · exact h.closed l hl
  · exact h.inner fun _ => rfl
  · exact h.inner fun _ => rfl

lemma Matching.Within.foldl {ts us : List Token} {m : Matching} (h : m.Within ts)
    (hus : ∀ u ∈ us, u ∈ ts) : (us.foldl Matching.step m).Within ts := by
  induction us generalizing m with
  | nil => exact h
  | cons u us ih =>
    refine ih ?_ fun v hv => hus v (List.mem_cons_of_mem _ hv)
    exact h.step (hus u List.mem_cons_self)

lemma mem_of_mem_ofTokens {ts : List Token} {l : ParenList} (h : l ∈ ofTokens ts) :
    l.opening ∈ ts ∧ l.closing ∈ ts := by
  have hempty : Matching.empty.Within ts :=
    ⟨fun _ hu => absurd hu List.not_mem_nil, fun _ hl => absurd hl List.not_mem_nil⟩
  exact (hempty.foldl fun _ hu => hu).closed l (List.mem_reverse.1 h)

end ParenList

/-! ### The parts of a statement -/

namespace Statement

variable {ts : List DeepToken}

lemma tokens_map (h : Token.Relocates g) (ts : List DeepToken) :
    tokens (ts.map (DeepToken.relocate g)) = (tokens ts).map (DeepToken.relocate g) := by
  rw [tokens, List.takeWhile_map, tokens]
  congr 2
  exact funext fun t => by rw [Function.comp_apply, DeepToken.endsStatement_relocate h]

lemma dropWhile_map_relocate {p : DeepToken → Bool} (hp : ∀ t, p (DeepToken.relocate g t) = p t)
    (ts : List DeepToken) : (ts.map (DeepToken.relocate g)).dropWhile p =
      (ts.dropWhile p).map (DeepToken.relocate g) := by
  rw [List.dropWhile_map]
  congr 2
  exact funext hp

lemma semicolon?_map (h : Token.Relocates g) (ts : List DeepToken) :
    semicolon? (ts.map (DeepToken.relocate g)) =
      ((ts.dropWhile (!·.endsStatement)).head?.map fun t => (g t.token).start) := by
  rw [semicolon?, dropWhile_map_relocate fun t => by rw [DeepToken.endsStatement_relocate h],
    List.head?_map, Option.map_map]
  rfl

lemma after_map {p : DeepToken → Bool} (hp : ∀ t, p (DeepToken.relocate g t) = p t)
    (ts : List DeepToken) : after p (ts.map (DeepToken.relocate g)) =
      (after p ts).map (DeepToken.relocate g) := by
  rw [after, dropWhile_map_relocate fun t => by rw [hp], ← List.map_drop, after]

lemma targets_map (h : Token.Relocates g) (ts : List DeepToken) :
    targets (ts.map (DeepToken.relocate g)) = targets ts := by
  fun_induction targets ts with
  | case1 t u ts hw =>
    simp only [List.map_cons, targets, DeepToken.relocate, h.isWord, hw, if_true]
  | case2 t u ts hw ht ih =>
    have hk : t.token.kind = .word := by
      simp only [Bool.and_eq_true, beq_iff_eq] at ht
      exact ht.1.2
    have hx : (g t.token).text = t.token.text := h.text _ (by simp [hk])
    simp only [DeepToken.isTop] at ht
    simp only [List.map_cons, targets, DeepToken.relocate, DeepToken.isTop, h.isWord, h.kind, hw,
      ht, hx, if_true] at ih ⊢
    simp [ih]
  | case3 t u ts hw ht ih =>
    simp only [DeepToken.isTop] at ht
    simp only [List.map_cons, targets, DeepToken.relocate, DeepToken.isTop, h.isWord, h.kind, hw,
      ht] at ih ⊢
    simp [ih]
  | case4 ts hts =>
    rcases ts with _ | ⟨t, _ | ⟨u, ts⟩⟩
    · rfl
    · rfl
    · exact absurd rfl (hts t u ts)

lemma any_isTopWord_map (h : Token.Relocates g) (w : String) (ts : List DeepToken) :
    (ts.map (DeepToken.relocate g)).any (·.isTopWord w) = ts.any (·.isTopWord w) := by
  rw [List.any_map]
  congr 1
  exact funext fun t => t.isTopWord_relocate h w

lemma find?_relocate {us : List Token} (ho : Token.KeepsOrder g us) {lists : List ParenList}
    (hl : ∀ l ∈ lists, l.opening ∈ us) {t : Token} (ht : t ∈ us) :
    (lists.map (ParenList.relocate g)).find? (·.opening.start == (g t).start) =
      (lists.find? (·.opening.start == t.start)).map (ParenList.relocate g) := by
  rw [List.find?_map]
  refine congrArg _ (List.find?_congr fun l hm => ?_)
  rw [Bool.eq_iff_iff]
  have he := ho.start_eq (hl l hm) ht
  simpa [ParenList.relocate] using he

lemma dropWhile_start_map {us : List Token} (ho : Token.KeepsOrder g us) {c : Token} (hc : c ∈ us)
    {ts : List DeepToken} (ht : ∀ t ∈ ts, t.token ∈ us) :
    (ts.map (DeepToken.relocate g)).dropWhile (·.token.start ≤ (g c).start) =
      (ts.dropWhile (·.token.start ≤ c.start)).map (DeepToken.relocate g) := by
  induction ts with
  | nil => rfl
  | cons t ts ih =>
    have he : (DeepToken.relocate g t).token.start ≤ (g c).start ↔ t.token.start ≤ c.start :=
      ho _ (ht t List.mem_cons_self) _ hc
    have ih := ih fun u hu => ht u (List.mem_cons_of_mem _ hu)
    rw [List.map_cons, List.dropWhile_cons, List.dropWhile_cons, ih]
    by_cases e : t.token.start ≤ c.start
    · rw [if_pos (decide_eq_true e), if_pos (decide_eq_true (he.2 e))]
    · have e' := mt he.1 e
      rw [if_neg (by simpa using e'), if_neg (by simpa using e), List.map_cons]

/-- The rows have the same entries at the other places. -/
lemma rowsFrom_map (h : Token.Relocates g) {us : List Token} (ho : Token.KeepsOrder g us)
    {lists : List ParenList} (hl : ∀ l ∈ lists, l.opening ∈ us ∧ l.closing ∈ us)
    {ts : List DeepToken} (ht : ∀ t ∈ ts, t.token ∈ us) :
    (rowsFrom (lists.map (ParenList.relocate g)) (ts.map (DeepToken.relocate g))).map
        ValueRow.entries = (rowsFrom lists ts).map ValueRow.entries := by
  have hf : ∀ t ∈ us, _ := fun t => find?_relocate ho (fun l hm => (hl l hm).1)
  fun_induction rowsFrom lists ts with
  | case1 => simp [rowsFrom]
  | case2 t ts hk hn =>
    -- the list that opens at a token is found again at its other place
    have e := hf t.token (ht t List.mem_cons_self)
    rw [hn] at e
    simp only [List.map_cons, rowsFrom, DeepToken.relocate, h.kind, hk, e, Option.map_none]
  | case3 t ts hk l hs ih =>
    have e := hf t.token (ht t List.mem_cons_self)
    rw [hs] at e
    have hc := (hl l (List.mem_of_find?_eq_some hs)).2
    have hts : ∀ u ∈ ts, u.token ∈ us := fun u hu => ht u (List.mem_cons_of_mem _ hu)
    have ih := ih fun u hu => hts u ((List.dropWhile_sublist _).subset hu)
    rw [List.map_cons, rowsFrom]
    simp only [DeepToken.relocate, h.kind, hk, e, Option.map_some, ParenList.entries_relocate h]
    have hd : (ts.map (DeepToken.relocate g)).dropWhile
        (·.token.start ≤ (ParenList.relocate g l).closing.start) =
          (ts.dropWhile (·.token.start ≤ l.closing.start)).map (DeepToken.relocate g) :=
      dropWhile_start_map ho hc hts
    rw [hd, List.map_cons, List.map_cons, ih]
  | case4 t ts hk ih =>
    have ih := ih fun u hu => ht u (List.mem_cons_of_mem _ hu)
    rw [List.map_cons, rowsFrom]
    simp only [DeepToken.relocate, h.kind, hk]
    exact ih
  | case5 t ts hk hk' =>
    rw [List.map_cons, rowsFrom]
    simp only [DeepToken.relocate, h.kind]

lemma mem_of_mem_after {p : DeepToken → Bool} {t : DeepToken} (h : t ∈ after p ts) : t ∈ ts :=
  (List.dropWhile_sublist _).subset (List.mem_of_mem_drop h)

lemma rows_map (h : Token.Relocates g) {us : List Token} (ho : Token.KeepsOrder g us)
    {lists : List ParenList} (hl : ∀ l ∈ lists, l.opening ∈ us ∧ l.closing ∈ us)
    (ht : ∀ t ∈ ts, t.token ∈ us) :
    (rows (lists.map (ParenList.relocate g)) (ts.map (DeepToken.relocate g))).map
        ValueRow.entries = (rows lists ts).map ValueRow.entries := by
  rw [rows, after_map fun t => by rw [t.isTopWord_relocate h, t.isTopWord_relocate h]]
  exact rowsFrom_map h ho hl fun t hm => ht t (mem_of_mem_after hm)

end Statement

/-! ### Texts whose tokens differ in their places -/

namespace SqlText

variable {t t' : SqlText}

lemma statementTokens_map (h : Token.Relocates g) (e : t'.tokens = t.tokens.map g) :
    t'.statementTokens = t.statementTokens.map (DeepToken.relocate g) := by
  rw [statementTokens, e, DeepToken.ofTokens_map h, Statement.tokens_map h, statementTokens]

lemma token_mem_of_mem_statementTokens {u : DeepToken} (h : u ∈ t.statementTokens) :
    u.token ∈ t.tokens :=
  DeepToken.token_mem_of_mem_ofTokens ((List.takeWhile_sublist _).subset h)

lemma parenLists_map (h : Token.Relocates g) (e : t'.tokens = t.tokens.map g) :
    t'.parenLists = t.parenLists.map (ParenList.relocate g) := by
  have ht : (t.statementTokens.map (DeepToken.relocate g)).map (·.token) =
      (t.statementTokens.map (·.token)).map g := by
    rw [List.map_map, List.map_map]
    rfl
  rw [parenLists, statementTokens_map h e, ht, ParenList.ofTokens_map h, parenLists]

lemma mem_tokens_of_mem_parenLists {l : ParenList} (h : l ∈ t.parenLists) :
    l.opening ∈ t.tokens ∧ l.closing ∈ t.tokens := by
  have hs : ∀ u ∈ t.statementTokens.map (·.token), u ∈ t.tokens := by
    intro u hu
    obtain ⟨v, hv, rfl⟩ := List.mem_map.1 hu
    exact token_mem_of_mem_statementTokens hv
  have hl := ParenList.mem_of_mem_ofTokens h
  exact ⟨hs _ hl.1, hs _ hl.2⟩

/-- The same number of literals shares a list with placeholders. -/
lemma length_hardcoded_map (h : Token.Relocates g) (e : t'.tokens = t.tokens.map g) :
    (t'.listsByOpening.flatMap ParenList.hardcoded).length =
      (t.listsByOpening.flatMap ParenList.hardcoded).length := by
  have hp : ∀ u : SqlText, (u.listsByOpening.flatMap ParenList.hardcoded).length =
      (u.parenLists.flatMap ParenList.hardcoded).length := fun u =>
    ((List.mergeSort_perm _ _).flatMap_right _).length_eq
  rw [hp, hp, parenLists_map h e, List.length_flatMap, List.length_flatMap, List.map_map]
  congr 1
  exact List.map_congr_left fun l _ => l.length_hardcoded_relocate h

end SqlText

end QueryGuard
