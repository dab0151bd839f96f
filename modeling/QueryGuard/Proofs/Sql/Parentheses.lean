import QueryGuard.Proofs.Sql.Items

/-!
The lists of a token stream, told apart from the one pass in which they are read. Which parentheses
match is said by their places alone, and what stands between two that match is cut at the commas
outside inner parentheses, all at once. Main statement: whatever the tokens are, there is one list
for every two parentheses that match, in the order in which they close, with the items that stand
between them.
-/

namespace QueryGuard

open Token.Kind

/-! ### What an item is -/

namespace ListItem

/-- The item is one token, a placeholder. -/
def IsPlaceholder (i : ListItem) : Prop := ∃ t, i.tokens = [t] ∧ t.kind = .placeholder

/-- The item is one token, a string or a number, or a sign and a number. -/
def IsLiteral (i : ListItem) : Prop :=
  (∃ t, i.tokens = [t] ∧ (t.kind = .string ∨ t.kind = .number)) ∨
    ∃ s t, i.tokens = [s, t] ∧ s.kind = .symbol ∧ (s.text = ['-'] ∨ s.text = ['+']) ∧
      t.kind = .number

/-- What an item is, inner parentheses making it an expression whatever else stands in it. -/
def Is (i : ListItem) : Entry → Prop
  | .placeholder => i.nested = false ∧ i.IsPlaceholder
  | .literal => i.nested = false ∧ i.IsLiteral
  | .expression => i.nested = true ∨ ¬ i.IsPlaceholder ∧ ¬ i.IsLiteral

lemma isSign_iff {t : Token} :
    isSign t ↔ t.kind = .symbol ∧ (t.text = ['-'] ∨ t.text = ['+']) := by
  simp [isSign]

/-- **The entry of an item** is what the item is. -/
theorem is_entry (i : ListItem) : i.Is i.entry := by
  obtain ⟨tokens, nested⟩ := i
  cases nested with
  | true => exact .inl rfl
  | false =>
    match tokens with
    | [] => simp [entry, Is, IsPlaceholder, IsLiteral]
    | [t] =>
      simp only [entry, Bool.false_eq_true, if_false]
      split
      · next hp => exact ⟨rfl, t, rfl, hp⟩
      · next hp =>
        split
        · next hl => exact ⟨rfl, .inl ⟨t, rfl, hl⟩⟩
        · next hl => simp [Is, IsPlaceholder, IsLiteral, hp, hl]
    | [s, t] =>
      simp only [entry, Bool.false_eq_true, if_false, isSign_iff]
      split
      · next hl => exact ⟨rfl, .inr ⟨s, t, rfl, hl.1.1, hl.1.2, hl.2⟩⟩
      · next hl => simp_all [Is, IsPlaceholder, IsLiteral, and_assoc]
    | _ :: _ :: _ :: _ => simp [entry, Is, IsPlaceholder, IsLiteral]

end ListItem

namespace ParenList

/-! ### Parentheses that match -/

/-- The places of the parentheses that are open behind a token at place `n`, innermost first, where
those at `opened` are open in front of it. A closing parenthesis with nothing to close is passed
over. -/
def opens (n : Nat) (opened : List Nat) (t : Token) : List Nat :=
  match t.kind with
  | .openParen => n :: opened
  | .closeParen => opened.tail
  | _ => opened

/-- The places of the parentheses that match of which the token is the closing one. -/
def closes (n : Nat) (opened : List Nat) (t : Token) : Option (Nat × Nat) :=
  if t.kind = .closeParen then opened.head?.map (·, n) else none

/-- The places of the parentheses that match among the tokens from place `n` on, in the order in
which they close. -/
def pairsFrom (n : Nat) (opened : List Nat) : List Token → List (Nat × Nat)
  | [] => []
  | t :: ts => (closes n opened t).toList ++ pairsFrom (n + 1) (opens n opened t) ts

/-- The places of the parentheses of a token stream that match, in the order in which they close. -/
def pairs (ts : List Token) : List (Nat × Nat) := pairsFrom 0 [] ts

/-- Parentheses stand at the two places, and those between them match one another. -/
def Matches (ts : List Token) (i j : Nat) : Prop :=
  ∃ (pre : List Token) (p : Parens) (post : List Token), ts = pre ++ (p.tokens ++ post) ∧
    i = pre.length ∧ j = pre.length + 1 + p.inner.length

/-! ### What stands between two parentheses -/

/-- The item that a piece of a list is: its tokens outside inner parentheses, without these, and
whether there are any. -/
def itemOf (us : List DeepToken) : ListItem where
  tokens := (us.filter fun u =>
    u.isTop && (u.token.kind != .openParen && u.token.kind != .closeParen)).map (·.token)
  nested := us.any fun u => u.isTop && u.token.kind == .openParen

/-- The pieces between the commas outside inner parentheses. -/
def pieces (ts : List Token) : List (List DeepToken) :=
  (DeepToken.ofTokens 0 ts).splitOnP fun u => u.isTop && u.token.kind == .comma

/-- The items of a list of which the tokens are given: one for each piece, or none where there is no
token at all. -/
def itemsOf (ts : List Token) : List ListItem := if ts = [] then [] else (pieces ts).map itemOf

/-- The list is the one between the parentheses at the two places. -/
structure Between (ts : List Token) (p : Nat × Nat) (l : ParenList) : Prop where
  opening : ts[p.1]? = some l.opening
  closing : ts[p.2]? = some l.closing
  items : l.items = itemsOf ((ts.take p.2).drop (p.1 + 1))
  entries : List.Forall₂ ListItem.Is l.items l.entries

variable {ts us mid : List Token} {n : Nat} {opened : List Nat} {t : Token}

/-! ### Places -/

/-- The places of the parentheses that are open behind the tokens. -/
def openedFrom (n : Nat) (opened : List Nat) : List Token → List Nat
  | [] => opened
  | t :: ts => openedFrom (n + 1) (opens n opened t) ts

lemma openedFrom_append (n : Nat) (opened : List Nat) (ts us : List Token) :
    openedFrom n opened (ts ++ us) = openedFrom (n + ts.length) (openedFrom n opened ts) us := by
  induction ts generalizing n opened with
  | nil => rfl
  | cons t ts ih =>
    rw [List.cons_append, openedFrom, openedFrom, ih, List.length_cons, Nat.add_right_comm,
      Nat.add_assoc]

lemma pairsFrom_append (n : Nat) (opened : List Nat) (ts us : List Token) :
    pairsFrom n opened (ts ++ us) =
      pairsFrom n opened ts ++ pairsFrom (n + ts.length) (openedFrom n opened ts) us := by
  induction ts generalizing n opened with
  | nil => rfl
  | cons t ts ih =>
    rw [List.cons_append, pairsFrom, pairsFrom, openedFrom, ih, List.append_assoc,
      List.length_cons, Nat.add_right_comm, Nat.add_assoc]

/-- Tokens whose parentheses match one another leave the open ones as they are. -/
lemma openedFrom_of_nested {p : Token.Kind → Prop} {ks : List Token.Kind} (h : Nested p ks)
    (e : ts.map (·.kind) = ks) (n : Nat) (opened : List Nat) : openedFrom n opened ts = opened := by
  induction h generalizing ts n opened with
  | nil =>
    obtain rfl := List.map_eq_nil_iff.1 e
    rfl
  | cons ho hc _ _ ih =>
    obtain ⟨t, ts, rfl, rfl, htail⟩ := List.map_eq_cons_iff.1 e
    have ht : opens n opened t = opened := by
      unfold opens
      split
      · contradiction
      · contradiction
      · rfl
    rw [openedFrom, ht]
    exact ih htail _ _
  | parens _ _ ihi ih =>
    -- the inner parentheses leave the place of `o` on top, which `c` takes off
    obtain ⟨o, inner, c, ts, rfl, ho, hi, hc, e⟩ := Token.exists_parens e
    have hopen : opens n opened o = n :: opened := by rw [opens, ho]
    have hclose : ∀ m, opens m (n :: opened) c = opened := fun m => by rw [opens, hc]; rfl
    rw [openedFrom, hopen, openedFrom_append, ihi hi, openedFrom, hclose]
    exact ih e _ _

/-- Parentheses close one behind the other. -/
lemma pairwise_pairsFrom (n : Nat) (opened : List Nat) (ts : List Token) :
    (pairsFrom n opened ts).Pairwise (fun p q => p.2 < q.2) ∧
      ∀ p ∈ pairsFrom n opened ts, n ≤ p.2 := by
  induction ts generalizing n opened with
  | nil => exact ⟨.nil, nofun⟩
  | cons t ts ih =>
    obtain ⟨hlt, hle⟩ := ih (n + 1) (opens n opened t)
    have hclose : ∀ p ∈ (closes n opened t).toList, p.2 = n := by
      intro p hp
      unfold closes at hp
      split at hp
      · obtain ⟨i, -, rfl⟩ := Option.map_eq_some_iff.1 (Option.mem_toList.1 hp)
        rfl
      · cases hp
    rw [pairsFrom]
    refine ⟨List.pairwise_append.2 ⟨?_, hlt, fun p hp q hq => ?_⟩, fun p hp => ?_⟩
    -- a pair that closes here comes before all that close later
    · cases closes n opened t with
      | none => exact .nil
      | some p => exact List.pairwise_singleton _ p
    · rw [hclose p hp]
      exact hle q hq
    · rcases List.mem_append.1 hp with hp | hp
      · exact (hclose p hp).ge
      · exact Nat.le_of_succ_le (hle p hp)

lemma length_unclosed_inner (m : Matching) (f : Unclosed → Unclosed) :
    (m.inner f).unclosed.length = m.unclosed.length := by
  rw [Matching.inner_eq, List.length_modifyHead]

/-- As many parentheses are open as there are lists that are. -/
lemma length_openedFrom (n : Nat) (opened : List Nat) (ts : List Token) (m : Matching)
    (h : opened.length = m.unclosed.length) :
    (openedFrom n opened ts).length = (ts.foldl Matching.step m).unclosed.length := by
  induction ts generalizing n opened m with
  | nil => exact h
  | cons t ts ih =>
    refine ih (n + 1) _ (m.step t) ?_
    unfold opens Matching.step
    split
    · next ho =>
      rw [ho]
      show _ = (m.inner Unclosed.nest).unclosed.length + 1
      rw [length_unclosed_inner, List.length_cons, h]
    · next hc =>
      rw [hc, List.length_tail, h]
      obtain ⟨_ | ⟨u, us⟩, ls⟩ := m <;> rfl
    · split
      · contradiction
      · contradiction
      · rw [length_unclosed_inner, h]
      · rw [length_unclosed_inner, h]

/-- Two parentheses that match are a pair. -/
lemma mem_pairs_of_matches {i j : Nat} (h : Matches ts i j) : (i, j) ∈ pairs ts := by
  obtain ⟨pre, p, post, rfl, rfl, rfl⟩ := h
  have hopen : ∀ n opened, opens n opened p.opening = n :: opened := fun n opened => by
    rw [opens, p.opening_kind]
  have hclose : ∀ n i opened, closes n (i :: opened) p.closing = some (i, n) :=
    fun n i opened => if_pos p.closing_kind
  rw [pairs, pairsFrom_append, Parens.tokens, List.cons_append, List.append_assoc, pairsFrom,
    hopen, pairsFrom_append, openedFrom_of_nested p.nested rfl, List.singleton_append, pairsFrom,
    hclose, Nat.zero_add]
  simp

/-! ### Pieces -/

lemma modifyHead_nil_append {α : Type} (xs : List (List α)) : xs.modifyHead ([] ++ ·) = xs := by
  cases xs <;> rfl

lemma splitOnP_append_of_forall {α : Type} {p : α → Bool} {xs : List α} (h : ∀ x ∈ xs, p x = false)
    (ys : List α) : (xs ++ ys).splitOnP p = (ys.splitOnP p).modifyHead (xs ++ ·) := by
  induction xs with
  | nil =>
    rw [List.nil_append]
    exact (modifyHead_nil_append _).symm
  | cons x xs ih =>
    obtain ⟨hx, hxs⟩ := List.forall_mem_cons.1 h
    rw [List.cons_append, List.splitOnP_cons_eq_if_modifyHead, hx, ih hxs,
      List.modifyHead_modifyHead]
    rfl

lemma pieces_comma (ht : t.kind = .comma) (ts : List Token) :
    pieces (t :: ts) = [] :: pieces ts := by
  have hk : t.kind ≠ .openParen ∧ t.kind ≠ .closeParen := by rw [ht]; decide
  rw [pieces, DeepToken.ofTokens_cons hk.1 hk.2, List.splitOnP_cons_eq_if_modifyHead,
    if_pos (by simp [DeepToken.isTop, ht]), pieces]

lemma pieces_cons (ho : t.kind ≠ .openParen) (hc : t.kind ≠ .closeParen) (hs : t.kind ≠ .comma)
    (ts : List Token) : pieces (t :: ts) = (pieces ts).modifyHead (⟨t, 0⟩ :: ·) := by
  rw [pieces, DeepToken.ofTokens_cons ho hc, List.splitOnP_cons_eq_if_modifyHead,
    if_neg (by simp [hs]), pieces]

/-- Two parentheses that match are in one piece, whatever stands between them. -/
lemma pieces_parens {o c : Token} (ho : o.kind = .openParen)
    (hm : Nested (fun _ => True) (mid.map (·.kind))) (hc : c.kind = .closeParen)
    (ts : List Token) : pieces (o :: (mid ++ c :: ts)) =
      (pieces ts).modifyHead ((⟨o, 0⟩ :: (DeepToken.ofTokens 1 mid ++ [⟨c, 0⟩])) ++ ·) := by
  have hcut : ∀ us, (⟨o, 0⟩ : DeepToken) :: (DeepToken.ofTokens 1 mid ++ ⟨c, 0⟩ :: us) =
      (⟨o, 0⟩ :: (DeepToken.ofTokens 1 mid ++ [⟨c, 0⟩])) ++ us := fun us => by simp
  rw [pieces, DeepToken.ofTokens_parens ho hm hc, hcut, splitOnP_append_of_forall, pieces]
  refine List.forall_mem_cons.2 ⟨by simp [ho], List.forall_mem_append.2 ⟨fun u hu => ?_, ?_⟩⟩
  · rw [DeepToken.depth_pos_of_nested hm hu, Bool.false_and]
  · simp [hc]

lemma itemOf_append (us vs : List DeepToken) : itemOf (us ++ vs) =
    ⟨(itemOf us).tokens ++ (itemOf vs).tokens, (itemOf us).nested || (itemOf vs).nested⟩ := by
  simp [itemOf]

lemma itemOf_singleton (ho : t.kind ≠ .openParen) (hc : t.kind ≠ .closeParen) :
    itemOf [⟨t, 0⟩] = ⟨[t], false⟩ := by
  simp [itemOf, DeepToken.isTop, ho, hc]

lemma itemOf_parens {o c : Token} (ho : o.kind = .openParen)
    (hm : Nested (fun _ => True) (mid.map (·.kind))) (hc : c.kind = .closeParen) :
    itemOf (⟨o, 0⟩ :: (DeepToken.ofTokens 1 mid ++ [⟨c, 0⟩])) = ⟨[], true⟩ := by
  have htop : ∀ u ∈ DeepToken.ofTokens 1 mid, u.isTop = false := fun u =>
    DeepToken.depth_pos_of_nested hm
  have hinner : itemOf (DeepToken.ofTokens 1 mid) = ⟨[], false⟩ := by
    rw [itemOf, List.filter_eq_nil_iff.2 fun u hu => by simp [htop u hu],
      List.any_eq_false.2 fun u hu => by simp [htop u hu]]
    rfl
  rw [← List.singleton_append, itemOf_append, itemOf_append, hinner]
  simp [itemOf, DeepToken.isTop, ho, hc]

namespace Matching

/-- Behind an opening parenthesis nothing of an item is at hand. -/
lemma item_fresh (o : Token) : (Unclosed.fresh o).item = itemOf [] := rfl

/-- Nested tokens are read on behind the item at hand, and they are cut at their commas. -/
theorem exists_through_pieces {p : Token.Kind → Prop} {ks : List Token.Kind} (h : Nested p ks)
    (e : ts.map (·.kind) = ks) {v : Unclosed} {hand : List DeepToken} (hv : v.item = itemOf hand) :
    ∃ v' new, Through ts v v' new ∧ v'.items.reverse ++ [v'.item] =
      v.items.reverse ++ ((pieces ts).modifyHead (hand ++ ·)).map itemOf := by
  induction h generalizing ts v hand with
  | nil =>
    obtain rfl := List.map_eq_nil_iff.1 e
    refine ⟨v, [], .nil v, ?_⟩
    rw [hv]
    simp [pieces, DeepToken.ofTokens]
  | @cons p k ks ho hc hp _ ih =>
    obtain ⟨t, ts, rfl, rfl, htail⟩ := List.map_eq_cons_iff.1 e
    -- a comma ends the piece at hand, and any other token goes to it
    by_cases hs : t.kind = .comma
    · have hcomma : v.comma.item = itemOf [] := rfl
      obtain ⟨v', new, hthrough, hitems⟩ := ih htail hcomma
      refine ⟨v', _, (through_comma hs v).append hthrough, ?_⟩
      rw [hitems, pieces_comma hs, modifyHead_nil_append]
      simp [Unclosed.comma, hv]
    · have hpush : (v.push t).item = itemOf (hand ++ [⟨t, 0⟩]) := by
        rw [itemOf_append, ← hv, itemOf_singleton ho hc]
        simp [Unclosed.push, Unclosed.item]
      obtain ⟨v', new, hthrough, hitems⟩ := ih htail hpush
      refine ⟨v', _, (through_push ho hc hs v).append hthrough, ?_⟩
      rw [hitems, pieces_cons ho hc hs, List.modifyHead_modifyHead]
      simp [Unclosed.push, Function.comp_def]
  | @parens p inner ks hinner _ ihi ih =>
    -- parentheses go to the piece at hand, with the tokens between them one level deeper
    obtain ⟨o, inner, c, ts, rfl, ho, hi, hc, e⟩ := Token.exists_parens e
    have hinner : Nested (fun _ => True) (inner.map (·.kind)) := hi ▸ hinner
    obtain ⟨w, new, hw, -⟩ := ihi hi (item_fresh o)
    have hnest : v.nest.item =
        itemOf (hand ++ ⟨o, 0⟩ :: (DeepToken.ofTokens 1 inner ++ [⟨c, 0⟩])) := by
      rw [itemOf_append, ← hv, itemOf_parens ho hinner hc]
      simp [Unclosed.nest, Unclosed.item]
    obtain ⟨v', new', hthrough, hitems⟩ := ih e hnest
    have hcut : o :: (inner ++ c :: ts) = o :: (inner ++ [c]) ++ ts := by simp
    refine ⟨v', new' ++ w.close c :: new, ?_, ?_⟩
    · rw [hcut]
      exact (hw.parens ho hc v).append hthrough
    · rw [hitems, pieces_parens ho hinner hc, List.modifyHead_modifyHead]
      simp [Unclosed.nest, Function.comp_def]

/-- What is read behind a parenthesis is closed with the items that it is cut to. -/
lemma Through.items_close {o c : Token} {w : Unclosed} {new : List ParenList}
    (h : Through mid (.fresh o) w new) (hm : Nested (fun _ => True) (mid.map (·.kind))) :
    (w.close c).items = itemsOf mid := by
  obtain ⟨w', new', hw, hpieces⟩ :=
    exists_through_pieces hm rfl (item_fresh o)
  obtain ⟨w'', new'', is, hw', hcontent, hitems⟩ := exists_through_content hm o
  obtain rfl := h.unique hw
  obtain rfl := h.unique hw'
  rw [modifyHead_nil_append] at hpieces
  rw [itemsOf]
  cases hcontent with
  | empty => exact hitems c
  | items hne his =>
    -- where something stands there is an item, so the one at hand is not left out
    have hclose := hitems c
    rw [Unclosed.close] at hclose
    rw [if_neg hne, hitems c, ← hclose]
    split
    · next hvoid =>
      rw [if_pos hvoid] at hclose
      exact absurd hclose.symm his.ne_nil
    · rw [List.reverse_cons]
      exact hpieces

/-- A token that closes nothing leaves the closed lists as they are. -/
lemma closed_step_of_ne (m : Matching) (ht : t.kind ≠ .closeParen) :
    (m.step t).closed = m.closed := by
  unfold Matching.step
  split
  · rw [inner_eq]
  · contradiction
  · rw [inner_eq]
  · rw [inner_eq]

end Matching

/-! ### One list for every two parentheses that match -/

lemma Matches.append {i j : Nat} (h : Matches ts i j) (us : List Token) :
    Matches (ts ++ us) i j := by
  obtain ⟨pre, p, post, rfl, hi, hj⟩ := h
  exact ⟨pre, p, post ++ us, by simp, hi, hj⟩

lemma Between.append {p : Nat × Nat} {l : ParenList} (h : Between ts p l) (us : List Token) :
    Between (ts ++ us) p l := by
  obtain ⟨hi, -⟩ := List.getElem?_eq_some_iff.1 h.opening
  obtain ⟨hj, -⟩ := List.getElem?_eq_some_iff.1 h.closing
  refine ⟨?_, ?_, ?_, h.entries⟩
  · rw [List.getElem?_append_left hi, h.opening]
  · rw [List.getElem?_append_left hj, h.closing]
  · rw [List.take_append_of_le_length hj.le, h.items]

lemma forall₂_is_entries (l : ParenList) : List.Forall₂ ListItem.Is l.items l.entries :=
  List.forall₂_map_right_iff.2 (List.forall₂_same.2 fun i _ => i.is_entry)

/-- The list that a token closes. -/
lemma between_close {u : Unclosed} {us : List Unclosed} (h : Stacked ts (u :: us))
    (ht : t.kind = .closeParen) : ∃ (i : Nat) (opened : List Nat),
      openedFrom 0 [] ts = i :: opened ∧ Matches (ts ++ [t]) i ts.length ∧
        Between (ts ++ [t]) (i, ts.length) (u.close t) := by
  obtain ⟨pre, o, mid, new, rfl, ho, hmid, hu⟩ := h.exists_parts
  have hopen : opens (0 + pre.length) (openedFrom 0 [] pre) o =
      pre.length :: openedFrom 0 [] pre := by rw [opens, ho, Nat.zero_add]
  refine ⟨pre.length, openedFrom 0 [] pre, ?_, ⟨pre, ⟨o, mid, t, ho, hmid, ht⟩, [], ?_, rfl, ?_⟩,
    ⟨?_, ?_, ?_, ?_⟩⟩
  · rw [openedFrom_append, openedFrom, hopen, openedFrom_of_nested hmid rfl]
  · simp [Parens.tokens]
  · simp
    omega
  · have hopening : (u.close t).opening = o := hu.opening
    simp [hopening]
  · exact List.getElem?_concat_length
  · have hcut : pre ++ o :: mid = (pre ++ [o]) ++ mid := by simp
    have hplace : pre.length + 1 = (pre ++ [o]).length := by simp
    rw [hu.items_close hmid, List.take_left, hplace, hcut, List.drop_left]
  · exact forall₂_is_entries _

/-- A token closes the lists that stand between the parentheses it is the closing one of. -/
lemma exists_closed_step (ts : List Token) (t : Token) : ∃ new : List ParenList,
    ofTokens (ts ++ [t]) = ofTokens ts ++ new ∧
      List.Forall₂ (Between (ts ++ [t])) (closes ts.length (openedFrom 0 [] ts) t).toList new ∧
        ∀ p ∈ (closes ts.length (openedFrom 0 [] ts) t).toList, Matches (ts ++ [t]) p.1 p.2 := by
  have htraces := Matching.traces ts
  have hlength := length_openedFrom 0 [] ts .empty rfl
  rw [ofTokens, ofTokens, List.foldl_append, List.foldl_cons, List.foldl_nil]
  generalize ts.foldl Matching.step .empty = m at *
  by_cases ht : t.kind = .closeParen
  · obtain ⟨_ | ⟨u, us⟩, ls⟩ := m
    · -- nothing is open, and the parenthesis is passed over
      have hclosed : (Matching.step ⟨[], ls⟩ t).closed = ls := by
        unfold Matching.step
        rw [ht]
      have hcloses : closes ts.length [] t = none := if_pos ht
      rw [hclosed, List.eq_nil_of_length_eq_zero hlength, hcloses]
      exact ⟨[], (List.append_nil _).symm, .nil, List.forall_mem_nil _⟩
    · obtain ⟨i, opened, hopened, hmatches, hbetween⟩ := between_close htraces.unclosed ht
      have hcloses : closes ts.length (i :: opened) t = some (i, ts.length) := if_pos ht
      rw [Matching.step_closeParen ht, hopened, hcloses]
      refine ⟨[u.close t], List.reverse_cons, .cons hbetween .nil, fun p hp => ?_⟩
      obtain rfl := List.mem_singleton.1 hp
      exact hmatches
  · rw [Matching.closed_step_of_ne m ht, closes, if_neg ht]
    exact ⟨[], (List.append_nil _).symm, .nil, List.forall_mem_nil _⟩

/-- **The lists are those between the parentheses that match.** -/
theorem between_pairs (ts : List Token) :
    List.Forall₂ (Between ts) (pairs ts) (ofTokens ts) ∧ ∀ p ∈ pairs ts, Matches ts p.1 p.2 := by
  induction ts using List.reverseRecOn with
  | nil => exact ⟨.nil, nofun⟩
  | append_singleton ts t ih =>
    obtain ⟨hlists, hpairs⟩ := ih
    obtain ⟨new, hclosed, hnew, hmatches⟩ := exists_closed_step ts t
    have hstep : pairs (ts ++ [t]) =
        pairs ts ++ (closes ts.length (openedFrom 0 [] ts) t).toList := by
      rw [pairs, pairsFrom_append, pairsFrom, pairsFrom, Nat.zero_add, List.append_nil, pairs]
    rw [hstep, hclosed]
    constructor
    · exact List.rel_append (hlists.imp fun _ _ h => h.append [t]) hnew
    · exact List.forall_mem_append.2 ⟨fun p hp => (hpairs p hp).append [t], hmatches⟩

/-- **The lists of a token stream**: one for every two parentheses that match, in the order in which
they close. Those match that have only parentheses between them that match one another. -/
theorem lists_between_pairs (ts : List Token) :
    List.Forall₂ (Between ts) (pairs ts) (ofTokens ts) ∧
    (pairs ts).Pairwise (fun p q => p.2 < q.2) ∧
    ∀ i j, (i, j) ∈ pairs ts ↔ Matches ts i j :=
  ⟨(between_pairs ts).1, (pairwise_pairsFrom 0 [] ts).1,
    fun _ _ => ⟨(between_pairs ts).2 _, mem_pairs_of_matches⟩⟩

end ParenList

end QueryGuard
