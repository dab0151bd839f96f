import QueryGuard.Proofs.Sql.Items

/-!
Rows. Main statements: the rows that are read from a place of a token stream on are the lists that
stand there, whatever stands in them, and lists that are joined by commas are read as rows, one for
each, with the entries that stand between the commas.
-/

namespace QueryGuard

open Token.Kind ParenList

/-! ### Entries -/

lemma ParenList.IsItem.forms {ts : List Token} {entry : Entry} (h : IsItem ts entry) :
    Forms ts ⟨ts, ts.any (·.kind == .openParen)⟩ := ⟨h.nested, rfl, fun _ => rfl⟩

lemma ParenList.Lists.exists_content {ts : List Token} {entries : List Entry}
    (h : Lists ts entries) : ∃ is, Content ts is ∧ is.map ListItem.entry = entries := by
  induction h with
  | empty => exact ⟨[], .empty, rfl⟩
  | one hi =>
    refine ⟨_, .items hi.ne_nil (.one hi.forms), ?_⟩
    rw [List.map_singleton, hi.entry_eq]
  | @cons ts us c entry next entries hi hc _ ih =>
    obtain ⟨is, his, hentries⟩ := ih
    obtain ⟨i, is, rfl, -, -⟩ := List.map_eq_cons_iff.1 hentries
    have hitems := Items.cons hi.forms hc (his.items_of_mem List.mem_cons_self)
    refine ⟨_, .items (by simp) hitems, ?_⟩
    rw [List.map_cons, hentries, hi.entry_eq]

namespace Parens

variable (p : Parens) {pre post : List Token}

/-- The row that is read off the list. -/
def row : ValueRow := ⟨p.list.entries, p.span⟩

/-- Tokens that are two parentheses at other places are two parentheses. -/
lemma exists_of_map {g : Token → Token} (hg : Token.Relocates g) {ts : List Token}
    (h : ts.map g = p.tokens) : ∃ q : Parens, q.tokens = ts := by
  obtain ⟨o, ts, rfl, ho, h⟩ := List.map_eq_cons_iff.1 h
  obtain ⟨inner, cs, rfl, hi, h⟩ := List.map_eq_append_iff.1 h
  obtain ⟨c, cs, rfl, hc, h⟩ := List.map_eq_cons_iff.1 h
  obtain rfl := List.map_eq_nil_iff.1 h
  have hkind : inner.map (·.kind) = p.inner.map (·.kind) := by rw [← hi, hg.map_kind]
  exact ⟨⟨o, inner, c, by rw [← hg.kind, ho, p.opening_kind], hkind ▸ p.nested,
    by rw [← hg.kind, hc, p.closing_kind]⟩, rfl⟩

/-- Between parentheses the entries are those of the list that is read off them. -/
lemma entries_list {entries : List Entry} (h : Lists p.inner entries) :
    p.list.entries = entries := by
  obtain ⟨is, his, rfl⟩ := h.exists_content
  exact Matching.map_entry_eq p.content his

lemma length_entries_row : p.row.entries.length = itemCount p.inner := by
  rw [row, ParenList.entries, List.length_map, p.content.length_eq]

/-- The list is found by its opening parenthesis. -/
lemma find?_ofTokens (hs : (pre ++ (p.tokens ++ post)).Pairwise fun a b => a.start < b.start) :
    (ofTokens (pre ++ (p.tokens ++ post))).find? (·.opening.start == p.opening.start) =
      some p.list := by
  obtain ⟨later, hlists, -⟩ :=
    p.exists_ofTokens p (g := id) ⟨fun _ => rfl, fun _ _ => rfl⟩ (fun _ _ => rfl) post
  obtain ⟨-, hs, hpre⟩ := List.pairwise_append.1 hs
  have hinner := (List.pairwise_cons.1 (List.pairwise_append.1 hs).1).1
  have hother : ∀ l ∈ ofTokens pre ++ ofTokens p.inner,
      ¬ (l.opening.start == p.opening.start) = true := by
    intro l hl
    rw [beq_iff_eq]
    rcases List.mem_append.1 hl with hl | hl
    · exact (hpre _ (mem_of_mem_ofTokens hl).1 _ List.mem_cons_self).ne
    · exact (hinner _ (List.mem_append_left _ (mem_of_mem_ofTokens hl).1)).ne'
  rw [hlists, ← List.append_assoc, List.find?_append, List.find?_eq_none.2 hother, Option.none_or,
    List.find?_cons_of_pos (by simp)]

/-- No list is found by a token at which none begins. -/
lemma find?_ofTokens_eq_none {u : Token} {us : List Token}
    (hs : (pre ++ u :: us).Pairwise fun a b => a.start < b.start)
    (hl : ∀ (p : Parens) (ws : List Token), u :: us ≠ p.tokens ++ ws) :
    (ofTokens (pre ++ u :: us)).find? (·.opening.start == u.start) = none := by
  have hle : ∀ {u : Token} {us : List Token}, (u :: us).Pairwise (fun a b => a.start < b.start) →
      ∀ w ∈ u :: us, u.start ≤ w.start := fun h =>
    List.forall_mem_cons.2 ⟨Nat.le_refl _, fun w hw => ((List.pairwise_cons.1 h).1 w hw).le⟩
  -- a list that is found stands between two parentheses, and its opening one can only be `u`
  refine List.find?_eq_none.2 fun l hm he => ?_
  rw [beq_iff_eq] at he
  obtain ⟨front, p, back, e, rfl⟩ := encloses_of_mem_ofTokens hm
  rw [p.opening_list] at he
  have hs' := hs
  rw [e] at hs'
  obtain ⟨-, hs, hpre⟩ := List.pairwise_append.1 hs
  obtain ⟨-, hs', hfront⟩ := List.pairwise_append.1 hs'
  obtain ⟨-, e⟩ := Token.append_inj_of_start e (fun w hw => hpre w hw u List.mem_cons_self) (hle hs)
    (fun w hw => he ▸ hfront w hw p.opening List.mem_cons_self) (he ▸ hle hs')
  exact hl p back e

end Parens

/-! ### Lists in a row -/

namespace Statement

variable {ts : List Token} {ps : List Parens} {lists : List ParenList}
  {p : Token.Kind → Prop}

/-- The tokens begin with the lists, which have nothing but commas between them, and neither a comma
nor another list follows. -/
inductive ListsFrom : List Token → List Parens → Prop where
  | stop {ts : List Token} : (∀ u ∈ ts.head?, u.kind ≠ .comma) →
      (∀ (p : Parens) (us : List Token), ts ≠ p.tokens ++ us) → ListsFrom ts []
  | comma {c : Token} {ts : List Token} {ps : List Parens} : c.kind = .comma →
      ListsFrom ts ps → ListsFrom (c :: ts) ps
  | list {ts : List Token} {ps : List Parens} (p : Parens) :
      ListsFrom ts ps → ListsFrom (p.tokens ++ ts) (p :: ps)

lemma exists_listsFrom (ts : List Token) : ∃ ps, ListsFrom ts ps := by
  -- by the number of tokens, as a list takes more than one
  induction hn : ts.length using Nat.strong_induction_on generalizing ts with
  | _ n ih =>
    subst hn
    by_cases hl : ∃ (p : Parens) (us : List Token), ts = p.tokens ++ us
    · obtain ⟨p, us, rfl⟩ := hl
      have hlt : us.length < (p.tokens ++ us).length := by
        rw [Parens.tokens, List.length_append, List.length_cons]
        omega
      obtain ⟨ps, h⟩ := ih us.length hlt us rfl
      exact ⟨p :: ps, .list p h⟩
    · by_cases hc : ∃ c us, ts = c :: us ∧ c.kind = .comma
      · obtain ⟨c, us, rfl, hc⟩ := hc
        obtain ⟨ps, h⟩ := ih us.length (Nat.lt_succ_self _) us rfl
        exact ⟨ps, .comma hc h⟩
      · refine ⟨[], .stop (fun u hu hk => hc ?_) fun p us e => hl ⟨p, us, e⟩⟩
        obtain ⟨us, rfl⟩ := List.head?_eq_some_iff.1 hu
        exact ⟨u, us, rfl, hk⟩

/-- Lists are found at the places that they are moved to. -/
lemma ListsFrom.map {g : Token → Token} (hg : Token.Relocates g) (h : ListsFrom ts ps) :
    ListsFrom (ts.map g) (ps.map (Parens.relocate · hg)) := by
  induction h with
  | @stop ts hc hl =>
    refine .stop (fun u hu => ?_) fun p us e => ?_
    · rw [List.head?_map] at hu
      obtain ⟨w, hw, rfl⟩ := Option.map_eq_some_iff.1 hu
      rw [hg.kind]
      exact hc w hw
    · obtain ⟨xs, ys, rfl, hxs, -⟩ := List.map_eq_append_iff.1 e
      obtain ⟨q, hq⟩ := p.exists_of_map hg hxs
      exact hl q ys (by rw [hq])
  | comma hc _ ih => exact .comma (by rw [hg.kind, hc]) ih
  | list p _ ih =>
    rw [List.map_append, ← p.tokens_relocate hg]
    exact .list _ ih

/-- **A list may take the place of another**, and those behind it are moved. -/
theorem ListsFrom.exists_replace {qs : List Parens} {p : Parens}
    (h : ListsFrom ts (ps ++ p :: qs)) : ∃ front back, ts = front ++ (p.tokens ++ back) ∧
      ∀ (p' : Parens) {g : Token → Token} (hg : Token.Relocates g),
        ListsFrom (front ++ (p'.tokens ++ back.map g))
          (ps ++ p' :: qs.map (Parens.relocate · hg)) := by
  generalize hls : ps ++ p :: qs = ls at h
  induction h generalizing ps with
  | stop => simp at hls
  | @comma c ts ls hc _ ih =>
    obtain ⟨front, back, rfl, hnew⟩ := ih hls
    exact ⟨c :: front, back, rfl, fun p' _ hg => .comma hc (hnew p' hg)⟩
  | @list ts ls q hts ih =>
    rcases ps with _ | ⟨r, ps⟩
    · obtain ⟨rfl, rfl⟩ := List.cons.inj hls
      exact ⟨[], ts, rfl, fun p' _ hg => .list p' (hts.map hg)⟩
    · obtain ⟨rfl, hls'⟩ := List.cons.inj hls
      obtain ⟨front, back, rfl, hnew⟩ := ih hls'
      refine ⟨r.tokens ++ front, back, by simp, fun p' g hg => ?_⟩
      rw [List.append_assoc]
      exact .list r (hnew p' hg)

/-- A row is read off its list, and reading goes on behind it. -/
lemma rowsFrom_parens (p : Parens) {post : List Token}
    (hs : (p.tokens ++ post).Pairwise fun a b => a.start < b.start)
    (hl : lists.find? (·.opening.start == p.opening.start) = some p.list) :
    rowsFrom lists (DeepToken.ofTokens 0 (p.tokens ++ post)) =
      p.row :: rowsFrom lists (DeepToken.ofTokens 0 post) := by
  have hcut : p.tokens ++ post = p.opening :: (p.inner ++ p.closing :: post) := by
    simp [Parens.tokens]
  rw [hcut] at hs ⊢
  obtain ⟨-, hs, hinner⟩ := List.pairwise_append.1 (List.pairwise_cons.1 hs).2
  obtain ⟨hpost, -⟩ := List.pairwise_cons.1 hs
  have hdrop : (DeepToken.ofTokens 1 p.inner ++ ⟨p.closing, 0⟩ ::
      DeepToken.ofTokens 0 post).dropWhile (·.token.start ≤ p.list.closing.start) =
        DeepToken.ofTokens 0 post := by
    have hle : ∀ u ∈ DeepToken.ofTokens 1 p.inner,
        decide (u.token.start ≤ p.closing.start) = true := by
      intro u hu
      have hmem := DeepToken.token_mem_of_mem_ofTokens hu
      exact decide_eq_true (hinner u.token hmem p.closing List.mem_cons_self).le
    rw [p.closing_list, List.dropWhile_append_of_pos hle, List.dropWhile_cons_of_pos (by simp)]
    cases hu : DeepToken.ofTokens 0 post with
    | nil => rfl
    | cons u us =>
      have hmem := DeepToken.token_mem_of_mem_ofTokens (hu ▸ List.mem_cons_self : u ∈ _)
      have hlt := hpost u.token hmem
      exact List.dropWhile_cons_of_neg (by simpa using hlt)
  rw [DeepToken.ofTokens_parens p.opening_kind p.nested p.closing_kind, rowsFrom, p.opening_kind]
  simp only [hl, hdrop, Parens.row, p.span_list]

lemma rowsFrom_cons_eq_nil {u : DeepToken} (ho : u.token.kind ≠ .openParen)
    (hc : u.token.kind ≠ .comma) (us : List DeepToken) : rowsFrom lists (u :: us) = [] := by
  unfold rowsFrom
  split
  · next h => exact absurd h ho
  · next h => exact absurd h hc
  · rfl

/-- **The rows are the lists**, whatever stands in them. -/
theorem ListsFrom.rowsFrom_eq (h : ListsFrom ts ps) {pre : List Token}
    (hs : (pre ++ ts).Pairwise fun a b => a.start < b.start) :
    rowsFrom (ofTokens (pre ++ ts)) (DeepToken.ofTokens 0 ts) = ps.map Parens.row := by
  induction h generalizing pre with
  | @stop ts hc hl =>
    cases ts with
    | nil =>
      show rowsFrom _ [] = []
      rw [rowsFrom]
    | cons u us =>
      -- no list begins: a parenthesis that is not closed, or another token
      unfold DeepToken.ofTokens
      split
      · next ho =>
        have hnone := Parens.find?_ofTokens_eq_none hs hl
        rw [rowsFrom, ho]
        simp only [hnone, List.map_nil]
      · next hk => exact rowsFrom_cons_eq_nil (by rw [hk]; decide) (by rw [hk]; decide) _
      · next ho _ => exact rowsFrom_cons_eq_nil ho (hc u rfl) _
  | @comma c ts ps hc _ ih =>
    have ih := @ih (pre ++ [c]) (by simpa using hs)
    rw [List.append_assoc, List.singleton_append] at ih
    rw [DeepToken.ofTokens_cons (by rw [hc]; decide) (by rw [hc]; decide), rowsFrom, hc]
    exact ih
  | @list ts ps p _ ih =>
    have ih := @ih (pre ++ p.tokens) (by rwa [List.append_assoc])
    rw [List.append_assoc] at ih
    rw [rowsFrom_parens p (List.pairwise_append.1 hs).2.1 (p.find?_ofTokens hs), ih, List.map_cons]

/-! ### Rows that are joined by commas -/

/-- Such tokens begin with the lists of the rows. -/
lemma Rows.exists_listsFrom {rows : List ValueRow} (h : Rows ts rows) :
    ∃ ps, ListsFrom ts ps ∧ ps.map Parens.row = rows := by
  induction h with
  | @one o c mid entries ho hm hc =>
    let p : Parens := ⟨o, mid, c, ho, hm.nested, hc⟩
    have hstop : ListsFrom [] [] := .stop nofun nofun
    refine ⟨[p], by simpa [p, Parens.tokens] using hstop.list p, ?_⟩
    rw [List.map_singleton, Parens.row, p.entries_list hm, Parens.span]
  | @cons o c sep mid ts entries rows ho hm hc hsep _ ih =>
    obtain ⟨ps, hps, rfl⟩ := ih
    let p : Parens := ⟨o, mid, c, ho, hm.nested, hc⟩
    refine ⟨p :: ps, by simpa [p, Parens.tokens] using (hps.comma hsep).list p, ?_⟩
    rw [List.map_cons, Parens.row, p.entries_list hm, Parens.span]

/-- **The rows of a statement are the lists behind its `VALUES`**, which stands outside parentheses
behind words of another kind and a list. -/
theorem rows_eq {ws cs : List Token} {o c v : Token}
    (hw : ∀ w ∈ ws, w.kind ≠ .openParen ∧ w.kind ≠ .closeParen ∧ w.isWord "values" = false ∧
      w.isWord "value" = false)
    (ho : o.kind = .openParen) (hcs : Nested p (cs.map (·.kind))) (hc : c.kind = .closeParen)
    (hv : v.isWord "values") {rows : List ValueRow} (h : Rows ts rows)
    (hs : (ws ++ o :: (cs ++ c :: v :: ts)).Pairwise fun a b => a.start < b.start) :
    Statement.rows (ParenList.ofTokens (ws ++ o :: (cs ++ c :: v :: ts)))
      (DeepToken.ofTokens 0 (ws ++ o :: (cs ++ c :: v :: ts))) = rows := by
  -- the word is the first of its kind outside parentheses, and the rows are what follows it
  have hws : Nested (fun _ => True) (ws.map (·.kind)) := by
    refine nested_of_forall fun k hk => ?_
    obtain ⟨w, hmem, rfl⟩ := List.mem_map.1 hk
    exact ⟨(hw w hmem).1, (hw w hmem).2.1, trivial⟩
  have hvk : v.kind = .word := (Token.isWord_iff.1 hv).1
  have hparen : ∀ {u : Token} (n : Nat) (w : String),
      u.kind = .openParen ∨ u.kind = .closeParen → (DeepToken.mk u n).isTopWord w = false := by
    rintro u n w (hu | hu) <;> simp [DeepToken.isTopWord, Token.isWord, hu]
  have hafter : after (fun t => t.isTopWord "values" || t.isTopWord "value")
      (DeepToken.ofTokens 0 (ws ++ o :: (cs ++ c :: v :: ts))) = DeepToken.ofTokens 0 ts := by
    rw [(DeepToken.ofTokens_append_of_nested hws rfl 0 _).1, DeepToken.ofTokens_parens ho hcs hc,
      DeepToken.ofTokens_cons (by rw [hvk]; decide) (by rw [hvk]; decide), after,
      List.dropWhile_append_of_pos, List.dropWhile_cons_of_pos, List.dropWhile_append_of_pos,
      List.dropWhile_cons_of_pos, List.dropWhile_cons_of_neg, List.drop_one, List.tail_cons]
    · simp [DeepToken.isTopWord, DeepToken.isTop, hv]
    · simp [hparen 0 _ (.inr hc)]
    · intro u hu
      simp [DeepToken.isTopWord, DeepToken.depth_pos_of_nested hcs hu]
    · simp [hparen 0 _ (.inl ho)]
    · intro u hu
      have hmem : u.token ∈ ws := by
        rw [← DeepToken.map_token_ofTokens 0 ws]
        exact List.mem_map_of_mem hu
      simp [DeepToken.isTopWord, (hw _ hmem).2.2]
  have hcut : ws ++ o :: (cs ++ c :: v :: ts) = (ws ++ o :: (cs ++ [c, v])) ++ ts := by simp
  obtain ⟨ps, hps, rfl⟩ := h.exists_listsFrom
  rw [Statement.rows, hafter]
  rw [hcut] at hs ⊢
  exact hps.rowsFrom_eq hs

end Statement

end QueryGuard
