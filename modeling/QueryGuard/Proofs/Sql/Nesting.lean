import QueryGuard.Proofs.Sql.Matching

/-!
Well-nested tokens. Main statement: tokens whose parentheses match leave the depth and the open
lists as they find them.
-/

namespace QueryGuard

/-- Every parenthesis has its match among the kinds, and `p` holds of what stands outside them. -/
inductive Token.Kind.Nested : (Token.Kind → Prop) → List Token.Kind → Prop where
  | nil {p : Token.Kind → Prop} : Nested p []
  | cons {p : Token.Kind → Prop} {k : Token.Kind} {ks : List Token.Kind} :
      k ≠ .openParen → k ≠ .closeParen → p k → Nested p ks → Nested p (k :: ks)
  | parens {p : Token.Kind → Prop} {inner ks : List Token.Kind} :
      Nested (fun _ => True) inner → Nested p ks →
      Nested p (.openParen :: (inner ++ .closeParen :: ks))

namespace Token.Kind

variable {p q : Kind → Prop} {as bs : List Kind}

lemma Nested.append (ha : Nested p as) (hb : Nested p bs) : Nested p (as ++ bs) := by
  induction ha with
  | nil => exact hb
  | cons ho hc hp _ ih => exact .cons ho hc hp (ih hb)
  | parens hi _ _ ih =>
    rw [List.cons_append, List.append_assoc]
    exact .parens hi (ih hb)

lemma Nested.imp (h : Nested p as) (hpq : ∀ k, p k → q k) : Nested q as := by
  induction h with
  | nil => exact .nil
  | cons ho hc hp _ ih => exact .cons ho hc (hpq _ hp) (ih hpq)
  | parens hi _ _ ih => exact .parens hi (ih hpq)

/-- Kinds without parentheses are nested. -/
lemma nested_of_forall (h : ∀ k ∈ as, k ≠ .openParen ∧ k ≠ .closeParen ∧ p k) : Nested p as := by
  induction as with
  | nil => exact .nil
  | cons k ks ih =>
    obtain ⟨ho, hc, hp⟩ := h k List.mem_cons_self
    exact .cons ho hc hp (ih fun x hx => h x (List.mem_cons_of_mem k hx))

lemma nested_parens (h : Nested (fun _ => True) as) :
    Nested p (.openParen :: (as ++ [.closeParen])) := .parens h .nil

end Token.Kind

open Token.Kind

variable {ts us : List Token} {p : Token.Kind → Prop}

/-- Tokens of the kinds of parentheses, of what is inside and of what is behind. -/
lemma Token.exists_parens {as bs : List Token.Kind}
    (e : ts.map (·.kind) = .openParen :: (as ++ .closeParen :: bs)) : ∃ o inner c us,
      ts = o :: (inner ++ c :: us) ∧ o.kind = .openParen ∧ inner.map (·.kind) = as ∧
        c.kind = .closeParen ∧ us.map (·.kind) = bs := by
  obtain ⟨o, ts, rfl, ho, e⟩ := List.map_eq_cons_iff.1 e
  obtain ⟨inner, ts, rfl, hi, e⟩ := List.map_eq_append_iff.1 e
  obtain ⟨c, us, rfl, hc, hu⟩ := List.map_eq_cons_iff.1 e
  exact ⟨o, inner, c, us, rfl, ho, hi, hc, hu⟩

/-! ### Depths -/

namespace DeepToken

lemma ofTokens_cons {t : Token} (ho : t.kind ≠ .openParen) (hc : t.kind ≠ .closeParen) (n : Nat)
    (ts : List Token) : ofTokens n (t :: ts) = ⟨t, n⟩ :: ofTokens n ts := by
  rw [ofTokens]
  split
  · contradiction
  · contradiction
  · rfl

lemma ofTokens_openParen {t : Token} (ho : t.kind = .openParen) (n : Nat) (ts : List Token) :
    ofTokens n (t :: ts) = ⟨t, n⟩ :: ofTokens (n + 1) ts := by
  rw [ofTokens, ho]

lemma ofTokens_closeParen {t : Token} (hc : t.kind = .closeParen) (n : Nat) (ts : List Token) :
    ofTokens (n + 1) (t :: ts) = ⟨t, n⟩ :: ofTokens n ts := by
  rw [ofTokens, hc]
  rfl

/-- **Nested tokens stand at the depth that is open or deeper**, and what is behind them stands at
that depth again. -/
theorem ofTokens_append_of_nested {ks : List Token.Kind} (h : Nested p ks)
    (e : ts.map (·.kind) = ks) (n : Nat) (us : List Token) :
    ofTokens n (ts ++ us) = ofTokens n ts ++ ofTokens n us ∧
      ∀ u ∈ ofTokens n ts, n < u.depth ∨
        u.depth = n ∧
          (u.token.kind = .openParen ∨ u.token.kind = .closeParen ∨ p u.token.kind) := by
  induction h generalizing ts us n with
  | nil =>
    obtain rfl := List.map_eq_nil_iff.1 e
    exact ⟨rfl, nofun⟩
  | cons ho hc hp _ ih =>
    obtain ⟨t, ts, rfl, rfl, htail⟩ := List.map_eq_cons_iff.1 e
    obtain ⟨happ, hall⟩ := ih htail n us
    rw [List.cons_append, ofTokens_cons ho hc, ofTokens_cons ho hc, happ]
    refine ⟨rfl, List.forall_mem_cons.2 ⟨.inr ⟨rfl, .inr (.inr hp)⟩, hall⟩⟩
  | parens _ _ ihi ih =>
    -- the inner tokens stand one level deeper, and the closing parenthesis goes back up
    obtain ⟨o, inner, c, ts, rfl, ho, hi, hc, e⟩ := Token.exists_parens e
    obtain ⟨happ, hall⟩ := ih e n us
    have hin := (ihi hi (n + 1) [])
    have hcut : ∀ xs, ofTokens n (o :: (inner ++ c :: xs)) =
        ⟨o, n⟩ :: (ofTokens (n + 1) inner ++ ⟨c, n⟩ :: ofTokens n xs) := fun xs => by
      rw [ofTokens_openParen ho, (ihi hi (n + 1) (c :: xs)).1, ofTokens_closeParen hc]
    rw [List.cons_append, List.append_assoc, List.cons_append, hcut, hcut, happ]
    refine ⟨by simp, List.forall_mem_cons.2 ⟨.inr ⟨rfl, .inl ho⟩, List.forall_mem_append.2
      ⟨fun u hu => .inl ?_, List.forall_mem_cons.2 ⟨.inr ⟨rfl, .inr (.inl hc)⟩, hall⟩⟩⟩⟩
    rcases hin.2 u hu with hd | ⟨hd, -⟩
    · omega
    · omega

/-- The tokens of a list with the tokens behind it. -/
lemma ofTokens_parens {o c : Token} {mid : List Token} (ho : o.kind = .openParen)
    (hm : Nested p (mid.map (·.kind))) (hc : c.kind = .closeParen) (n : Nat) (us : List Token) :
    ofTokens n (o :: (mid ++ c :: us)) =
      ⟨o, n⟩ :: (ofTokens (n + 1) mid ++ ⟨c, n⟩ :: ofTokens n us) := by
  rw [ofTokens_openParen ho, (ofTokens_append_of_nested hm rfl (n + 1) (c :: us)).1,
    ofTokens_closeParen hc]

lemma depth_pos_of_nested {mid : List Token} (hm : Nested p (mid.map (·.kind))) {u : DeepToken}
    (hu : u ∈ ofTokens 1 mid) : u.isTop = false := by
  have h := (ofTokens_append_of_nested hm rfl 1 []).2 u hu
  simp only [isTop, beq_eq_false_iff_ne]
  omega

/-- Nested tokens end no statement when no semicolon stands outside parentheses. -/
lemma endsStatement_of_nested (h : Nested (· ≠ .semicolon) (ts.map (·.kind))) (n : Nat) :
    ∀ u ∈ ofTokens n ts, u.endsStatement = false := by
  intro u hu
  rcases (ofTokens_append_of_nested h rfl n []).2 u hu with hd | ⟨-, hk | hk | hk⟩
  · rw [endsStatement, isTop, beq_eq_false_iff_ne.2 (by omega), Bool.false_and]
  · rw [endsStatement, hk, Bool.and_eq_false_iff]
    exact .inr rfl
  · rw [endsStatement, hk, Bool.and_eq_false_iff]
    exact .inr rfl
  · rw [endsStatement, beq_eq_false_iff_ne.2 hk, Bool.and_false]

end DeepToken

namespace ParenList

/-! ### Matching through nested tokens -/

namespace Matching

variable {v : Unclosed} {vs : List Unclosed} {closed : List ParenList}

lemma step_openParen {t : Token} (ht : t.kind = .openParen) :
    Matching.step ⟨v :: vs, closed⟩ t = ⟨.fresh t :: v.nest :: vs, closed⟩ := by
  unfold Matching.step
  rw [ht]
  rfl

lemma step_closeParen {t : Token} (ht : t.kind = .closeParen) :
    Matching.step ⟨v :: vs, closed⟩ t = ⟨vs, v.close t :: closed⟩ := by
  unfold Matching.step
  rw [ht]

lemma step_comma {t : Token} (ht : t.kind = .comma) :
    Matching.step ⟨v :: vs, closed⟩ t = ⟨v.comma :: vs, closed⟩ := by
  unfold Matching.step
  rw [ht]
  rfl

lemma step_push {t : Token} (ho : t.kind ≠ .openParen) (hc : t.kind ≠ .closeParen)
    (hs : t.kind ≠ .comma) :
    Matching.step ⟨v :: vs, closed⟩ t = ⟨v.push t :: vs, closed⟩ := by
  unfold Matching.step
  split
  · contradiction
  · contradiction
  · contradiction
  · rfl

/-- What the tokens make of the open list `v`: it is `v'`, and the lists in `new` are closed. -/
structure Through (ts : List Token) (v v' : Unclosed) (new : List ParenList) : Prop where
  foldl : ∀ vs closed, ts.foldl Matching.step ⟨v :: vs, closed⟩ = ⟨v' :: vs, new ++ closed⟩
  opening : v'.opening = v.opening
  new : ∀ l ∈ new, l.opening ∈ ts

lemma Through.nil (v : Unclosed) : Through [] v v [] := ⟨fun _ _ => rfl, rfl, nofun⟩

lemma Through.append {v₁ v₂ v₃ : Unclosed} {new new' : List ParenList}
    (h : Through ts v₁ v₂ new) (h' : Through us v₂ v₃ new') :
    Through (ts ++ us) v₁ v₃ (new' ++ new) where
  foldl vs closed := by rw [List.foldl_append, h.foldl, h'.foldl, List.append_assoc]
  opening := h'.opening.trans h.opening
  new := List.forall_mem_append.2 ⟨fun l hl => List.mem_append_right _ (h'.new l hl),
    fun l hl => List.mem_append_left _ (h.new l hl)⟩

lemma Through.unique {v v₁ v₂ : Unclosed} {new₁ new₂ : List ParenList}
    (h₁ : Through ts v v₁ new₁) (h₂ : Through ts v v₂ new₂) : v₁ = v₂ :=
  List.head_eq_of_cons_eq (Matching.mk.inj ((h₁.foldl [] []).symm.trans (h₂.foldl [] []))).1

lemma through_comma {t : Token} (ht : t.kind = .comma) (v : Unclosed) :
    Through [t] v v.comma [] :=
  ⟨fun _ _ => step_comma ht, rfl, nofun⟩

lemma through_push {t : Token} (ho : t.kind ≠ .openParen) (hc : t.kind ≠ .closeParen)
    (hs : t.kind ≠ .comma) (v : Unclosed) : Through [t] v (v.push t) [] :=
  ⟨fun _ _ => step_push ho hc hs, rfl, nofun⟩

/-- Through an inner list the outer one only comes to know that there is one. -/
lemma Through.parens {o c : Token} {mid : List Token} {w : Unclosed} {new : List ParenList}
    (ho : o.kind = .openParen) (h : Through mid (.fresh o) w new) (hc : c.kind = .closeParen)
    (v : Unclosed) : Through (o :: (mid ++ [c])) v v.nest (w.close c :: new) where
  foldl vs closed := by
    rw [List.foldl_cons, step_openParen ho, List.foldl_append, h.foldl, List.foldl_cons,
      step_closeParen hc, List.foldl_nil]
    rfl
  opening := rfl
  new := by
    refine List.forall_mem_cons.2 ⟨?_, fun l hl => ?_⟩
    · have hw : (w.close c).opening = o := h.opening
      rw [hw]
      exact List.mem_cons_self
    · exact List.mem_cons_of_mem o (List.mem_append_left _ (h.new l hl))

/-- **Nested tokens leave the open lists as they are**: where no comma stands outside inner lists,
they are part of the item at hand. -/
theorem exists_through {ks : List Token.Kind} (h : Nested p ks) (e : ts.map (·.kind) = ks)
    (v : Unclosed) : ∃ v' new, Through ts v v' new ∧ ((∀ k, p k → k ≠ .comma) →
      v'.items = v.items ∧ v'.nested = (v.nested || ts.any (·.kind == .openParen)) ∧
        (ts.any (·.kind == .openParen) = false → v'.tokens = ts.reverse ++ v.tokens)) := by
  induction h generalizing ts v with
  | nil =>
    obtain rfl := List.map_eq_nil_iff.1 e
    exact ⟨v, [], .nil v, fun _ => ⟨rfl, by simp, fun _ => rfl⟩⟩
  | @cons p k ks ho hc hp _ ih =>
    obtain ⟨t, ts, rfl, rfl, htail⟩ := List.map_eq_cons_iff.1 e
    -- a comma is excluded by the assumption; any other token goes to the item
    by_cases hs : t.kind = .comma
    · obtain ⟨v', new, hthrough, -⟩ := ih htail v.comma
      exact ⟨v', _, (through_comma hs v).append hthrough, fun hcomma => absurd hs (hcomma _ hp)⟩
    · obtain ⟨v', new, hthrough, hitem⟩ := ih htail (v.push t)
      refine ⟨v', _, (through_push ho hc hs v).append hthrough, fun hcomma => ?_⟩
      obtain ⟨hitems, hnested, htokens⟩ := hitem hcomma
      have hk : (t.kind == Token.Kind.openParen) = false := beq_eq_false_iff_ne.2 ho
      rw [List.any_cons, hk, Bool.false_or]
      refine ⟨hitems, hnested, fun hany => ?_⟩
      rw [htokens hany, Unclosed.push, List.reverse_cons, List.append_assoc]
      rfl
  | @parens p inner ks _ _ ihi ih =>
    -- the inner tokens are read on a list of their own, which is closed behind them
    obtain ⟨o, inner, c, ts, rfl, ho, hi, hc, e⟩ := Token.exists_parens e
    obtain ⟨w, new, hinner, -⟩ := ihi hi (.fresh o)
    obtain ⟨v', new', hthrough, hitem⟩ := ih e v.nest
    have hcut : o :: (inner ++ c :: ts) = o :: (inner ++ [c]) ++ ts := by simp
    refine ⟨v', new' ++ w.close c :: new, ?_, fun hcomma => ?_⟩
    · rw [hcut]
      exact (hinner.parens ho hc v).append hthrough
    · obtain ⟨hitems, hnested, -⟩ := hitem hcomma
      refine ⟨hitems, ?_, fun hany => ?_⟩
      · rw [hnested]
        simp [Unclosed.nest, ho]
      · simp [ho] at hany

end Matching

/-! ### Lists apart at their commas -/

/-- The tokens of an item of a list, and what the item is. -/
structure IsItem (ts : List Token) (entry : Entry) : Prop where
  ne_nil : ts ≠ []
  nested : Nested (· ≠ .comma) (ts.map (·.kind))
  entry_eq : ListItem.entry ⟨ts, ts.any (·.kind == .openParen)⟩ = entry

/-- The tokens between two parentheses are items with commas between them. -/
inductive Lists : List Token → List Entry → Prop where
  | empty : Lists [] []
  | one {ts : List Token} {entry : Entry} : IsItem ts entry → Lists ts [entry]
  | cons {ts us : List Token} {c : Token} {entry next : Entry} {entries : List Entry} :
      IsItem ts entry → c.kind = .comma → Lists us (next :: entries) →
      Lists (ts ++ c :: us) (entry :: next :: entries)

variable {entry : Entry} {entries : List Entry}

lemma Lists.nested (h : Lists ts entries) : Nested (fun _ => True) (ts.map (·.kind)) := by
  induction h with
  | empty => exact .nil
  | one hi => exact hi.nested.imp fun _ _ => trivial
  | cons hi hc _ ih =>
    rw [List.map_append, List.map_cons, hc]
    exact (hi.nested.imp fun _ _ => trivial).append (.cons nofun nofun trivial ih)

namespace Matching

/-- A list is closed behind those that stand in it, whatever is open around it. -/
lemma Through.foldl_parens {o c : Token} {mid : List Token} {w : Unclosed} {new : List ParenList}
    (h : Through mid (.fresh o) w new) (ho : o.kind = .openParen) (hc : c.kind = .closeParen)
    (m : Matching) : (o :: (mid ++ [c])).foldl Matching.step m =
      ⟨(m.inner Unclosed.nest).unclosed, w.close c :: (new ++ m.closed)⟩ := by
  obtain ⟨_ | ⟨u, us⟩, closed⟩ := m
  · have hopen : Matching.step ⟨[], closed⟩ o = ⟨[.fresh o], closed⟩ := by
      unfold Matching.step
      rw [ho]
      rfl
    rw [List.foldl_cons, hopen, List.foldl_append, h.foldl]
    exact step_closeParen hc
  · exact (h.parens ho hc u).foldl us closed

end Matching

end ParenList

/-! ### Rows -/

namespace Statement

open ParenList

/-- The tokens are lists with commas between them, and the rows are those lists. -/
inductive Rows : List Token → List ValueRow → Prop where
  | one {o c : Token} {mid : List Token} {entries : List Entry} : o.kind = .openParen →
      Lists mid entries → c.kind = .closeParen →
      Rows (o :: (mid ++ [c])) [⟨entries, o.start, c.stop⟩]
  | cons {o c sep : Token} {mid ts : List Token} {entries : List Entry} {rows : List ValueRow} :
      o.kind = .openParen → Lists mid entries → c.kind = .closeParen → sep.kind = .comma →
      Rows ts rows → Rows (o :: (mid ++ c :: sep :: ts)) (⟨entries, o.start, c.stop⟩ :: rows)

variable {rows : List ValueRow}

lemma Rows.nested (h : Rows ts rows) (hp : p .comma) : Nested p (ts.map (·.kind)) := by
  induction h with
  | one ho hm hc =>
    rw [List.map_cons, List.map_append, List.map_singleton, ho, hc]
    exact nested_parens hm.nested
  | cons ho hm hc hs _ ih =>
    rw [List.map_cons, List.map_append, List.map_cons, List.map_cons, ho, hc, hs]
    exact .parens hm.nested (.cons nofun nofun hp ih)

end Statement

/-! ### The tokens of a statement -/

/-- Tokens in order fall apart at a place in one way. -/
lemma Token.append_inj_of_start {n : Nat} {xs ys xs' ys' : List Token} (e : xs ++ ys = xs' ++ ys')
    (hx : ∀ u ∈ xs, u.start < n) (hy : ∀ u ∈ ys, n ≤ u.start) (hx' : ∀ u ∈ xs', u.start < n)
    (hy' : ∀ u ∈ ys', n ≤ u.start) : xs = xs' ∧ ys = ys' := by
  have hfilter : ∀ {xs ys : List Token}, (∀ u ∈ xs, u.start < n) → (∀ u ∈ ys, n ≤ u.start) →
      (xs ++ ys).filter (·.start < n) = xs := by
    intro xs ys hx hy
    rw [List.filter_append, List.filter_eq_self.2 fun u hu => decide_eq_true (hx u hu),
      List.filter_eq_nil_iff.2 fun u hu => by simpa using hy u hu, List.append_nil]
  have hxs : xs = xs' := by rw [← hfilter hx hy, e, hfilter hx' hy']
  subst hxs
  exact ⟨rfl, List.append_cancel_left e⟩

namespace SqlText

/-- Where no semicolon stands outside parentheses, the statement is the whole text. -/
lemma statement_of_nested (t : SqlText) (h : Nested (· ≠ .semicolon) (t.tokens.map (·.kind))) :
    t.statementTokens = DeepToken.ofTokens 0 t.tokens ∧ t.statementStop = t.width := by
  have hall : ∀ u ∈ DeepToken.ofTokens 0 t.tokens, (!u.endsStatement) = true := by
    intro u hu
    rw [DeepToken.endsStatement_of_nested h 0 u hu]
    rfl
  constructor
  · rw [statementTokens, Statement.tokens, List.takeWhile_eq_self_iff.2 hall]
  · rw [statementStop, Statement.semicolon?, List.dropWhile_eq_nil_iff.2 hall]
    rfl

end SqlText

end QueryGuard
