import QueryGuard.Proofs.Sql.Nesting
import QueryGuard.Proofs.Sql.Relocation

/-!
The items of parenthesised lists. What stands between two parentheses that match falls apart at the
commas outside inner parentheses, whatever stands there. Main statements: every list of a token
stream stands between two parentheses that match, with the items that the tokens between them fall
apart to, and two such parentheses make a list of the stream.
-/

namespace QueryGuard

open Token.Kind

namespace ParenList

variable {ts us mid : List Token} {p : Token.Kind → Prop} {i : ListItem} {is : List ListItem}

/-- The tokens make up the item. Of the tokens of an item with inner parentheses nothing is said. -/
structure Forms (ts : List Token) (i : ListItem) : Prop where
  flat : Nested (· ≠ .comma) (ts.map (·.kind))
  nested : i.nested = ts.any (·.kind == .openParen)
  tokens : i.nested = false → i.tokens = ts

/-- The tokens fall apart to the items at the commas outside inner parentheses. -/
inductive Items : List Token → List ListItem → Prop where
  | one {ts : List Token} {i : ListItem} : Forms ts i → Items ts [i]
  | cons {ts us : List Token} {c : Token} {i : ListItem} {is : List ListItem} :
      Forms ts i → c.kind = .comma → Items us is → Items (ts ++ c :: us) (i :: is)

/-- Between two parentheses stand the items: none where there is no token. -/
inductive Content : List Token → List ListItem → Prop where
  | empty : Content [] []
  | items {ts : List Token} {is : List ListItem} : ts ≠ [] → Items ts is → Content ts is

lemma forms_nil : Forms [] ⟨[], false⟩ := ⟨.nil, rfl, fun _ => rfl⟩

/-- What the item is follows from the tokens. -/
lemma Forms.entry_eq (h : Forms ts i) :
    i.entry = ListItem.entry ⟨ts, ts.any (·.kind == .openParen)⟩ := by
  obtain ⟨tokens, nested⟩ := i
  obtain ⟨-, rfl, htokens⟩ := h
  cases hany : ts.any (·.kind == .openParen) with
  | true => rfl
  | false =>
    obtain rfl : tokens = ts := htokens hany
    rfl

lemma Items.ne_nil (h : Items ts is) : is ≠ [] := by
  cases h <;> exact List.cons_ne_nil _ _

lemma Items.eq_nil_of_isVoid (h : Items ts [i]) (hv : i.isVoid) : ts = [] := by
  cases h with
  | one hi =>
    rw [ListItem.isVoid, Bool.and_eq_true, List.isEmpty_iff, Bool.not_eq_true'] at hv
    rw [← hi.tokens hv.2, hv.1]
  | cons _ _ his => exact absurd rfl his.ne_nil

lemma Items.nested (h : Items ts is) : Nested (fun _ => True) (ts.map (·.kind)) := by
  induction h with
  | one hi => exact hi.flat.imp fun _ _ => trivial
  | cons hi hc _ ih =>
    rw [List.map_append, List.map_cons, hc]
    exact (hi.flat.imp fun _ _ => trivial).append (.cons nofun nofun trivial ih)

lemma Content.items_of_mem (h : Content ts is) (hi : i ∈ is) : Items ts is := by
  cases h with
  | empty => exact absurd hi List.not_mem_nil
  | items _ h => exact h

/-! ### How many items there are -/

/-- The number of commas outside inner parentheses. -/
def commas (ts : List Token) : Nat :=
  (DeepToken.ofTokens 0 ts).countP fun u => u.isTop && u.token.kind == .comma

/-- The number of items that stand between two parentheses. -/
def itemCount (ts : List Token) : Nat := if ts.isEmpty then 0 else commas ts + 1

lemma commas_append (h : Nested p (ts.map (·.kind))) (us : List Token) :
    commas (ts ++ us) = commas ts + commas us := by
  rw [commas, (DeepToken.ofTokens_append_of_nested h rfl 0 us).1, List.countP_append, commas,
    commas]

lemma Forms.commas_eq_zero (h : Forms ts i) : commas ts = 0 := by
  refine List.countP_eq_zero.2 fun u hu => ?_
  rw [Bool.and_eq_true, DeepToken.isTop, beq_iff_eq, beq_iff_eq]
  rintro ⟨hd, hk⟩
  rcases (DeepToken.ofTokens_append_of_nested h.flat rfl 0 []).2 u hu with hlt | ⟨-, ho | hc | hp⟩
  · omega
  · rw [hk] at ho
    cases ho
  · rw [hk] at hc
    cases hc
  · exact hp hk

lemma Items.length_eq (h : Items ts is) : is.length = commas ts + 1 := by
  induction h with
  | one hi => rw [hi.commas_eq_zero, List.length_singleton]
  | @cons ts us c i is hi hc _ ih =>
    have hcomma : commas (c :: us) = 1 + commas us := by
      have hk : c.kind ≠ .openParen ∧ c.kind ≠ .closeParen := by rw [hc]; decide
      rw [commas, DeepToken.ofTokens_cons hk.1 hk.2, List.countP_cons_of_pos (by simp [hc]; rfl),
        commas, Nat.add_comm]
    rw [commas_append hi.flat, hi.commas_eq_zero, hcomma, List.length_cons, ih]
    omega

/-- **The commas count the items.** -/
theorem Content.length_eq (h : Content ts is) : is.length = itemCount ts := by
  cases h with
  | empty => rfl
  | items hne h => rw [h.length_eq, itemCount, List.isEmpty_eq_false_iff.2 hne, if_neg (by decide)]

/-! ### Items at other places -/

section Places

variable {g : Token → Token} {q : Token}

lemma Forms.map (hg : Token.Relocates g) (h : Forms ts i) :
    Forms (ts.map g) (ListItem.relocate g i) := by
  refine ⟨hg.map_kind ts ▸ h.flat, ?_, fun hn => congrArg (List.map g) (h.tokens hn)⟩
  rw [ListItem.relocate, h.nested, List.any_map]
  congr 1
  exact funext fun t => by rw [Function.comp_apply, hg.kind]

lemma Items.map (hg : Token.Relocates g) (h : Items ts is) :
    Items (ts.map g) (is.map (ListItem.relocate g)) := by
  induction h with
  | one hi => exact .one (hi.map hg)
  | @cons ts us c i is hi hc _ ih =>
    rw [List.map_append, List.map_cons, List.map_cons]
    exact .cons (hi.map hg) (by rw [hg.kind, hc]) ih

lemma forms_singleton (ho : q.kind ≠ .openParen) (hc : q.kind ≠ .closeParen)
    (hs : q.kind ≠ .comma) : Forms [q] ⟨[q], false⟩ := by
  refine ⟨.cons ho hc hs .nil, ?_, fun _ => rfl⟩
  rw [List.any_cons, beq_eq_false_iff_ne.2 ho]
  rfl

/-- **One token may take the place of an item**, and the other items stay, wherever they are
moved to. -/
theorem Items.exists_replace (h : Items ts is) (hi : i ∈ is) (hn : i.nested = false) :
    ∃ front back as bs, ts = front ++ (i.tokens ++ back) ∧ is = as ++ i :: bs ∧
      Nested (fun _ => True) (front.map (·.kind)) ∧ Nested (fun _ => True) (back.map (·.kind)) ∧
        ∀ {q : Token} {g : Token → Token}, q.kind ≠ .openParen → q.kind ≠ .closeParen →
          q.kind ≠ .comma → Token.Relocates g →
            Items (front ++ q :: back.map g)
              (as ++ ⟨[q], false⟩ :: bs.map (ListItem.relocate g)) := by
  induction h with
  | @one ts j hj =>
    obtain rfl := List.mem_singleton.1 hi
    refine ⟨[], [], [], [], ?_, rfl, .nil, .nil, fun ho hc hs _ => .one (forms_singleton ho hc hs)⟩
    rw [hj.tokens hn, List.nil_append, List.append_nil]
  | @cons ts us c j is hj hc hus ih =>
    have hcomma : c.kind ≠ .openParen ∧ c.kind ≠ .closeParen := by rw [hc]; decide
    rcases List.mem_cons.1 hi with rfl | hi
    · refine ⟨[], c :: us, [], is, ?_, rfl, .nil, .cons hcomma.1 hcomma.2 trivial hus.nested,
        fun ho hcl hs hg => ?_⟩
      · rw [hj.tokens hn, List.nil_append]
      · have hitems := Items.cons (forms_singleton ho hcl hs) (by rw [hg.kind, hc]) (hus.map hg)
        rwa [List.singleton_append] at hitems
    · obtain ⟨front, back, as, bs, rfl, rfl, hfront, hback, hnew⟩ := ih hi
      refine ⟨ts ++ c :: front, back, j :: as, bs, by simp, rfl, ?_, hback,
        fun ho hcl hs hg => ?_⟩
      · rw [List.map_append, List.map_cons]
        exact (hj.flat.imp fun _ _ => trivial).append (.cons hcomma.1 hcomma.2 trivial hfront)
      · rw [List.append_assoc, List.cons_append]
        exact .cons hj hc (hnew ho hcl hs hg)

end Places

namespace Matching

/-! ### The items that a list is closed with -/

/-- Nested tokens are read on behind an item at hand, and they fall apart to the items that are
read. -/
theorem exists_through_items {ks : List Token.Kind} (h : Nested p ks) (e : ts.map (·.kind) = ks)
    {v : Unclosed} {hand : List Token} (hv : Forms hand v.item) : ∃ v' new is, Through ts v v' new ∧
      Items (hand ++ ts) is ∧ v'.items.reverse ++ [v'.item] = v.items.reverse ++ is := by
  induction h generalizing ts v hand with
  | nil =>
    obtain rfl := List.map_eq_nil_iff.1 e
    rw [List.append_nil]
    exact ⟨v, [], _, .nil v, .one hv, rfl⟩
  | @cons p k ks ho hc hp _ ih =>
    obtain ⟨t, ts, rfl, rfl, htail⟩ := List.map_eq_cons_iff.1 e
    -- a comma ends the item at hand, and any other token goes to it
    by_cases hs : t.kind = .comma
    · obtain ⟨v', new, is, hthrough, his, hitems⟩ := ih htail (v := v.comma) forms_nil
      refine ⟨v', _, v.item :: is, (through_comma hs v).append hthrough, .cons hv hs his, ?_⟩
      rw [hitems, Unclosed.comma, List.reverse_cons, List.append_assoc]
      rfl
    · have hpush : Forms (hand ++ [t]) (v.push t).item := by
        refine ⟨?_, ?_, fun hn => ?_⟩
        · rw [List.map_append]
          exact hv.flat.append (.cons ho hc hs .nil)
        · have hn : v.nested = _ := hv.nested
          have hk : (t.kind == Token.Kind.openParen) = false := beq_eq_false_iff_ne.2 ho
          rw [List.any_append, List.any_cons, hk, List.any_nil, Bool.or_false, Bool.or_false]
          exact hn
        · have htokens : v.tokens.reverse = hand := hv.tokens hn
          rw [← htokens]
          exact List.reverse_cons
      obtain ⟨v', new, is, hthrough, his, hitems⟩ := ih htail hpush
      rw [List.append_assoc] at his
      exact ⟨v', _, is, (through_push ho hc hs v).append hthrough, his, hitems⟩
  | @parens p inner ks hinner _ ihi ih =>
    -- parentheses go to the item at hand as a whole, which is nested from then on
    obtain ⟨o, inner, c, ts, rfl, ho, hi, hc, e⟩ := Token.exists_parens e
    obtain ⟨w, new, -, hw, -, -⟩ := ihi hi (v := .fresh o) forms_nil
    have hnest : Forms (hand ++ o :: (inner ++ [c])) v.nest.item := by
      refine ⟨?_, ?_, fun hn => by cases hn⟩
      · rw [List.map_append, List.map_cons, List.map_append, List.map_singleton, ho, hc]
        exact hv.flat.append (nested_parens (hi ▸ hinner))
      · rw [List.any_append, List.any_cons, ho]
        simp [Unclosed.nest, Unclosed.item]
    obtain ⟨v', new', is, hthrough, his, hitems⟩ := ih e hnest
    have hcut : o :: (inner ++ c :: ts) = o :: (inner ++ [c]) ++ ts := by simp
    rw [List.append_assoc, ← hcut] at his
    refine ⟨v', new' ++ w.close c :: new, is, ?_, his, hitems⟩
    rw [hcut]
    exact (hw.parens ho hc v).append hthrough

/-- Behind nested tokens a list is closed with the items that they fall apart to. -/
lemma exists_through_content (h : Nested p (mid.map (·.kind))) (o : Token) : ∃ w new is,
    Through mid (.fresh o) w new ∧ Content mid is ∧ ∀ c, (w.close c).items = is := by
  by_cases hmid : mid = []
  · subst hmid
    exact ⟨_, _, _, .nil _, .empty, fun _ => rfl⟩
  · obtain ⟨w, new, is, hw, his, hitems⟩ := exists_through_items h rfl (v := .fresh o) forms_nil
    have hitems : w.items.reverse ++ [w.item] = is := hitems
    refine ⟨w, new, is, hw, .items hmid his, fun c => ?_⟩
    have hvoid : (w.item.isVoid && w.items.isEmpty) = false := by
      by_contra hv
      rw [Bool.not_eq_false, Bool.and_eq_true, List.isEmpty_iff] at hv
      rw [hv.2, List.reverse_nil, List.nil_append] at hitems
      exact hmid (Items.eq_nil_of_isVoid (hitems ▸ his) hv.1)
    rw [Unclosed.close, hvoid, ← hitems]
    exact List.reverse_cons

/-- An item is read from its first token to its last. -/
lemma exists_through_forms (h : Forms ts i) {v : Unclosed} (ht : v.tokens = [])
    (hn : v.nested = false) :
    ∃ v' new, Through ts v v' new ∧ v'.items = v.items ∧ v'.item.entry = i.entry := by
  obtain ⟨v', new, hthrough, hitem⟩ := exists_through h.flat rfl v
  obtain ⟨hitems, hnested, htokens⟩ := hitem fun _ hk => hk
  rw [hn, Bool.false_or] at hnested
  rw [ht, List.append_nil] at htokens
  refine ⟨v', new, hthrough, hitems, ?_⟩
  have hform : Forms ts v'.item := by
    refine ⟨h.flat, hnested, fun hv => ?_⟩
    have hv : v'.nested = false := hv
    rw [Unclosed.item, htokens (hnested ▸ hv), List.reverse_reverse]
  rw [hform.entry_eq, h.entry_eq]

/-- Items are read one after the other. -/
lemma exists_through_entries (h : Items ts is) {v : Unclosed} (ht : v.tokens = [])
    (hn : v.nested = false) : ∃ v' new, Through ts v v' new ∧
      (v'.items.reverse ++ [v'.item]).map ListItem.entry =
        (v.items.reverse ++ is).map ListItem.entry := by
  induction h generalizing v with
  | one hi =>
    obtain ⟨v', new, hthrough, hitems, hentry⟩ := exists_through_forms hi ht hn
    refine ⟨v', new, hthrough, ?_⟩
    rw [hitems, List.map_append, List.map_append, List.map_singleton, List.map_singleton, hentry]
  | @cons ts us c i is hi hc _ ih =>
    obtain ⟨v₁, new, hthrough, hitems, hentry⟩ := exists_through_forms hi ht hn
    obtain ⟨v', new', hrest, hmap⟩ := ih (v := v₁.comma) rfl rfl
    refine ⟨v', _, hthrough.append ((through_comma hc v₁).append hrest), ?_⟩
    rw [hmap, Unclosed.comma, hitems, List.reverse_cons]
    simp [hentry]

/-- **The entries follow from the tokens**: items that these fall apart to have the same. -/
theorem map_entry_eq {js : List ListItem} (h : Content ts is) (h' : Content ts js) :
    is.map ListItem.entry = js.map ListItem.entry := by
  cases h with
  | empty =>
    cases h' with
    | empty => rfl
    | items hne => exact absurd rfl hne
  | items hne his =>
    cases h' with
    | empty => exact absurd rfl hne
    | items _ hjs =>
      obtain ⟨w, new, hw, hi⟩ := exists_through_entries his
        (v := .fresh ⟨.openParen, 0, []⟩) rfl rfl
      obtain ⟨w', new', hw', hj⟩ := exists_through_entries hjs
        (v := .fresh ⟨.openParen, 0, []⟩) rfl rfl
      obtain rfl := hw.unique hw'
      exact hi.symm.trans hj

end Matching

/-! ### What is closed -/

namespace Matching

variable {m : Matching}

/-- What was closed before has no part in a step. -/
lemma step_closed (us : List Unclosed) (ls : List ParenList) (t : Token) :
    Matching.step ⟨us, ls⟩ t =
      ⟨(Matching.step ⟨us, []⟩ t).unclosed, (Matching.step ⟨us, []⟩ t).closed ++ ls⟩ := by
  unfold Matching.step
  split <;> cases us <;> rfl

lemma foldl_closed (ts : List Token) (us : List Unclosed) (ls : List ParenList) :
    ts.foldl Matching.step ⟨us, ls⟩ = ⟨(ts.foldl Matching.step ⟨us, []⟩).unclosed,
      (ts.foldl Matching.step ⟨us, []⟩).closed ++ ls⟩ := by
  induction ts generalizing us ls with
  | nil => rfl
  | cons t ts ih =>
    rw [List.foldl_cons, List.foldl_cons, step_closed us ls]
    generalize Matching.step ⟨us, []⟩ t = m
    obtain ⟨us', ls'⟩ := m
    rw [ih us' (ls' ++ ls), ih us' ls', List.append_assoc]

/-- Nested tokens close the same lists whatever is open around them, and leave nothing open. -/
lemma exists_through_ofTokens {ks : List Token.Kind} (h : Nested p ks) (e : ts.map (·.kind) = ks) :
    ts.foldl Matching.step .empty = ⟨[], (ofTokens ts).reverse⟩ ∧
      ∀ v, ∃ v', Through ts v v' (ofTokens ts).reverse := by
  induction h generalizing ts with
  | nil =>
    obtain rfl := List.map_eq_nil_iff.1 e
    exact ⟨rfl, fun v => ⟨v, .nil v⟩⟩
  | @cons p k ks ho hc hp _ ih =>
    -- with nothing open the token does nothing; it goes to the item that is read
    obtain ⟨t, ts, rfl, rfl, htail⟩ := List.map_eq_cons_iff.1 e
    obtain ⟨hempty, hthrough⟩ := ih htail
    have hstep : Matching.empty.step t = .empty := by
      unfold Matching.step
      split
      · contradiction
      · contradiction
      · rfl
      · rfl
    have hts : ofTokens (t :: ts) = ofTokens ts := by
      rw [ofTokens, List.foldl_cons, hstep, ofTokens]
    rw [List.foldl_cons, hstep, hts]
    refine ⟨hempty, fun v => ?_⟩
    by_cases hs : t.kind = .comma
    · obtain ⟨v', hv⟩ := hthrough v.comma
      have := (through_comma hs v).append hv
      rw [List.append_nil] at this
      exact ⟨v', this⟩
    · obtain ⟨v', hv⟩ := hthrough (v.push t)
      have := (through_push ho hc hs v).append hv
      rw [List.append_nil] at this
      exact ⟨v', this⟩
  | @parens p inner ks _ _ ihi ih =>
    -- the inner tokens leave nothing open but the list of `o`, and `c` closes it
    obtain ⟨o, inner, c, ts, rfl, ho, hi, hc, e⟩ := Token.exists_parens e
    obtain ⟨w, hw⟩ := (ihi hi).2 (.fresh o)
    obtain ⟨hempty, hthrough⟩ := ih e
    have hcut : o :: (inner ++ c :: ts) = o :: (inner ++ [c]) ++ ts := by simp
    have hfold : (o :: (inner ++ c :: ts)).foldl Matching.step .empty =
        ⟨[], (ofTokens ts).reverse ++ w.close c :: (ofTokens inner).reverse⟩ := by
      have hopen : (o :: (inner ++ [c])).foldl Matching.step .empty =
          ⟨[], w.close c :: ((ofTokens inner).reverse ++ [])⟩ := hw.foldl_parens ho hc .empty
      have hempty : ts.foldl Matching.step ⟨[], []⟩ = ⟨[], (ofTokens ts).reverse⟩ := hempty
      rw [hcut, List.foldl_append, hopen, foldl_closed, hempty, List.append_nil]
    have hlists : (ofTokens (o :: (inner ++ c :: ts))).reverse =
        (ofTokens ts).reverse ++ w.close c :: (ofTokens inner).reverse := by
      rw [ofTokens, hfold, List.reverse_reverse]
    refine ⟨by rw [hfold, hlists], fun v => ?_⟩
    obtain ⟨v', hv⟩ := hthrough v.nest
    rw [hlists, hcut]
    exact ⟨v', (hw.parens ho hc v).append hv⟩

end Matching

/-- The lists of nested tokens stand in front of those of the tokens behind them. -/
lemma ofTokens_append_of_nested (h : Nested p (ts.map (·.kind))) (us : List Token) :
    ofTokens (ts ++ us) = ofTokens ts ++ ofTokens us := by
  have hempty := (Matching.exists_through_ofTokens h rfl).1
  rw [ofTokens, List.foldl_append, hempty, Matching.foldl_closed, List.reverse_append,
    List.reverse_reverse]
  rfl

end ParenList

open ParenList

/-! ### Two parentheses that match -/

/-- Two parentheses that match, with the tokens between them. -/
structure Parens where
  opening : Token
  inner : List Token
  closing : Token
  opening_kind : opening.kind = .openParen
  nested : Nested (fun _ => True) (inner.map (·.kind))
  closing_kind : closing.kind = .closeParen

namespace Parens

variable (p : Parens)

/-- All tokens, parentheses included. -/
def tokens : List Token := p.opening :: (p.inner ++ [p.closing])

/-- The bytes from one parenthesis to the other. -/
def span : Span := ⟨p.opening.start, p.closing.stop⟩

/-- The list that is read from the tokens. -/
def list : ParenList :=
  ((p.inner.foldl Matching.step ⟨[.fresh p.opening], []⟩).unclosed.headD
    (.fresh p.opening)).close p.closing

lemma nested_tokens {q : Token.Kind → Prop} : Nested q (p.tokens.map (·.kind)) := by
  rw [tokens, List.map_cons, List.map_append, List.map_singleton, p.opening_kind, p.closing_kind]
  exact nested_parens p.nested

lemma exists_through : ∃ w, Matching.Through p.inner (.fresh p.opening) w
    (ofTokens p.inner).reverse ∧ p.list = w.close p.closing := by
  obtain ⟨w, hw⟩ := (Matching.exists_through_ofTokens p.nested rfl).2 (.fresh p.opening)
  refine ⟨w, hw, ?_⟩
  rw [list, hw.foldl]
  rfl

@[simp] lemma opening_list : p.list.opening = p.opening := by
  obtain ⟨w, hw, hlist⟩ := p.exists_through
  rw [hlist]
  exact hw.opening

@[simp] lemma closing_list : p.list.closing = p.closing := rfl

@[simp] lemma span_list : p.list.span = p.span := by
  rw [ParenList.span, opening_list, closing_list, span]

/-- **The items of the list** are those that the tokens between the parentheses fall apart to. -/
theorem content : Content p.inner p.list.items := by
  obtain ⟨w, hw, hlist⟩ := p.exists_through
  obtain ⟨w', new, is, hw', his, hitems⟩ := Matching.exists_through_content p.nested p.opening
  obtain rfl := hw.unique hw'
  rw [hlist, hitems]
  exact his

/-- **A list is read between two parentheses**, behind those in front of it and those in it. Tokens
that other tokens take the place of change nothing but the list and the places behind it. -/
theorem exists_ofTokens (q : Parens) {g : Token → Token} (hg : Token.Relocates g)
    {pre : List Token} (hpre : ∀ t ∈ pre, g t = t) (post : List Token) : ∃ later,
      ofTokens (pre ++ (p.tokens ++ post)) =
        ofTokens pre ++ (ofTokens p.inner ++ p.list :: later) ∧
      ofTokens (pre ++ (q.tokens ++ post.map g)) =
        ofTokens pre ++ (ofTokens q.inner ++ q.list :: later.map (ParenList.relocate g)) := by
  have hfold : ∀ (p : Parens) (m : Matching), p.tokens.foldl Matching.step m =
      ⟨(m.inner Unclosed.nest).unclosed, p.list :: ((ofTokens p.inner).reverse ++ m.closed)⟩ := by
    intro p m
    obtain ⟨w, hw, hlist⟩ := p.exists_through
    rw [hlist]
    exact hw.foldl_parens p.opening_kind p.closing_kind m
  -- the lists that are open at the parentheses are not moved, so the tokens behind these go on with
  -- the same lists
  have hfix : (pre.foldl Matching.step .empty).relocate g = pre.foldl Matching.step .empty := by
    rw [← Matching.foldl_relocate hg, List.map_congr_left hpre, List.map_id']
    rfl
  have hmove : ∀ m : Matching, (m.relocate g).inner Unclosed.nest =
      (m.inner Unclosed.nest).relocate g := fun m => m.inner_relocate fun _ => rfl
  have hnest : ((pre.foldl Matching.step .empty).inner Unclosed.nest).relocate g =
      (pre.foldl Matching.step .empty).inner Unclosed.nest := by
    rw [← hmove, hfix]
  generalize hm : (pre.foldl Matching.step .empty).inner Unclosed.nest = m at hnest
  refine ⟨(post.foldl Matching.step ⟨m.unclosed, []⟩).closed.reverse, ?_, ?_⟩
  · rw [ofTokens, List.foldl_append, List.foldl_append, hfold, hm, Matching.foldl_closed]
    simp [ofTokens]
  · have hrest : (post.map g).foldl Matching.step ⟨m.unclosed, []⟩ =
        (post.foldl Matching.step ⟨m.unclosed, []⟩).relocate g := by
      rw [← Matching.foldl_relocate hg]
      congr 1
      exact congrArg (fun m : Matching => Matching.mk m.unclosed []) hnest.symm
    rw [ofTokens, List.foldl_append, List.foldl_append, hfold, hm, Matching.foldl_closed, hrest]
    simp [ofTokens, Matching.relocate]

/-- The parentheses and the tokens between them at their other places. -/
def relocate {g : Token → Token} (hg : Token.Relocates g) : Parens where
  opening := g p.opening
  inner := p.inner.map g
  closing := g p.closing
  opening_kind := by rw [hg.kind, p.opening_kind]
  nested := hg.map_kind p.inner ▸ p.nested
  closing_kind := by rw [hg.kind, p.closing_kind]

variable {g : Token → Token} (hg : Token.Relocates g)

lemma tokens_relocate : (p.relocate hg).tokens = p.tokens.map g := by
  rw [tokens, tokens, List.map_cons, List.map_append, List.map_singleton]
  rfl

/-- The list of parentheses at other places is the list at other places. -/
lemma list_relocate : (p.relocate hg).list = ParenList.relocate g p.list := by
  have hfresh : Matching.mk [.fresh (g p.opening)] [] =
      Matching.relocate g ⟨[.fresh p.opening], []⟩ := rfl
  have hhead : ∀ us : List Unclosed, (us.map (Unclosed.relocate g)).headD (.fresh (g p.opening)) =
      Unclosed.relocate g (us.headD (.fresh p.opening)) := by
    rintro (_ | ⟨u, us⟩) <;> rfl
  show Unclosed.close (List.headD
    ((p.inner.map g).foldl Matching.step ⟨[.fresh (g p.opening)], []⟩).unclosed _) _ = _
  rw [hfresh, Matching.foldl_relocate hg, list, ← Unclosed.close_relocate, ← hhead]
  rfl

end Parens

namespace ParenList

variable {ts us mid : List Token} {p : Token.Kind → Prop} {i : ListItem} {is : List ListItem}

/-! ### Where the lists of a token stream stand -/

/-- Every open list stands behind a parenthesis and tokens that are read into it, and behind the
tokens that the lists around it stand in. -/
inductive Stacked : List Token → List Unclosed → Prop where
  | empty (ts : List Token) : Stacked ts []
  | push {pre ts : List Token} {us : List Unclosed} {o : Token} {w : Unclosed}
      {new : List ParenList} : Stacked pre us → o.kind = .openParen →
      Nested (fun _ => True) (ts.map (·.kind)) → Matching.Through ts (.fresh o) w new →
      Stacked (pre ++ o :: ts) (w :: us.modifyHead Unclosed.nest)

/-- The list stands between two parentheses that match. -/
def Encloses (ts : List Token) (l : ParenList) : Prop :=
  ∃ (pre : List Token) (p : Parens) (post : List Token), ts = pre ++ (p.tokens ++ post) ∧ l = p.list

variable {l : ParenList} {t : Token}

lemma Encloses.append (h : Encloses ts l) (us : List Token) : Encloses (ts ++ us) l := by
  obtain ⟨pre, p, post, rfl, h⟩ := h
  exact ⟨pre, p, post ++ us, by simp, h⟩

namespace Stacked

variable {vs : List Unclosed} {v : Unclosed}

/-- More tokens are read into the innermost list. -/
lemma through {v' : Unclosed} {new : List ParenList} (h : Stacked ts (v :: vs))
    (hn : Nested (fun _ => True) (us.map (·.kind))) (hu : Matching.Through us v v' new) :
    Stacked (ts ++ us) (v' :: vs) := by
  generalize hs : v :: vs = stack at h
  cases h with
  | empty => cases hs
  | @push pre ts us' o w new' hpre ho hts hw =>
    obtain ⟨rfl, rfl⟩ := List.cons.inj hs
    rw [List.append_assoc, List.cons_append]
    refine .push hpre ho ?_ (hw.append hu)
    rw [List.map_append]
    exact hts.append hn

/-- A token that is no parenthesis is read into the innermost list. -/
lemma inner {f : Unclosed → Unclosed} (h : Stacked ts vs) (ho : t.kind ≠ .openParen)
    (hc : t.kind ≠ .closeParen) (hf : ∀ v, Matching.Through [t] v (f v) []) :
    Stacked (ts ++ [t]) (vs.modifyHead f) := by
  cases vs with
  | nil => exact .empty _
  | cons v vs => exact h.through (.cons ho hc trivial .nil) (hf v)

/-- The innermost list is what is read behind its parenthesis. -/
lemma exists_parts (h : Stacked ts (v :: vs)) : ∃ (pre : List Token) (o : Token)
    (mid : List Token) (new : List ParenList), ts = pre ++ o :: mid ∧ o.kind = .openParen ∧
      Nested (fun _ => True) (mid.map (·.kind)) ∧ Matching.Through mid (.fresh o) v new := by
  generalize hs : v :: vs = stack at h
  cases h with
  | empty => cases hs
  | @push pre mid us o w new hpre ho hmid hw =>
    obtain ⟨rfl, -⟩ := List.cons.inj hs
    exact ⟨pre, o, mid, new, rfl, ho, hmid, hw⟩

/-- The innermost list is closed, and it is part of the item at hand of the next. -/
lemma close (h : Stacked ts (v :: vs)) (ht : t.kind = .closeParen) :
    Encloses (ts ++ [t]) (v.close t) ∧ Stacked (ts ++ [t]) vs := by
  generalize hs : v :: vs = stack at h
  cases h with
  | empty => cases hs
  | @push pre ts us o w new hpre ho hts hw =>
    obtain ⟨rfl, rfl⟩ := List.cons.inj hs
    let p : Parens := ⟨o, ts, t, ho, hts, ht⟩
    refine ⟨⟨pre, p, [], by simp [p, Parens.tokens], ?_⟩, ?_⟩
    · show v.close t = Unclosed.close (List.headD _ _) t
      rw [hw.foldl]
      rfl
    · cases us with
      | nil => exact .empty _
      | cons u us =>
        have hcut : pre ++ o :: ts ++ [t] = pre ++ (o :: (ts ++ [t])) := by simp
        rw [hcut]
        refine hpre.through ?_ (hw.parens ho ht u)
        rw [List.map_cons, List.map_append, List.map_singleton, ho, ht]
        exact nested_parens hts

end Stacked

lemma Matching.inner_eq (m : Matching) (f : Unclosed → Unclosed) :
    m.inner f = ⟨m.unclosed.modifyHead f, m.closed⟩ := by
  obtain ⟨_ | ⟨u, us⟩, ls⟩ := m <;> rfl

/-- What is known of a matching once the tokens are read. -/
structure Matching.Traces (ts : List Token) (m : Matching) : Prop where
  unclosed : Stacked ts m.unclosed
  closed : ∀ l ∈ m.closed, Encloses ts l

namespace Matching.Traces

variable {m : Matching}

lemma closed_append (h : m.Traces ts) (us : List Token) : ∀ l ∈ m.closed, Encloses (ts ++ us) l :=
  fun l hl => (h.closed l hl).append us

/-- A step keeps what is known. -/
theorem step (h : m.Traces ts) (t : Token) : (m.step t).Traces (ts ++ [t]) := by
  have hclosed := h.closed_append [t]
  unfold Matching.step
  split
  · next ht =>
    rw [inner_eq]
    exact ⟨.push h.unclosed ht .nil (.nil _), hclosed⟩
  · next ht =>
    obtain ⟨_ | ⟨u, us⟩, ls⟩ := m
    · exact ⟨.empty _, hclosed⟩
    · obtain ⟨hl, hus⟩ := h.unclosed.close ht
      exact ⟨hus, List.forall_mem_cons.2 ⟨hl, hclosed⟩⟩
  · next ht =>
    rw [inner_eq]
    exact ⟨h.unclosed.inner (by rw [ht]; decide) (by rw [ht]; decide) (through_comma ht), hclosed⟩
  · next ho hc hs =>
    rw [inner_eq]
    exact ⟨h.unclosed.inner ho hc (through_push ho hc hs), hclosed⟩

theorem foldl (h : m.Traces ts) (us : List Token) :
    (us.foldl Matching.step m).Traces (ts ++ us) := by
  induction us generalizing ts m with
  | nil => rwa [List.append_nil]
  | cons t us ih =>
    rw [List.append_cons]
    exact ih (h.step t)

end Matching.Traces

/-- What is known once all tokens are read. -/
lemma Matching.traces (ts : List Token) : (ts.foldl Matching.step .empty).Traces ts := by
  have hempty : Matching.empty.Traces [] := ⟨.empty _, nofun⟩
  exact hempty.foldl ts

/-- **Every list stands between two parentheses that match**, and it is what is read between
them. -/
theorem encloses_of_mem_ofTokens (h : l ∈ ofTokens ts) : Encloses ts l :=
  (Matching.traces ts).closed l (List.mem_reverse.1 h)

end ParenList

end QueryGuard
