import QueryGuard.Proofs.Sql.Cut
import QueryGuard.Proofs.Sql.FirstStatement
import QueryGuard.Proofs.Sql.Items

/-!
Tokens that take the place of others. Where a range of a text is replaced, the tokens in front of it
stay and those behind it move with its end. Main statement: if the parentheses match among the
tokens that go and among those that come, and no semicolon stands outside them, then the first
statement keeps its other tokens.
-/

namespace QueryGuard

open Token.Kind

/-! ### Tokens behind a range -/

namespace Token

variable {n n' : Nat} {u : Token}

/-- The token where what ends at byte `n` ends at byte `n'` instead. -/
def moveFrom (n n' : Nat) (u : Token) : Token :=
  if u.start < n then u else { u with start := u.start - n + n' }

lemma moveFrom_of_lt (h : u.start < n) : moveFrom n n' u = u := if_pos h

lemma moveFrom_of_le (h : n ≤ u.start) :
    moveFrom n n' u = { u with start := u.start - n + n' } := if_neg (Nat.not_lt.2 h)

lemma relocates_moveFrom (n n' : Nat) : Relocates (moveFrom n n') := by
  constructor
  · intro u
    unfold moveFrom
    split <;> rfl
  · intro u _
    unfold moveFrom
    split <;> rfl

end Token

/-- Lexemes have the same tokens at other places. -/
lemma Lexeme.tokens_moveFrom (n n' : Nat) (ls : List Lexeme) :
    tokens n' ls = (tokens n ls).map (Token.moveFrom n n') := by
  have hmove : ∀ k, tokens (n' + k) ls = (tokens (n + k) ls).map (Token.moveFrom n n') := by
    induction ls with
    | nil => exact fun k => rfl
    | cons l ls ih =>
      intro k
      rw [tokens_cons, tokens_cons, List.map_append, Nat.add_assoc, ih, Nat.add_assoc]
      congr 1
      rw [tokenAt, tokenAt]
      cases l.token? with
      | none => rfl
      | some kind =>
        have hle : n ≤ n + k := Nat.le_add_right n k
        show [_] = [Token.moveFrom n n' ⟨kind, n + k, l.text⟩]
        rw [Token.moveFrom_of_le hle]
        show [Token.mk kind (n' + k) l.text] = [Token.mk kind (n + k - n + n') l.text]
        rw [Nat.add_sub_cancel_left, Nat.add_comm]
  exact hmove 0

/-! ### Depths -/

namespace DeepToken

variable {ts us : List Token} {g : Token → Token} {p : Token.Kind → Prop}

lemma depthAfter_append (n : Nat) (ts us : List Token) :
    depthAfter n (ts ++ us) = depthAfter (depthAfter n ts) us := by
  induction ts generalizing n with
  | nil => rfl
  | cons t ts ih =>
    rw [List.cons_append, depthAfter, depthAfter]
    split <;> rw [ih]

lemma depthAfter_map (hg : Token.Relocates g) (n : Nat) (ts : List Token) :
    depthAfter n (ts.map g) = depthAfter n ts := by
  induction ts generalizing n with
  | nil => rfl
  | cons t ts ih =>
    rw [List.map_cons, depthAfter, depthAfter, hg.kind]
    split <;> rw [ih]

/-- Nested tokens leave the depth as it is. -/
lemma depthAfter_of_nested (h : Nested p (ts.map (·.kind))) (n : Nat) : depthAfter n ts = n := by
  have e := (ofTokens_append_of_nested h rfl n [⟨.word, 0, []⟩]).1
  rw [ofTokens_append] at e
  have e := List.append_cancel_left e
  exact congrArg DeepToken.depth (List.head_eq_of_cons_eq e)

end DeepToken

/-! ### Tokens of two texts -/

namespace SqlText

variable {t t' : SqlText} {span : Span} {as bs cs ns : List Lexeme}
  {pre xs ys post later : List Token} {g : Token → Token} {u v : Token}

/-- In the place of the tokens `xs` of the text stand the tokens `ys` of the other, and the tokens
behind them are moved by `g`. -/
structure Replaces (t t' : SqlText) (pre xs ys post : List Token) (g : Token → Token) : Prop where
  tokens : t.tokens = pre ++ (xs ++ post)
  tokens' : t'.tokens = pre ++ (ys ++ post.map g)
  relocates : Token.Relocates g
  fixes : ∀ u ∈ pre, g u = u

/-- Tokens stand around the range from one of them to another. -/
lemma start_of_tokens_eq (e : t.tokens = pre ++ (xs ++ post)) (hu : xs.head? = some u)
    (hv : xs.getLast? = some v) : (∀ w ∈ pre, w.start < u.start) ∧
      (∀ w ∈ xs, u.start ≤ w.start ∧ w.start < v.stop) ∧ ∀ w ∈ post, v.stop ≤ w.start := by
  have hlt := t.pairwise_lt_tokens
  have hstop := t.pairwise_stop_tokens
  rw [e] at hlt hstop
  obtain ⟨-, hrest, hpre⟩ := List.pairwise_append.1 hlt
  obtain ⟨hxs, -, -⟩ := List.pairwise_append.1 hrest
  obtain ⟨-, -, hpost⟩ := List.pairwise_append.1 (List.pairwise_append.1 hstop).2.1
  have hmu := List.mem_of_head? hu
  have hmv := List.mem_of_getLast? hv
  have hvlt : v.start < v.stop := by
    obtain ⟨ls, h⟩ := t.exists_readAs
    have hmem : v ∈ Lexeme.tokens 0 ls := by
      rw [← h.tokens, e]
      exact List.mem_append_right _ (List.mem_append_left _ hmv)
    exact (Lexeme.stop_of_mem_tokens (fun l hl => h.reading.ne_nil_of_mem hl) hmem).1
  refine ⟨fun w hw => hpre w hw u (List.mem_append_left _ hmu), fun w hw => ⟨?_, ?_⟩,
    fun w hw => hpost v hmv w hw⟩
  -- the tokens of the range start between its first and its last
  · obtain ⟨us, rfl⟩ := List.head?_eq_some_iff.1 hu
    rcases List.mem_cons.1 hw with rfl | hw
    · exact Nat.le_refl _
    · exact ((List.pairwise_cons.1 hxs).1 w hw).le
  · obtain ⟨us, rfl⟩ := List.getLast?_eq_some_iff.1 hv
    rcases List.mem_append.1 hw with hw | hw
    · exact ((List.pairwise_append.1 hxs).2.2 w hw v List.mem_cons_self).trans hvlt
    · rwa [List.mem_singleton.1 hw]

/-- **Where a range is replaced**, other tokens stand in the place of those in it. -/
theorem Cut.replaces (h : t.Cut span as bs cs) (h' : t'.ReadAs (as ++ (ns ++ cs)))
    (e : t.tokens = pre ++ (xs ++ post)) (hu : xs.head? = some u) (hv : xs.getLast? = some v)
    (hspan : span = ⟨u.start, v.stop⟩) : Lexeme.tokens 0 as = pre ∧
      Lexeme.tokens span.start bs = xs ∧ Lexeme.tokens span.stop cs = post ∧
        t.Replaces t' pre xs (Lexeme.tokens span.start ns) post
          (Token.moveFrom span.stop (span.start + Text.width (Lexeme.textOf ns))) := by
  obtain ⟨hpre, hxs, hpost⟩ := start_of_tokens_eq e hu hv
  obtain ⟨has, hbs, hcs⟩ := h.places
  rw [hspan] at has hbs hcs
  have hlt : u.start < v.stop := by
    have := hxs u (List.mem_of_head? hu)
    exact this.2
  have htok := h.tokens_eq
  rw [hspan, e] at htok
  obtain ⟨hfront, hrest⟩ := Token.append_inj_of_start htok hpre
    (List.forall_mem_append.2 ⟨fun w hw => (hxs w hw).1, fun w hw => hlt.le.trans (hpost w hw)⟩) has
    (List.forall_mem_append.2 ⟨fun w hw => (hbs w hw).1, fun w hw => hlt.le.trans (hcs w hw)⟩)
  obtain ⟨hin, hback⟩ := Token.append_inj_of_start hrest (fun w hw => (hxs w hw).2) hpost
    (fun w hw => (hbs w hw).2) hcs
  have hstart := h.start
  subst hspan
  refine ⟨hfront.symm, hin.symm, hback.symm, e, ?_, Token.relocates_moveFrom _ _, fun w hw =>
    Token.moveFrom_of_lt ((hpre w hw).trans hlt)⟩
  rw [h'.tokens, Lexeme.tokens_append, Lexeme.tokens_append, ← hfront, Nat.zero_add, ← hstart,
    hback, ← Lexeme.tokens_moveFrom]

/-- **The first statement keeps its other tokens.** -/
theorem Replaces.map_token (h : t.Replaces t' pre xs ys post g)
    (hx : Nested (· ≠ .semicolon) (xs.map (·.kind)))
    (hy : Nested (· ≠ .semicolon) (ys.map (·.kind)))
    (e : t.statementTokens.map (·.token) = pre ++ (xs ++ later)) :
    t'.statementTokens.map (·.token) = pre ++ (ys ++ later.map g) := by
  obtain ⟨us, hus, hends⟩ := t.tokens_eq_append
  have hpost : post = later ++ us := by
    rw [h.tokens, e] at hus
    simpa using hus
  have htok : t'.tokens = (pre ++ (ys ++ later.map g)) ++ us.map g := by
    rw [h.tokens', hpost]
    simp
  have hdepth : DeepToken.depthAfter 0 (pre ++ (ys ++ later.map g)) =
      DeepToken.depthAfter 0 (t.statementTokens.map (·.token)) := by
    rw [e, DeepToken.depthAfter_append, DeepToken.depthAfter_append,
      DeepToken.depthAfter_of_nested hy, DeepToken.depthAfter_map h.relocates,
      DeepToken.depthAfter_append, DeepToken.depthAfter_append, DeepToken.depthAfter_of_nested hx]
  -- none of the tokens ends the statement
  have hin : ∀ u ∈ DeepToken.ofTokens 0 (pre ++ (ys ++ later.map g)),
      (!u.endsStatement) = true := by
    have hold := endsStatement_eq_false (List.prefix_refl (t.statementTokens.map (·.token)))
    rw [e, DeepToken.ofTokens_append, DeepToken.ofTokens_append, DeepToken.depthAfter_of_nested hx,
      List.forall_mem_append, List.forall_mem_append] at hold
    rw [DeepToken.ofTokens_append, DeepToken.ofTokens_append, DeepToken.depthAfter_of_nested hy,
      DeepToken.ofTokens_map h.relocates]
    refine List.forall_mem_append.2 ⟨fun u hu => ?_, List.forall_mem_append.2 ⟨fun u hu => ?_,
      List.forall_mem_map.2 fun u hu => ?_⟩⟩
    · rw [hold.1 u hu]
      rfl
    · rw [DeepToken.endsStatement_of_nested hy _ u hu]
      rfl
    · rw [DeepToken.endsStatement_relocate h.relocates, hold.2.2 u hu]
      rfl
  rw [statementTokens, Statement.tokens, htok, DeepToken.ofTokens_append,
    List.takeWhile_append_of_pos hin, List.map_append, DeepToken.map_token_ofTokens]
  rcases hends with ⟨rfl, -⟩ | ⟨s, us, rfl, hs, -, hzero⟩
  · exact List.append_nil _
  · have hstop : (DeepToken.ofTokens 0 ((s :: us).map g)).takeWhile (!·.endsStatement) = [] := by
      have hk := (h.relocates.kind s).trans hs
      rw [List.map_cons, DeepToken.ofTokens_cons (by rw [hk]; decide) (by rw [hk]; decide)]
      exact List.takeWhile_cons_of_neg (by simp [DeepToken.endsStatement, DeepToken.isTop, hk])
    rw [hdepth, hzero, hstop]
    exact List.append_nil _

end SqlText

end QueryGuard
