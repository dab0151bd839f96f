import QueryGuard.Proofs.Sql.Outline
import QueryGuard.Proofs.Sql.Parts

/-!
Where a `WHERE` clause goes. The lexemes of an `UPDATE` or `DELETE` fall apart at the anchor: in
front of it stand lexemes of the first statement, among them its leading keyword, and behind it
nothing that a clause could run into.
-/

namespace QueryGuard

variable {d : Dialect}

lemma Token.isWord_iff {u : Token} {w : String} :
    u.isWord w ↔ u.kind = .word ∧ Text.lower u.text = Text.lower w.toList := by
  rw [isWord, Bool.and_eq_true, beq_iff_eq, Text.sameWord_iff]

/-! ### Depths -/

namespace DeepToken

/-- The number of parentheses that are open behind the tokens. -/
def depthAfter (depth : Nat) : List Token → Nat
  | [] => depth
  | t :: ts =>
    match t.kind with
    | .openParen => depthAfter (depth + 1) ts
    | .closeParen => depthAfter (depth - 1) ts
    | _ => depthAfter depth ts

lemma ofTokens_append (depth : Nat) (ts us : List Token) :
    ofTokens depth (ts ++ us) = ofTokens depth ts ++ ofTokens (depthAfter depth ts) us := by
  induction ts generalizing depth with
  | nil => rfl
  | cons t ts ih => cases hk : t.kind <;> simp [ofTokens, depthAfter, hk, ih]

lemma map_token_ofTokens (depth : Nat) (ts : List Token) :
    (ofTokens depth ts).map (·.token) = ts := by
  induction ts generalizing depth with
  | nil => rfl
  | cons t ts ih =>
    rw [ofTokens]
    split <;> rw [List.map_cons, ih]

/-- Tokens have the depths that they have in front of others. -/
lemma ofTokens_of_append {depth : Nat} {ts : List Token} {xs ys : List DeepToken}
    (h : ofTokens depth ts = xs ++ ys) : ofTokens depth (xs.map (·.token)) = xs := by
  have hts : ts = xs.map (·.token) ++ ys.map (·.token) := by
    rw [← map_token_ofTokens depth ts, h, List.map_append]
  have hlen : (ofTokens depth (xs.map (·.token))).length = xs.length := by
    rw [← List.length_map (·.token), map_token_ofTokens, List.length_map]
  rw [hts, ofTokens_append] at h
  exact List.append_inj_left h hlen

lemma depth_of_ofTokens_eq {depth : Nat} {ts : List Token} {xs ys : List DeepToken} {u : DeepToken}
    (h : ofTokens depth ts = xs ++ u :: ys) (hu : u.token.kind ≠ .closeParen) :
    u.depth = depthAfter depth (xs.map (·.token)) := by
  have hxs := ofTokens_of_append h
  have hts : ts = xs.map (·.token) ++ u.token :: ys.map (·.token) := by
    rw [← map_token_ofTokens depth ts, h, List.map_append, List.map_cons]
  rw [hts, ofTokens_append, hxs] at h
  have h := List.append_cancel_left h
  rw [ofTokens] at h
  split at h
  · rw [← (List.cons.inj h).1]
  · next hk => exact absurd hk hu
  · rw [← (List.cons.inj h).1]

end DeepToken

namespace Lexeme

/-! ### The leading word -/

lemma head?_maskOf {ls : List Lexeme} (hne : ∀ l ∈ ls, l.text ≠ []) {c : Char}
    (hc : (maskOf ls).head? = some c) : c = ' ' ∨ (textOf ls).head? = some c := by
  cases ls with
  | nil => cases hc
  | cons l ls =>
    obtain ⟨e, es, he⟩ := List.exists_cons_of_ne_nil (hne l List.mem_cons_self)
    rw [maskOf_cons] at hc
    by_cases hk : l.kind = .comment
    · left
      rw [mask, if_pos hk] at hc
      obtain ⟨n, hn⟩ := Nat.exists_eq_succ_of_ne_zero
        (Text.width_pos (hne l List.mem_cons_self)).ne'
      rw [hn, List.replicate_succ] at hc
      exact (Option.some.inj hc).symm
    · right
      rw [mask, if_neg hk] at hc
      rw [textOf_cons]
      rw [he] at hc ⊢
      exact hc

end Lexeme

lemma Text.head?_takeBytes {n : Nat} {cs : List Char} {c : Char}
    (h : (takeBytes n cs).head? = some c) : cs.head? = some c := by
  cases cs with
  | nil => cases n <;> cases h
  | cons e cs =>
    cases n with
    | zero => rw [takeBytes_zero] at h; cases h
    | succ n => exact h

lemma Head.skipGap_append {as : List Char} (h : ∀ c ∈ as, isGap c) (bs : List Char) :
    skipGap (as ++ bs) = skipGap bs := List.dropWhile_append_of_pos h

namespace Lexeme

variable {before : Option Char} {gs ls rs : List Lexeme} {k : Lexeme} {n : Nat}

lemma mem_takeBytes {cs : List Char} {c : Char} (h : c ∈ Text.takeBytes n cs) :
    c ∈ cs := by
  have e := Text.takeBytes_append_dropBytes n cs
  rw [← e]
  exact List.mem_append_left _ h

lemma gap_or_letter_of_leadingWord? {c : Char} {cs : List Char} {w : String}
    (hw : Head.leadingWord? (Text.takeBytes n (c :: cs)) = some w) :
    Head.isGap c ∨ Text.isAlphabetic c := by
  by_contra! hc
  cases n with
  | zero => rw [Text.takeBytes_zero] at hw; cases hw
  | succ n =>
    rw [Text.takeBytes, Head.leadingWord?, Head.skipGap, List.dropWhile_cons, if_neg hc.1,
      List.takeWhile_cons, if_neg hc.2] at hw
    cases hw

/-- A gap has no part in the leading word. -/
lemma leadingWord?_append_gap {as bs : List Char} (h : ∀ c ∈ as, Head.isGap c) {w : String}
    (hw : Head.leadingWord? (Text.takeBytes n (as ++ bs)) = some w) :
    Head.leadingWord? (Text.takeBytes (n - Text.width as) bs) = some w := by
  rcases Nat.lt_or_ge n (Text.width as) with hn | hn
  · have hall : ∀ c ∈ Text.takeBytes n as, Head.isGap c := fun c hc => h c (mem_takeBytes hc)
    have hskip := Head.skipGap_append hall []
    rw [List.append_nil] at hskip
    rw [Text.takeBytes_append_of_le hn.le, Head.leadingWord?, hskip] at hw
    cases hw
  · rwa [Text.takeBytes_append_of_ge hn, Head.leadingWord?, Head.skipGap_append h] at hw

/-- **A leading word is the beginning of a word** that only gaps stand before. -/
theorem exists_first (h : Reading d [] before ls) {w : String}
    (hw : Head.leadingWord? (Text.takeBytes n (maskOf ls)) = some w) :
    ∃ gs k rs, ls = gs ++ k :: rs ∧ (∀ c ∈ maskOf gs, Head.isGap c) ∧
      (∀ g ∈ gs, g.token? = none) ∧ k.token? = some .word := by
  induction ls generalizing before n with
  | nil =>
    have hnil : Text.takeBytes n (maskOf []) = [] := by cases n <;> rfl
    rw [hnil] at hw
    cases hw
  | cons l ls ih =>
    rw [maskOf_cons] at hw
    obtain ⟨c, cs, hc⟩ := List.exists_cons_of_ne_nil h.1.mask_ne_nil
    have hl : Head.isGap c ∨ Text.isAlphabetic c := by
      rw [hc, List.cons_append] at hw
      exact gap_or_letter_of_leadingWord? hw
    rcases h.1.gap_or_word (by rw [hc]; rfl) hl with ⟨hgap, ht⟩ | ⟨hk, -⟩
    · obtain ⟨gs, k, rs, rfl, hg, hgs, hk⟩ := ih h.2 (leadingWord?_append_gap hgap hw)
      refine ⟨l :: gs, k, rs, rfl, ?_, List.forall_mem_cons.2 ⟨ht, hgs⟩, hk⟩
      rw [maskOf_cons]
      exact List.forall_mem_append.2 ⟨hgap, hg⟩
    · exact ⟨[], l, ls, rfl, nofun, nofun, hk⟩

/-- A word does not begin with a gap. -/
lemma Reads.skipGap_append {d : Dialect} {before : Option Char} {rest : List Char}
    (h : k.Reads d before rest) (hk : k.token? = some .word) (cs : List Char) :
    Head.skipGap (k.text ++ cs) = k.text ++ cs := by
  obtain ⟨-, hfirst, -⟩ := h.word_cases hk
  obtain ⟨c, xs, hc⟩ := List.exists_cons_of_ne_nil h.text_ne_nil
  have hw := Token.continuesWord_of_beginsWord (hfirst c (by rw [hc]; rfl))
  have hgap : ¬ Head.isGap c := fun hg => by
    rw [continuesWord_of_isGap hg] at hw
    cases hw
  rw [hc, List.cons_append, Head.skipGap, List.dropWhile_cons, if_neg hgap]

/-- **The leading word of a text** is that of its first word. -/
theorem leadingWord?_eq (h : Reading d [] before (gs ++ k :: rs))
    (hg : ∀ c ∈ maskOf gs, Head.isGap c) (hk : k.token? = some .word)
    (hn : Text.width (textOf gs) + Text.width k.text ≤ n) :
    Head.leadingWord? (Text.takeBytes n (maskOf (gs ++ k :: rs))) = Head.leadingWord? k.text := by
  have hr := (reading_append.1 h).2
  obtain ⟨hb, -, -, hnext⟩ := hr.1.word_cases hk
  have hmask : k.mask = k.text := if_neg (by rw [hb]; decide)
  have hne : ∀ l ∈ rs, l.text ≠ [] := fun _ hl => hr.2.ne_nil_of_mem hl
  have htake : Text.takeBytes n (maskOf (gs ++ k :: rs)) = maskOf gs ++ (k.text ++
      Text.takeBytes (n - Text.width (textOf gs) - Text.width k.text) (maskOf rs)) := by
    rw [maskOf_append, maskOf_cons, hmask,
      Text.takeBytes_append_of_ge (by rw [width_maskOf]; omega), width_maskOf,
      Text.takeBytes_append_of_ge (by omega)]
  have hskip' := hr.1.skipGap_append hk []
  rw [List.append_nil] at hskip'
  rw [htake, Head.leadingWord?, Head.skipGap_append hg, Head.leadingWord?,
    hr.1.skipGap_append hk, hskip', Text.takeWhile_append_of_head?]
  intro x hx
  rcases head?_maskOf hne (Text.head?_takeBytes hx) with rfl | hx
  · decide
  · have hcw := hnext x (by rw [List.append_nil]; exact hx)
    by_contra hl
    have hl : Text.isAlphabetic x = true := by simpa using hl
    simp [Token.continuesWord, Text.isAlphanumeric_of_isAlphabetic hl] at hcw

end Lexeme

/-! ### The tokens of the first statement -/

namespace SqlText

variable {t : SqlText} {as cs : List Lexeme}

lemma whereAnchor_statement (t : SqlText) :
    t.statement.whereAnchor = Statement.anchor t.statementTokens := by
  dsimp only [statement]
  split <;> rfl

lemma ofTokens_statementTokens (t : SqlText) :
    DeepToken.ofTokens 0 (t.statementTokens.map (·.token)) = t.statementTokens :=
  DeepToken.ofTokens_of_append List.takeWhile_append_dropWhile.symm

/-- What follows the first statement: nothing, or its semicolon outside parentheses. -/
lemma tokens_eq_append (t : SqlText) : ∃ us : List Token,
    t.tokens = t.statementTokens.map (·.token) ++ us ∧
      (us = [] ∧ t.statementStop = t.width ∨
        ∃ u us', us = u :: us' ∧ u.kind = .semicolon ∧ t.statementStop = u.start ∧
          DeepToken.depthAfter 0 (t.statementTokens.map (·.token)) = 0) := by
  have e : t.statementTokens ++
      (DeepToken.ofTokens 0 t.tokens).dropWhile (!·.endsStatement) =
        DeepToken.ofTokens 0 t.tokens := List.takeWhile_append_dropWhile
  have hmap := congrArg (List.map (·.token)) e
  rw [List.map_append, DeepToken.map_token_ofTokens] at hmap
  refine ⟨_, hmap.symm, ?_⟩
  have hhead := List.head?_dropWhile_not (fun u : DeepToken => !u.endsStatement)
    (DeepToken.ofTokens 0 t.tokens)
  rw [statementStop, Statement.semicolon?]
  cases hd : (DeepToken.ofTokens 0 t.tokens).dropWhile (!·.endsStatement) with
  | nil => exact .inl ⟨rfl, rfl⟩
  | cons u us =>
    rw [hd] at hhead e
    have he : u.endsStatement = true := by simpa using hhead
    rw [DeepToken.endsStatement, Bool.and_eq_true, beq_iff_eq, DeepToken.isTop, beq_iff_eq] at he
    refine .inr ⟨u.token, us.map (·.token), rfl, he.2, rfl, ?_⟩
    rw [← DeepToken.depth_of_ofTokens_eq e.symm (by rw [he.2]; decide), he.1]

/-- No token of the first statement ends it. -/
lemma endsStatement_eq_false {ts : List Token} (h : ts <+: t.statementTokens.map (·.token)) :
    ∀ u ∈ DeepToken.ofTokens 0 ts, u.endsStatement = false := by
  obtain ⟨xs, hxs⟩ := h
  have hst : DeepToken.ofTokens 0 ts <+: t.statementTokens := by
    rw [← t.ofTokens_statementTokens, ← hxs, DeepToken.ofTokens_append]
    exact List.prefix_append _ _
  intro u hu
  have := List.mem_takeWhile_imp (hst.subset hu)
  simpa using this

/-- The first statement reaches as far as its tokens. -/
lemma width_le_statementStop (as cs : List Lexeme) (h : t.ReadAs (as ++ cs))
    (hw : Lexeme.tokens 0 as <+: t.statementTokens.map (·.token)) :
    Text.width (Lexeme.textOf as) ≤ t.statementStop := by
  obtain ⟨us, hus, hcases⟩ := t.tokens_eq_append
  rcases hcases with ⟨-, hstop⟩ | ⟨u, us', rfl, -, hstop, -⟩
  · rw [hstop, width, h.chars, Lexeme.textOf_append, Text.width_append]
    exact Nat.le_add_right _ _
  · rw [hstop]
    obtain ⟨xs, hxs⟩ := hw
    rw [h.tokens, Lexeme.tokens_append, ← hxs, List.append_assoc] at hus
    have hu : u ∈ Lexeme.tokens (0 + Text.width (Lexeme.textOf as)) cs := by
      rw [List.append_cancel_left hus]
      simp
    have := Lexeme.start_le_of_mem_tokens hu
    omega

/-! ### Apart at the anchor -/

/-- The word is one with which the clauses behind `WHERE` begin. -/
def opensTailWord (cs : List Char) : Prop :=
  Text.lower cs = "order".toList ∨ Text.lower cs = "limit".toList ∨
    Text.lower cs = "returning".toList

/-- The lexemes of the text fall apart at the anchor. -/
structure AnchorSplit (t : SqlText) (as cs : List Lexeme) : Prop where
  readAs : t.ReadAs (as ++ cs)
  anchor : t.statement.whereAnchor = Text.width (Lexeme.textOf as)
  within : Lexeme.tokens 0 as <+: t.statementTokens.map (·.token)
  /-- A later clause begins outside parentheses, or the statement ends. -/
  cut : (∃ l ls, cs = l :: ls ∧ l.token? = some .word ∧ opensTailWord l.text ∧
      DeepToken.depthAfter 0 (Lexeme.tokens 0 as) = 0) ∨
    Lexeme.tokens 0 as = t.statementTokens.map (·.token) ∧ (∀ l ∈ as.getLast?, l.token?.isSome) ∧
      ∀ c ∈ (Lexeme.textOf cs).head?, Lexeme.parts c

end SqlText

namespace Statement

lemma opensTailWord_of_opensTail {u : Token} {next : Option Token} (h : opensTail u next) :
    u.kind = .word ∧ SqlText.opensTailWord u.text := by
  have hword : ∀ {w : String}, u.isWord w →
      u.kind = .word ∧ Text.lower u.text = Text.lower w.toList := Token.isWord_iff.1
  unfold opensTail at h
  split at h
  · next ho => exact ⟨(hword ho).1, .inl (hword ho).2⟩
  · rw [Bool.and_eq_true, Bool.or_eq_true] at h
    rcases h.1 with hl | hr
    · exact ⟨(hword hl).1, .inr (.inl (hword hl).2)⟩
    · exact ⟨(hword hr).1, .inr (.inr (hword hr).2)⟩

lemma tail?_cases (ts : List DeepToken) : tail? ts = none ∨
    ∃ xs u ys, ts = xs ++ u :: ys ∧ u.depth = 0 ∧ u.token.kind = .word ∧
      SqlText.opensTailWord u.token.text ∧ tail? ts = some u.token.start := by
  induction ts with
  | nil => exact .inl rfl
  | cons u ts ih =>
    rw [tail?]
    split
    · next h =>
      rw [Bool.and_eq_true, DeepToken.isTop, beq_iff_eq] at h
      obtain ⟨hk, ht⟩ := opensTailWord_of_opensTail h.2
      exact .inr ⟨[], u, ts, rfl, h.1, hk, ht, rfl⟩
    · rcases ih with h | ⟨xs, v, ys, rfl, hd, hk, ht, h⟩
      · exact .inl h
      · exact .inr ⟨u :: xs, v, ys, rfl, hd, hk, ht, h⟩

end Statement

namespace SqlText

variable {t : SqlText} {as cs : List Lexeme}

/-- The anchor in front of a later clause. -/
lemma anchorSplit_of_tail {ls : List Lexeme} (h : t.ReadAs ls) {xs ys : List DeepToken}
    {u : DeepToken} (hs : t.statementTokens = xs ++ u :: ys) (hd : u.depth = 0)
    (hk : u.token.kind = .word) (ht : opensTailWord u.token.text)
    (htail : Statement.tail? t.statementTokens = some u.token.start) :
    ∃ as cs, t.AnchorSplit as cs := by
  obtain ⟨us, hus, -⟩ := t.tokens_eq_append
  have hmap : t.statementTokens.map (·.token) =
      xs.map (·.token) ++ u.token :: ys.map (·.token) := by
    rw [hs, List.map_append, List.map_cons]
  have htok := h.tokens
  rw [hus, hmap, List.append_assoc, List.cons_append] at htok
  obtain ⟨as, l, cs, rfl, has, hl, -⟩ := Lexeme.exists_split htok.symm
  obtain ⟨hstart, htext, hkind⟩ := Lexeme.start_of_tokenAt hl
  refine ⟨as, l :: cs, h, ?_, ?_, .inl ⟨l, cs, rfl, ?_, ?_, ?_⟩⟩
  · rw [whereAnchor_statement, Statement.anchor, htail, Option.getD_some, hstart, Nat.zero_add]
  · rw [has, hmap]
    exact List.prefix_append _ _
  · rw [hkind, hk]
  · rwa [← htext]
  · have hdeep := t.ofTokens_statementTokens.trans hs
    rw [has, ← DeepToken.depth_of_ofTokens_eq hdeep (by rw [hk]; decide), hd]

/-- Behind the last token of the first statement stands its semicolon, or no token. -/
lemma parts_head?_of_tokens {us : List Token} {before : Option Char} {pos : Nat}
    (hus : t.tokens = t.statementTokens.map (·.token) ++ us)
    (hr : Lexeme.Reading t.dialect [] before cs) (hcs : Lexeme.tokens pos cs = us) :
    ∀ c ∈ (Lexeme.textOf cs).head?, Lexeme.parts c := by
  obtain ⟨us', hus', hcases⟩ := t.tokens_eq_append
  obtain rfl := List.append_cancel_left (hus'.symm.trans hus)
  refine hr.parts_head? pos fun u hu => ?_
  rw [hcs] at hu
  rcases hcases with ⟨rfl, -⟩ | ⟨v, us', rfl, hv, -⟩
  · cases hu
  · obtain rfl := Option.some.inj hu
    rw [hv]
    rfl

/-- The anchor at the end of the first statement. -/
lemma anchorSplit_of_end {ls : List Lexeme} (h : t.ReadAs ls)
    (htail : Statement.tail? t.statementTokens = none) : ∃ as cs, t.AnchorSplit as cs := by
  obtain ⟨us, hus, -⟩ := t.tokens_eq_append
  have htok := h.tokens
  rw [hus] at htok
  have hanchor : t.statement.whereAnchor =
      (t.statementTokens.getLast?.map (·.token.stop)).getD 0 := by
    rw [whereAnchor_statement, Statement.anchor, htail, Option.getD_none]
  rcases List.eq_nil_or_concat t.statementTokens with hnil | ⟨xs, u, hs⟩
  -- without a token the statement ends where the text begins
  · refine ⟨[], ls, h, ?_, List.nil_prefix, .inr ⟨?_, nofun, ?_⟩⟩
    · rw [hanchor, hnil]
      rfl
    · rw [hnil]
      rfl
    · exact parts_head?_of_tokens hus h.reading (by rw [← htok, hnil]; rfl)
  · rw [List.concat_eq_append] at hs
    -- the lexemes are cut behind that of the last token
    have hmap : t.statementTokens.map (·.token) = xs.map (·.token) ++ [u.token] := by
      rw [hs, List.map_append]
      rfl
    rw [hmap, List.append_assoc, List.singleton_append] at htok
    obtain ⟨as, l, cs, rfl, has, hl, hcs⟩ := Lexeme.exists_split htok.symm
    obtain ⟨hstart, htext, hkind⟩ := Lexeme.start_of_tokenAt hl
    have hpre : Lexeme.tokens 0 (as ++ [l]) = t.statementTokens.map (·.token) := by
      rw [Lexeme.tokens_append, has, hmap, Lexeme.tokens_cons, hl]
      rfl
    refine ⟨as ++ [l], cs, ?_, ?_, ⟨[], by rw [hpre, List.append_nil]⟩, .inr ⟨hpre, ?_, ?_⟩⟩
    · rwa [List.append_assoc, List.singleton_append]
    · rw [hanchor, hs, List.getLast?_append_of_ne_nil _ (List.cons_ne_nil u []),
        List.getLast?_singleton, Option.map_some, Option.getD_some, Token.stop, hstart, htext,
        Lexeme.textOf_append, Text.width_append, Lexeme.textOf_cons, Lexeme.textOf_nil,
        List.append_nil, Nat.zero_add]
    · intro m hm
      rw [List.getLast?_append_of_ne_nil _ (List.cons_ne_nil l []), List.getLast?_singleton] at hm
      obtain rfl := Option.some.inj hm
      rw [hkind]
      rfl
    · exact parts_head?_of_tokens hus (Lexeme.reading_append.1 h.reading).2.2 hcs

/-- **The lexemes of every text fall apart at the anchor.** -/
theorem exists_anchorSplit (t : SqlText) : ∃ as cs, t.AnchorSplit as cs := by
  obtain ⟨ls, h⟩ := t.exists_readAs
  rcases Statement.tail?_cases t.statementTokens with hn | ⟨xs, u, ys, hs, hd, hk, ht, htail⟩
  · exact anchorSplit_of_end h hn
  · exact anchorSplit_of_tail h hs hd hk ht htail

end SqlText

/-! ### The leading keyword stands in front of the anchor -/

namespace Statement.Kind

/-- The words with which a statement of a kind of its own begins. -/
def keywords : List String := ["select", "insert", "replace", "update", "delete"]

lemma ofKeyword_eq_other {w : String}
    (h : ∀ x ∈ keywords, Text.sameWord w.toList x.toList = false) : ofKeyword (some w) = .other := by
  have hselect := h "select" (by simp [keywords])
  have hinsert := h "insert" (by simp [keywords])
  have hreplace := h "replace" (by simp [keywords])
  have hupdate := h "update" (by simp [keywords])
  have hdelete := h "delete" (by simp [keywords])
  simp only [ofKeyword, hselect, hinsert, hreplace, hupdate, hdelete, Bool.or_self,
    Bool.false_eq_true, if_false]

end Statement.Kind

namespace SqlText

variable {t : SqlText} {as cs : List Lexeme}

lemma first_within {gs rs : List Lexeme} {k : Lexeme} (h : t.ReadAs (gs ++ k :: rs))
    (hg : ∀ g ∈ gs, g.token? = none) (hk : k.token? = some .word) :
    Lexeme.tokens 0 (gs ++ [k]) <+: t.statementTokens.map (·.token) := by
  obtain ⟨us, hus, hcases⟩ := t.tokens_eq_append
  have hfirst : Lexeme.tokens 0 (gs ++ [k]) =
      [⟨.word, 0 + Text.width (Lexeme.textOf gs), k.text⟩] := by
    rw [Lexeme.tokens_append, Lexeme.tokens_eq_nil_iff.2 hg, Lexeme.tokens_cons, Lexeme.tokenAt, hk]
    rfl
  have htok := h.tokens
  rw [← List.singleton_append, ← List.append_assoc, Lexeme.tokens_append, hfirst, hus] at htok
  rw [hfirst]
  cases hs : t.statementTokens.map (·.token) with
  | nil =>
    -- a word does not end the statement
    rw [hs, List.nil_append] at htok
    rcases hcases with ⟨rfl, -⟩ | ⟨u, us', rfl, hu, -⟩
    · cases htok
    · rw [(List.cons.inj htok).1] at hu
      cases hu
  | cons v vs =>
    rw [hs] at htok
    obtain ⟨rfl, -⟩ := List.cons.inj htok
    exact ⟨vs, rfl⟩

/-- **The kind of a statement is that of its first word.** -/
theorem kind_eq_of_first {gs rs : List Lexeme} {k : Lexeme} (h : t.ReadAs (gs ++ k :: rs))
    (hm : ∀ c ∈ Lexeme.maskOf gs, Head.isGap c) (hg : ∀ g ∈ gs, g.token? = none)
    (hk : k.token? = some .word) :
    t.statement.kind = .ofKeyword (Head.leadingWord? k.text) := by
  have hle : Text.width (Lexeme.textOf (gs ++ [k])) ≤ t.statementStop := by
    refine width_le_statementStop _ rs ?_ (first_within h hg hk)
    rwa [List.append_assoc, List.singleton_append]
  rw [Lexeme.textOf_append, Text.width_append, Lexeme.textOf_cons, Lexeme.textOf_nil,
    List.append_nil] at hle
  rw [kind_statement, statementHead, h.masked, Lexeme.leadingWord?_eq h.reading hm hk hle]

/-- No word of a later clause is a leading keyword: each keyword has a letter of its own. -/
lemma kind_of_opensTailWord {cs : List Char} (h : opensTailWord cs) :
    Statement.Kind.ofKeyword (Head.leadingWord? cs) = .other := by
  have hsub : ∀ c ∈ Text.lower ((Head.skipGap cs).takeWhile Text.isAlphabetic),
      c ∈ Text.lower cs := by
    have hs : (Head.skipGap cs).takeWhile Text.isAlphabetic <:+: cs :=
      (List.takeWhile_prefix _).isInfix.trans (List.dropWhile_suffix _).isInfix
    exact fun c hc => (hs.map Char.toLower).subset hc
  unfold Head.leadingWord?
  generalize (Head.skipGap cs).takeWhile Text.isAlphabetic = w at hsub
  cases w with
  | nil => rfl
  | cons c w =>
    have hletter : ∀ x ∈ Statement.Kind.keywords, ∀ y ∈ ["order", "limit", "returning"],
        (Text.lower x.toList).any fun e => !y.toList.contains e := by decide +kernel
    refine Statement.Kind.ofKeyword_eq_other fun x hx => ?_
    rw [String.toList_ofList, ← Bool.not_eq_true, Text.sameWord_iff]
    intro hs
    -- each keyword has a letter that is in none of the words of a tail
    have hno : ∀ y ∈ ["order", "limit", "returning"], Text.lower cs ≠ y.toList := by
      intro y hy e
      obtain ⟨e', he, hn⟩ := List.any_eq_true.1 (hletter x hx y hy)
      have hmem : e' ∈ y.toList := e ▸ hsub e' (hs ▸ he)
      rw [List.contains_iff_mem.2 hmem] at hn
      cases hn
    rcases h with h | h | h
    · exact hno "order" (by simp) h
    · exact hno "limit" (by simp) h
    · exact hno "returning" (by simp) h

/-- The keyword of an `UPDATE` or `DELETE` does not stand behind the anchor. -/
lemma AnchorSplit.not_first_behind {xs rs : List Lexeme} {k : Lexeme}
    (h : t.AnchorSplit as (xs ++ k :: rs))
    (hkind : t.statement.kind = .update ∨ t.statement.kind = .delete)
    (hm : ∀ c ∈ Lexeme.maskOf (as ++ xs), Head.isGap c) (hg : ∀ g ∈ as ++ xs, g.token? = none)
    (hk : k.token? = some .word) : False := by
  have hread := h.readAs
  rw [← List.append_assoc] at hread
  rcases h.cut with ⟨l, ls, hcs, hl, ht, -⟩ | ⟨hall, -, -⟩
  · -- the later clause would begin with the keyword itself
    obtain rfl : k = l := by
      cases xs with
      | nil => exact (List.cons.inj hcs).1
      | cons x xs =>
        obtain ⟨rfl, -⟩ := List.cons.inj hcs
        rw [hg x (List.mem_append_right _ List.mem_cons_self)] at hl
        cases hl
    rw [kind_eq_of_first hread hm hg hk, kind_of_opensTailWord ht] at hkind
    rcases hkind with e | e <;> cases e
  · -- the statement would have no token
    have hnil : Lexeme.tokens 0 as = [] :=
      Lexeme.tokens_eq_nil_iff.2 fun g hm => hg g (List.mem_append_left _ hm)
    have hpre := first_within hread hg hk
    rw [← hall, hnil, List.prefix_nil, Lexeme.tokens_eq_nil_iff] at hpre
    have hkn := hpre k (List.mem_append_right _ List.mem_cons_self)
    rw [hk] at hkn
    cases hkn

/-- In front of the anchor of an `UPDATE` or `DELETE` stands its keyword. -/
theorem AnchorSplit.exists_first (h : t.AnchorSplit as cs)
    (hkind : t.statement.kind = .update ∨ t.statement.kind = .delete) :
    ∃ gs k rs, as = gs ++ k :: rs ∧ (∀ c ∈ Lexeme.maskOf gs, Head.isGap c) ∧
      (∀ g ∈ gs, g.token? = none) ∧ k.token? = some .word := by
  obtain ⟨w, hw⟩ : ∃ w, Head.leadingWord? t.statementHead = some w := by
    cases hw : Head.leadingWord? t.statementHead with
    | some w => exact ⟨w, rfl⟩
    | none =>
      rw [kind_statement, hw] at hkind
      rcases hkind with e | e <;> cases e
  rw [statementHead, h.readAs.masked] at hw
  obtain ⟨gs, k, rs, e, hm, hg, hk⟩ := Lexeme.exists_first h.readAs.reading hw
  rcases List.append_eq_append_iff.1 e with ⟨xs, rfl, rfl⟩ | ⟨xs, rfl, hks⟩
  · exact (h.not_first_behind hkind hm hg hk).elim
  · cases xs with
    | nil =>
      obtain rfl : [] ++ k :: rs = cs := hks
      rw [List.append_nil] at h
      exact (h.not_first_behind hkind (by rwa [List.append_nil]) (by rwa [List.append_nil]) hk).elim
    | cons x xs =>
      obtain ⟨rfl, -⟩ := List.cons.inj hks
      exact ⟨gs, k, xs, rfl, hm, hg, hk⟩

end SqlText

end QueryGuard
