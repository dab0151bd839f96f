import QueryGuard.Proofs.Sql.Anchor
import QueryGuard.Proofs.Sql.Star

/-!
The kind of a statement and its first token. The kind is read from the masked text, where a word is
made of letters and four characters are gaps; a token is a longer word and stands behind any white
space. Main statement: the exact condition under which the kind is that of the first token.
-/

namespace QueryGuard

/-! ### The kind of a token -/

namespace Statement.Kind

/-- A keyword is made of letters. -/
lemma isAlphabetic_of_ofKeyword {cs : List Char}
    (h : ofKeyword (some (String.ofList cs)) ≠ .other) : ∀ c ∈ cs, Text.isAlphabetic c := by
  have hletters : ∀ x ∈ keywords, (Text.lower x.toList).all (·.isAlpha) := by decide +kernel
  by_contra! hc
  obtain ⟨c, hc, hn⟩ := hc
  refine h (ofKeyword_eq_other fun x hx => ?_)
  rw [String.toList_ofList, ← Bool.not_eq_true, Text.sameWord_iff]
  intro hs
  have hl : c.toLower ∈ Text.lower x.toList := by
    rw [← hs]
    exact List.mem_map_of_mem hc
  exact hn (Head.isAlphabetic_of_toLower (List.all_eq_true.1 (hletters x hx) _ hl))

/-- The kind of a statement that begins with the token. -/
def ofToken (u : Token) : Kind :=
  if u.isWord "select" then .select
  else if u.isWord "insert" || u.isWord "replace" then .insert
  else if u.isWord "update" then .update
  else if u.isWord "delete" then .delete
  else .other

lemma ofToken_of_word {u : Token} (h : u.kind = .word) :
    ofToken u = ofKeyword (some (String.ofList u.text)) := by
  have hword : ∀ w : String, u.isWord w = Text.sameWord u.text w.toList := fun w => by
    rw [Token.isWord, h]
    rfl
  simp only [ofToken, hword, ofKeyword, String.toList_ofList]

lemma ofToken_of_ne_word {u : Token} (h : u.kind ≠ .word) : ofToken u = .other := by
  have hword : ∀ w : String, u.isWord w = false := fun w => by
    rw [Token.isWord, beq_eq_false_iff_ne.2 h, Bool.false_and]
  simp only [ofToken, hword]
  rfl

end Statement.Kind

/-- A token is one word at most. -/
lemma Token.isWord_eq_false {u : Token} {v w : String} (hv : u.isWord v)
    (hne : Text.lower v.toList ≠ Text.lower w.toList) : u.isWord w = false := by
  rw [← Bool.not_eq_true, isWord_iff, (isWord_iff.1 hv).2]
  exact fun hw => hne hw.2

/-- The letters that the word begins with are a keyword, and it goes on behind them. -/
def Token.OverrunsKeyword (u : Token) : Prop :=
  Statement.Kind.ofKeyword (Head.leadingWord? u.text) ≠ .other ∧
    ∃ c ∈ u.text, Text.isAlphabetic c = false

namespace Lexeme

variable {d : Dialect} {before : Option Char} {rest : List Char} {k : Lexeme}

/-- The letters that a word begins with tell as much as the whole word, unless it overruns a
keyword. -/
lemma Reads.kind_leadingWord?_iff (h : k.Reads d before rest) {pos : Nat} {u : Token}
    (hu : k.tokenAt pos = some u) (hw : u.kind = .word) :
    Statement.Kind.ofKeyword (Head.leadingWord? u.text) = .ofToken u ↔ ¬ u.OverrunsKeyword := by
  obtain ⟨-, htext, hk⟩ := start_of_tokenAt hu
  have hskip := h.skipGap_append (hk.trans (congrArg some hw)) []
  have hne := h.text_ne_nil
  rw [List.append_nil, ← htext] at hskip
  rw [← htext] at hne
  rw [Statement.Kind.ofToken_of_word hw, Token.OverrunsKeyword]
  by_cases hall : ∀ c ∈ u.text, Text.isAlphabetic c
  · -- the letters are the whole word
    have hlead : Head.leadingWord? u.text = some (String.ofList u.text) := by
      obtain ⟨c, cs, hc⟩ := List.exists_cons_of_ne_nil hne
      rw [Head.leadingWord?, hskip, List.takeWhile_eq_self_iff.2 hall, hc]
    rw [hlead]
    refine iff_of_true rfl fun hover => ?_
    obtain ⟨c, hc, hn⟩ := hover.2
    rw [hall c hc] at hn
    cases hn
  · -- the whole word is no keyword
    have hother : Statement.Kind.ofKeyword (some (String.ofList u.text)) = .other := by
      by_contra hne
      exact hall (Statement.Kind.isAlphabetic_of_ofKeyword hne)
    have hletter : ∃ c ∈ u.text, Text.isAlphabetic c = false := by simpa using hall
    rw [hother, and_iff_left hletter, not_not]

end Lexeme

/-! ### The first token of a text -/

namespace SqlText

variable {t : SqlText} {u : Token}

/-- The first token of the first statement. -/
def firstToken? (t : SqlText) : Option Token := t.statementTokens.head?.map (·.token)

/-- The kind that the first token stands for. -/
def kindOfFirst (t : SqlText) : Statement.Kind := (t.firstToken?.map .ofToken).getD .other

/-- Nothing but gaps and comments stands in front of the token. -/
def BehindGaps (t : SqlText) (u : Token) : Prop :=
  ∀ c ∈ Text.takeBytes u.start t.masked, Head.isGap c

/-- Nothing stands in front of what begins the text. -/
lemma behindGaps_of_start (h : u.start = 0) : t.BehindGaps u := by
  rw [BehindGaps, h, Text.takeBytes_zero]
  nofun

/-- The lexemes of the text fall apart at its first token. -/
lemma exists_readAs_first (h : t.firstToken? = some u) : ∃ gs k rs,
    t.ReadAs (gs ++ k :: rs) ∧ (∀ g ∈ gs, g.token? = none) ∧
      k.tokenAt (Text.width (Lexeme.textOf gs)) = some u ∧
        Text.takeBytes u.start t.masked = Lexeme.maskOf gs := by
  obtain ⟨v, hv, rfl⟩ := Option.map_eq_some_iff.1 h
  obtain ⟨vs, hvs⟩ := List.head?_eq_some_iff.1 hv
  obtain ⟨us, hus, -⟩ := t.tokens_eq_append
  obtain ⟨ls, hls⟩ := t.exists_readAs
  rw [hvs, hls.tokens] at hus
  have hus : _ = [] ++ v.token :: (vs.map (·.token) ++ us) := hus
  obtain ⟨gs, k, rs, rfl, hgs, hk, -⟩ := Lexeme.exists_split hus
  rw [Nat.zero_add] at hk
  refine ⟨gs, k, rs, hls, Lexeme.tokens_eq_nil_iff.1 hgs, hk, ?_⟩
  rw [(Lexeme.start_of_tokenAt hk).1, hls.takeBytes_masked]

/-- Behind gaps the kind is that of the letters that the first word begins with. -/
lemma kind_of_behindGaps (h : t.firstToken? = some u) (hw : u.kind = .word)
    (hg : t.BehindGaps u) : t.statement.kind = .ofKeyword (Head.leadingWord? u.text) := by
  obtain ⟨gs, k, rs, hls, hgs, hk, hmask⟩ := exists_readAs_first h
  obtain ⟨-, htext, hkind⟩ := Lexeme.start_of_tokenAt hk
  rw [BehindGaps, hmask] at hg
  rw [htext, kind_eq_of_first hls hg hgs (hkind.trans (congrArg some hw))]

/-- A word with nothing but white space and comments in front of it is the first token. -/
lemma firstToken?_of_readAs {gs rs : List Lexeme} {k : Lexeme} (h : t.ReadAs (gs ++ k :: rs))
    (hg : ∀ g ∈ gs, g.token? = none) (hk : k.token? = some .word) :
    t.firstToken? = some ⟨.word, Text.width (Lexeme.textOf gs), k.text⟩ := by
  obtain ⟨us, hus⟩ := first_within h hg hk
  rw [Lexeme.tokens_append, Lexeme.tokens_eq_nil_iff.2 hg, Lexeme.tokens_cons, Lexeme.tokenAt,
    hk, Nat.zero_add] at hus
  rw [firstToken?, ← List.head?_map, ← hus]
  rfl

/-- Where there is a leading word, the first token is a word behind gaps. -/
lemma exists_first_of_leadingWord? {w : String} (h : Head.leadingWord? t.statementHead = some w) :
    ∃ u, t.firstToken? = some u ∧ u.kind = .word ∧ t.BehindGaps u := by
  obtain ⟨ls, hls⟩ := t.exists_readAs
  rw [statementHead, hls.masked] at h
  obtain ⟨gs, k, rs, rfl, hm, hg, hk⟩ := Lexeme.exists_first hls.reading h
  refine ⟨_, firstToken?_of_readAs hls hg hk, rfl, ?_⟩
  rw [BehindGaps, hls.takeBytes_masked]
  exact hm

lemma kind_eq_other (h : ∀ u, t.firstToken? = some u → u.kind = .word → ¬ t.BehindGaps u) :
    t.statement.kind = .other := by
  rw [kind_statement]
  cases hw : Head.leadingWord? t.statementHead with
  | none => rfl
  | some w =>
    obtain ⟨u, hu, hk, hg⟩ := exists_first_of_leadingWord? hw
    exact absurd hg (h u hu hk)

lemma kind_eq_ofToken_iff (h : t.firstToken? = some u) (hw : u.kind = .word) :
    t.statement.kind = .ofToken u ↔ (t.BehindGaps u → ¬ u.OverrunsKeyword) ∧
      (¬ t.BehindGaps u → Statement.Kind.ofToken u = .other) := by
  by_cases hg : t.BehindGaps u
  · obtain ⟨gs, k, rs, hls, -, hk, -⟩ := exists_readAs_first h
    have hread := (Lexeme.reading_append.1 hls.reading).2.1
    rw [kind_of_behindGaps h hw hg, hread.kind_leadingWord?_iff hk hw]
    exact ⟨fun hover => ⟨fun _ => hover, fun hn => absurd hg hn⟩, fun hall => hall.1 hg⟩
  · have hkind : t.statement.kind = .other := kind_eq_other fun v hv _ =>
      Option.some.inj (h.symm.trans hv) ▸ hg
    rw [hkind]
    exact ⟨fun e => ⟨fun hn => absurd hn hg, fun _ => e.symm⟩, fun hall => (hall.2 hg).symm⟩

/-- A word that is made of letters does not overrun a keyword. -/
lemma kind_of_isWord {w : String} (h : t.firstToken? = some u) (hg : t.BehindGaps u)
    (hu : u.isWord w) (hw : (Text.lower w.toList).all (·.isAlpha)) :
    t.statement.kind = .ofToken u := by
  obtain ⟨hk, hlower⟩ := Token.isWord_iff.1 hu
  rw [kind_eq_ofToken_iff h hk]
  refine ⟨fun _ hover => ?_, fun hn => absurd hg hn⟩
  obtain ⟨c, hc, hn⟩ := hover.2
  have hmem : c.toLower ∈ Text.lower w.toList := by
    rw [← hlower]
    exact List.mem_map_of_mem hc
  rw [Head.isAlphabetic_of_toLower (List.all_eq_true.1 hw _ hmem)] at hn
  cases hn

/-- **The kind of a statement is that of its first token** exactly when the first token does not
overrun a keyword and is not a keyword behind white space that is no gap. -/
theorem kind_eq_kindOfFirst_iff (t : SqlText) : t.statement.kind = t.kindOfFirst ↔
    ∀ u, t.firstToken? = some u → u.kind = .word →
      (t.BehindGaps u → ¬ u.OverrunsKeyword) ∧
      (¬ t.BehindGaps u → Statement.Kind.ofToken u = .other) := by
  cases h : t.firstToken? with
  | none =>
    have hkind : t.statement.kind = .other := kind_eq_other fun u hu => by rw [h] at hu; cases hu
    rw [hkind, kindOfFirst, h]
    exact iff_of_true rfl nofun
  | some u =>
    have hfirst : t.kindOfFirst = .ofToken u := by
      rw [kindOfFirst, h]
      rfl
    rw [hfirst]
    by_cases hw : u.kind = .word
    · rw [kind_eq_ofToken_iff h hw]
      exact ⟨fun hall v hv _ => Option.some.inj hv ▸ hall, fun hall => hall u rfl hw⟩
    · have hne : ∀ v, some u = some v → v.kind ≠ .word := fun v hv => Option.some.inj hv ▸ hw
      have hkind : t.statement.kind = .other := kind_eq_other fun v hv hvw =>
        absurd hvw (hne v (h.symm.trans hv))
      rw [hkind, Statement.Kind.ofToken_of_ne_word hw]
      exact iff_of_true rfl fun v hv hvw => absurd hvw (hne v hv)

/-- A function whose name begins with a keyword, and a `DELETE` behind a form feed. -/
theorem kind_ne_kindOfFirst_delete :
    (ofString .standard "delete_old_rows(1)").statement.kind ≠
        (ofString .standard "delete_old_rows(1)").kindOfFirst ∧
      (ofString .standard "\x0cDELETE FROM t").statement.kind ≠
        (ofString .standard "\x0cDELETE FROM t").kindOfFirst := by
  decide +kernel

end SqlText

end QueryGuard
