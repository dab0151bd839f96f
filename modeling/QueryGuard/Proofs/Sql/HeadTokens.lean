import QueryGuard.Proofs.Sql.InsertHead

/-!
What the readers of heads make of a text of tokens. They skip four blanks, where a token may stand
behind any white space, and take a quote for the end of a name, where a token goes on over a doubled
one. Main statements: behind other white space nothing is read, and a name is read as its token up
to the first quote that stands in it.
-/

namespace QueryGuard

open Lexeme

variable {d : Dialect}

/-! ### White space that is no gap -/

namespace Head

variable {g s cs rest : List Char}

/-- The text begins with white space that the readers of heads do not skip. -/
def Stuck (cs : List Char) : Prop :=
  ∃ c r, cs = c :: r ∧ Text.isBlank c ∧ isGap c = false

lemma stuck_skipGap (hb : ∀ c ∈ g, Text.isBlank c) (hg : ¬ ∀ c ∈ g, isGap c) (s : List Char) :
    Stuck (skipGap (g ++ s)) := by
  induction g with
  | nil => exact absurd nofun hg
  | cons c g ih =>
    obtain ⟨hc, hb⟩ := List.forall_mem_cons.1 hb
    by_cases h : isGap c
    · have hskip : skipGap (c :: g ++ s) = skipGap (g ++ s) := List.dropWhile_cons_of_pos h
      rw [hskip]
      exact ih hb fun hall => hg (List.forall_mem_cons.2 ⟨h, hall⟩)
    · exact ⟨c, g ++ s, List.dropWhile_cons_of_neg h, hc, by simpa using h⟩

namespace Stuck

lemma head?_ne (h : Stuck cs) {e : Char} (he : Text.isBlank e = false) : cs.head? ≠ some e := by
  obtain ⟨c, r, rfl, hb, -⟩ := h
  intro hce
  rw [Option.some.inj hce, he] at hb
  cases hb

lemma identifier?_eq (h : Stuck cs) : identifier? cs = none := by
  have hne : ∀ e, Text.isBlank e = false → cs.head? ≠ some e := fun _ he => h.head?_ne he
  obtain ⟨c, r, rfl, hb, -⟩ := h
  have hc : closing? c = none := by
    have hd : c ≠ Quote.double.char := fun e => hne _ (by decide) (congrArg some e)
    have hk : c ≠ Quote.back.char := fun e => hne _ (by decide) (congrArg some e)
    have hs : c ≠ '[' := fun e => hne _ (by decide) (congrArg some e)
    rw [closing?, if_neg hd, if_neg hk, if_neg hs]
  have hw : Token.continuesWord c = false := (parts_iff.1 (parts_of_isBlank hb).1).1
  simp only [identifier?, hc, hw]
  rfl

lemma keyword?_eq (h : Stuck cs) {w : String} (hw : (Text.lower w.toList).head?.any (·.isAlpha)) :
    keyword? w cs = none := by
  obtain ⟨c, r, rfl, hb, -⟩ := h
  cases hl : Text.lower w.toList with
  | nil =>
    rw [hl] at hw
    cases hw
  | cons e es =>
    rw [hl, List.head?_cons, Option.any_some] at hw
    refine keyword?_eq_none (n := 1) ?_ ?_
    · rw [← List.length_map (f := Char.toLower), ← Text.lower, hl, List.length_cons]
      omega
    · rw [hl]
      intro he
      have hce : e = c.toLower := List.head_eq_of_cons_eq he
      rw [hce] at hw
      have hp := parts_iff.1 (parts_of_isBlank hb).1
      rw [Token.continuesWord_of_beginsWord (by
        rw [Token.beginsWord, isAlphabetic_of_toLower hw, Bool.true_or])] at hp
      cases hp.1

lemma anyKeyword?_eq (h : Stuck cs) {words : List String}
    (hw : ∀ w ∈ words, (Text.lower w.toList).head?.any (·.isAlpha)) :
    anyKeyword? words cs = none :=
  List.findSome?_eq_none_iff.2 fun w hm => h.keyword?_eq (hw w hm)

end Stuck

/-- Behind something other than a gap there is none to skip, or the reader is stuck. -/
lemma gap?_cases (hb : ∀ c ∈ g, Text.isBlank c) (hs : ∀ c ∈ s.head?, isGap c = false)
    (hg : ¬ (g ≠ [] ∧ ∀ c ∈ g, isGap c)) :
    gap? (g ++ s) = none ∨ ∃ cs, gap? (g ++ s) = some cs ∧ Stuck cs := by
  by_cases hall : ∀ c ∈ g, isGap c
  · obtain rfl : g = [] := by
      by_contra hne
      exact hg ⟨hne, hall⟩
    refine .inl (if_neg ?_)
    cases s with
    | nil => exact Bool.false_ne_true
    | cons c s =>
      have hc := hs c rfl
      simp [hc]
  · have hstuck := stuck_skipGap hb hall s
    unfold gap?
    split
    · exact .inr ⟨_, rfl, hstuck⟩
    · exact .inl rfl

/-! ### The words of an `INSERT` -/

/-- The columns behind a table, where `cs` stands behind the keyword in front of it. -/
def columnsOfTable (cs : List Char) : Option (List String) :=
  (gap? cs).bind fun rest => (tableName? rest).bind fun p => columnList? (skipGap p.2)

/-- The head of an `INSERT` up to its table. -/
lemma insert?_append_into (insert : Spelling "insert") (into : Spelling "into") {g₀ g₁ : List Char}
    (h₀ : ∀ c ∈ g₀, isGap c) (h₁ : ∀ c ∈ g₁, isGap c) (n₁ : g₁ ≠ [])
    (hs : ∀ c ∈ s.head?, Token.continuesWord c = false) :
    (insert? (g₀ ++ (insert.text ++ (g₁ ++ (into.text ++ s))))).bind (·.2) =
      columnsOfTable s := by
  have hfirst : skipGap (g₀ ++ (insert.text ++ (g₁ ++ (into.text ++ s)))) =
      insert.text ++ (g₁ ++ (into.text ++ s)) := by
    rw [skipGap_append h₀]
    exact skipGap_of_head? (insert.isGap_of_head?_text (by decide))
  have hverb : anyKeyword? ["insert", "replace"] (insert.text ++ (g₁ ++ (into.text ++ s))) =
      some (g₁ ++ (into.text ++ s)) := by
    have h := keyword?_append insert (by decide) (stops_gap_of_ne_nil n₁ h₁ (into.text ++ s))
    rw [anyKeyword?, List.findSome?_cons, h]
  have hgap : gap? (g₁ ++ (into.text ++ s)) = some (into.text ++ s) :=
    gap?_append n₁ h₁ (into.isGap_of_head?_text (by decide))
  have hinto : keyword? "into" (into.text ++ s) = some s := keyword?_append into (by decide) hs
  simp only [insert?, hfirst, hverb, Option.bind_eq_bind, Option.bind_some,
    skipModifiers_eq hgap (anyKeyword?_into into s), hgap, hinto, Option.getD_some,
    Option.pure_def, Option.bind_assoc, columnsOfTable]

/-- No head is read in front of a keyword behind white space that is no gap. -/
lemma insert?_eq_none_of_stuck (h : Stuck (skipGap cs)) : insert? cs = none := by
  have hverb : anyKeyword? ["insert", "replace"] (skipGap cs) = none :=
    h.anyKeyword?_eq (by decide)
  simp only [insert?, hverb, Option.bind_eq_bind, Option.bind_none]

/-- No head is read where white space that is no gap stands behind the first keyword. -/
lemma insert?_eq_none_of_stuck_into (insert : Spelling "insert") {g₀ g₁ : List Char}
    (h₀ : ∀ c ∈ g₀, isGap c) (hb : ∀ c ∈ g₁, Text.isBlank c) (h₁ : ¬ ∀ c ∈ g₁, isGap c)
    (hs : ∀ c ∈ s.head?, isGap c = false) :
    insert? (g₀ ++ (insert.text ++ (g₁ ++ s))) = none := by
  have hfirst : skipGap (g₀ ++ (insert.text ++ (g₁ ++ s))) = insert.text ++ (g₁ ++ s) := by
    rw [skipGap_append h₀]
    exact skipGap_of_head? (insert.isGap_of_head?_text (by decide))
  have hnext : ∀ c ∈ (g₁ ++ s).head?, Token.continuesWord c = false := by
    obtain ⟨e, g, rfl⟩ : ∃ e g, g₁ = e :: g := by
      refine List.exists_cons_of_ne_nil ?_
      rintro rfl
      exact h₁ nofun
    exact Text.forall_head? rfl
      (parts_iff.1 (parts_of_isBlank (hb e List.mem_cons_self)).1).1
  have hverb : anyKeyword? ["insert", "replace"] (insert.text ++ (g₁ ++ s)) = some (g₁ ++ s) := by
    rw [anyKeyword?, List.findSome?_cons, keyword?_append insert (by decide) hnext]
  have hskip : skipModifiers ["low_priority", "delayed", "high_priority", "ignore"] (g₁ ++ s) =
      g₁ ++ s := by
    rcases gap?_cases hb hs fun h => h₁ h.2 with hgap | ⟨cs, hgap, hstuck⟩
    · rw [skipModifiers]
      split
      · rfl
      · next h =>
        rw [hgap] at h
        cases h
    · exact skipModifiers_eq hgap (hstuck.anyKeyword?_eq (by decide))
  -- no gap is found, or one behind which neither `INTO` nor a table is
  rcases gap?_cases hb hs fun h => h₁ h.2 with hgap | ⟨cs, hgap, hstuck⟩
  · simp only [insert?, hfirst, hverb, Option.bind_eq_bind, Option.bind_some, hskip, hgap,
      Option.bind_none, Option.getD_none]
  · have hinto := hstuck.keyword?_eq (w := "into") (by decide)
    have htable : tableName? cs = none := by
      simp only [tableName?, hstuck.identifier?_eq, Option.bind_eq_bind, Option.bind_none]
    simp only [insert?, hfirst, hverb, Option.bind_eq_bind, Option.bind_some, hskip, hgap, hinto,
      Option.getD_none, htable, Option.bind_none]

/-! ### Tables and lists of columns -/

lemma tableName?_of_identifier {cs name rest : List Char}
    (h : identifier? cs = some (name, rest)) (hr : rest.head? ≠ some '.') :
    ∃ table, tableName? cs = some (table, rest) := by
  have hparts : dottedParts rest = ([], rest) := by
    cases rest with
    | nil => rw [dottedParts]
    | cons c r =>
      rw [dottedParts, if_neg]
      rintro rfl
      exact hr rfl
  simp only [tableName?, h, Option.bind_eq_bind, Option.bind_some, hparts, Option.pure_def]
  exact ⟨_, rfl⟩

/-- A quoted name reaches to the next quote of its kind. -/
lemma identifier?_quote {q : Quote} (hq : q ≠ .single) (hn : q.char ∉ cs) (rest : List Char) :
    identifier? (q.char :: (cs ++ q.char :: rest)) = some (cs, rest) := by
  have hne : ∀ c ∈ cs, decide (c ≠ q.char) = true := fun c hc => decide_eq_true fun e => hn (e ▸ hc)
  have hdrop : (cs ++ q.char :: rest).dropWhile (· ≠ q.char) = q.char :: rest := by
    rw [List.dropWhile_append_of_pos hne, List.dropWhile_cons_of_neg (by simp)]
  have htake : (cs ++ q.char :: rest).takeWhile (· ≠ q.char) = cs := by
    rw [List.takeWhile_append_of_pos hne, List.takeWhile_cons_of_neg (by simp), List.append_nil]
  simp only [identifier?, closing?_char hq, hdrop, htake]

lemma commaParts_of_none {after : List Char} (h : skipGap cs = ',' :: after)
    (hi : identifier? (skipGap after) = none) : commaParts cs = ([], cs) := by
  rw [commaParts]
  split
  · rfl
  · next c after' h' =>
    obtain ⟨rfl, rfl⟩ := List.cons.inj (h.symm.trans h')
    rw [if_pos rfl]
    split
    · rfl
    · next hi' =>
      rw [hi] at hi'
      cases hi'

/-- Where the reader of further columns is stuck, no parenthesis closes the list. -/
lemma Stuck.head?_skipGap_commaParts (h : Stuck (skipGap cs)) :
    (skipGap (commaParts cs).2).head? ≠ some ')' := by
  rw [commaParts_of_ne fun c hc e => h.head?_ne (e := ',') (by decide) (e ▸ hc)]
  exact h.head?_ne (by decide)

lemma skipGap_append_cons {c : Char} (hg : ∀ x ∈ g, isGap x) (hc : isGap c = false) :
    skipGap (g ++ c :: s) = c :: s := by
  rw [skipGap_append hg]
  exact skipGap_of_head? (Text.forall_head? rfl hc)

/-- Behind a name that is cut at a quote no parenthesis closes the list. -/
lemma head?_skipGap_commaParts_quote (q : Quote) (rest : List Char) :
    (skipGap (commaParts (q.char :: rest)).2).head? ≠ some ')' := by
  obtain ⟨hg, hs, hc⟩ : isGap q.char = false ∧ q.char ≠ ',' ∧ some q.char ≠ some ')' := by
    cases q <;> decide
  have hskip : skipGap (q.char :: rest) = q.char :: rest :=
    skipGap_of_head? (Text.forall_head? rfl hg)
  have hne : ∀ c ∈ (skipGap (q.char :: rest)).head?, c ≠ ',' := by
    rw [hskip]
    exact Text.forall_head? rfl hs
  rw [commaParts_of_ne hne, hskip]
  exact hc

lemma columnList?_cons (cs : List Char) : columnList? ('(' :: cs) =
    (identifier? (skipGap cs)).bind fun p =>
      if (skipGap (commaParts p.2).2).head? = some ')' then
        some ((p.1 :: (commaParts p.2).1).map String.ofList)
      else none := by
  simp only [columnList?, guard, List.head?_cons, if_true, Option.bind_eq_bind, Option.pure_def,
    Option.bind_some, List.drop_one, List.tail_cons]
  congr 1
  funext p
  split <;> rfl

end Head

/-! ### Names as tokens -/

namespace Token

variable {u : Token}

/-- A token that may name a table or a column. -/
def IsName (u : Token) : Prop := u.kind = .word ∨ u.kind = .identifier

/-- The name without the quotes around it. -/
def unquoted (u : Token) : List Char :=
  if u.kind = .identifier then u.text.tail.dropLast else u.text

/-- The quote of the name stands between its quotes, too. -/
def HoldsQuote (u : Token) : Prop := u.kind = .identifier ∧ ∃ q ∈ u.text.head?, q ∈ u.unquoted

instance : Decidable u.IsName := inferInstanceAs (Decidable (_ ∨ _))

instance : Decidable u.HoldsQuote :=
  decidable_of_iff (u.kind = .identifier ∧ u.text.head?.any (u.unquoted.contains ·))
    (by simp [HoldsQuote, Option.any_eq_true])

end Token

/-- Where a quote stands in a body that escapes nothing, the first is doubled. -/
lemma Grammar.Body.exists_doubled {q : Quote} {body : List Char} (h : Body id d q body)
    (he : d.escapes q = false) (hq : q.char ∈ body) :
    ∃ as bs, body = as ++ q.char :: q.char :: bs ∧ q.char ∉ as := by
  induction h with
  | nil => exact absurd hq List.not_mem_nil
  | @cons unit body hu _ ih =>
    cases hu with
    | escaped x hd =>
      rw [he] at hd
      cases hd
    | doubled => exact ⟨[], body, rfl, List.not_mem_nil⟩
    | plain x hx =>
      have hx : q.char ≠ x := fun e => hx e.symm
      obtain ⟨as, bs, rfl, has⟩ := ih ((List.mem_cons.1 hq).resolve_left hx)
      exact ⟨x :: as, bs, rfl, fun hm => (List.mem_cons.1 hm).elim hx has⟩

namespace Lexeme

variable {l : Lexeme} {ls : List Lexeme} {before : Option Char} {rest s : List Char} {pos : Nat}
  {u : Token}

/-- A text with blanks in the place of comments begins as the text does, or with a blank. -/
lemma Reading.head?_maskOf (h : Reading d rest before ls) {c : Char}
    (hc : (maskOf ls).head? = some c) : c = ' ' ∨ (textOf ls ++ rest).head? = some c := by
  cases ls with
  | nil => cases hc
  | cons l ls =>
    obtain ⟨e, es, he⟩ := List.exists_cons_of_ne_nil h.1.text_ne_nil
    obtain ⟨m, ms, hm⟩ := List.exists_cons_of_ne_nil h.1.mask_ne_nil
    rw [maskOf_cons, hm] at hc
    obtain rfl : m = c := Option.some.inj hc
    by_cases hk : l.kind = .comment
    · left
      have hmem : m ∈ l.mask := by rw [hm]; exact List.mem_cons_self
      rw [mask, if_pos hk] at hmem
      exact List.eq_of_mem_replicate hmem
    · right
      rw [mask, if_neg hk] at hm
      rw [textOf_cons, hm]
      rfl

/-- Between two tokens stand blanks. -/
lemma Reading.isBlank_of_mem_maskOf (h : Reading d rest before ls)
    (hn : ∀ l ∈ ls, l.token? = none) : ∀ c ∈ maskOf ls, Text.isBlank c := by
  induction ls generalizing before with
  | nil => exact nofun
  | cons l ls ih =>
    intro c hc
    rw [maskOf_cons] at hc
    rcases List.mem_append.1 hc with hc | hc
    · rcases h.1.blank_cases (hn l List.mem_cons_self) with ⟨e, hb, rfl⟩ | ⟨hk, -⟩
      · have hc : c ∈ [e] := hc
        rwa [List.mem_singleton.1 hc]
      · rw [mask, if_pos hk] at hc
        rw [List.eq_of_mem_replicate hc]
        decide
    · exact ih h.2 (fun k hk => hn k (List.mem_cons_of_mem l hk)) c hc

lemma Reads.mask_of_token (h : l.Reads d before rest) (ht : l.token?.isSome) : l.mask = l.text := by
  cases h with
  | bare => rfl
  | literal => rfl
  | comment => cases ht

/-- A token stands behind blanks, and it is not blanked out. -/
lemma Reading.exists_token {us : List Token} (h : Reading d rest before ls)
    (ht : tokens pos ls = u :: us) : ∃ (g : List Char) (l : Lexeme) (ks : List Lexeme),
      maskOf ls = g ++ (u.text ++ maskOf ks) ∧ (∀ c ∈ g, Text.isBlank c) ∧
        u.start = pos + Text.width g ∧ l.tokenAt u.start = some u ∧
          (∃ b, l.Reads d b (textOf ks ++ rest)) ∧ (∃ b, Reading d rest b ks) ∧
            tokens u.stop ks = us := by
  have ht : tokens pos ls = [] ++ u :: us := ht
  obtain ⟨gs, l, ks, rfl, hgs, hl, hks⟩ := exists_split ht
  obtain ⟨hstart, htext, hkind⟩ := start_of_tokenAt hl
  obtain ⟨hg, hread, hrest⟩ := reading_append.1 h
  have hmask : l.mask = u.text := by rw [htext, hread.mask_of_token (by rw [hkind]; rfl)]
  refine ⟨maskOf gs, l, ks, ?_, hg.isBlank_of_mem_maskOf (tokens_eq_nil_iff.1 hgs), ?_, ?_,
    ⟨_, hread⟩, ⟨_, hrest⟩, ?_⟩
  · rw [maskOf_append, maskOf_cons, hmask]
  · rw [hstart, width_maskOf]
  · rwa [hstart]
  · rw [Token.stop, hstart, htext]
    exact hks

/-- No token begins with a gap. -/
lemma Reads.isGap_head?_append (h : l.Reads d before rest) (hu : l.tokenAt pos = some u)
    (s : List Char) : ∀ c ∈ (u.text ++ s).head?, Head.isGap c = false := by
  obtain ⟨-, htext, hkind⟩ := start_of_tokenAt hu
  obtain ⟨e, es, he⟩ := List.exists_cons_of_ne_nil h.text_ne_nil
  refine Text.forall_head? (c := e) (by rw [htext, he]; rfl) ?_
  by_contra hg
  have hg : Head.isGap e = true := by simpa using hg
  rw [h.eq_blank (by rw [he]; rfl) (isBlank_of_isGap hg)] at hkind
  cases hkind

lemma Reading.textOf_append_ne_nil (h : Reading d rest before ls) (pos : Nat)
    (ht : tokens pos ls ≠ []) : textOf ls ++ rest ≠ [] := by
  cases ls with
  | nil => exact absurd rfl ht
  | cons l ls =>
    intro e
    rw [textOf_cons, List.append_assoc] at e
    exact h.1.text_ne_nil (List.append_eq_nil_iff.1 e).1

lemma Reads.text_of_mark? {l : Lexeme} {u : Token} {c : Char} (h : l.Reads d before rest)
    (hu : l.tokenAt pos = some u) (hc : u.kind.mark? = some c) : u.text = [c] := by
  obtain ⟨-, htext, hkind⟩ := start_of_tokenAt hu
  rw [htext, h.eq_single hkind hc]
  rfl

/-! ### Names as they are read -/

/-- A quoted name in front of more text is closed, and no character of it is escaped. -/
lemma Reads.exists_quoted (h : l.Reads d before rest) (hl : l.token? = some .identifier)
    (hr : rest ≠ []) : ∃ q body, l.text = q.char :: (body ++ [q.char]) ∧ q ≠ .single ∧
      Grammar.Body id d q body ∧ d.escapes q = false := by
  cases h with
  | @bare c cs token? ho hlex =>
    obtain rfl : token? = some .identifier := hl
    have hk := congrArg Prod.fst hlex
    -- a bare lexeme is no name in quotes
    unfold Token.lexeme at hk
    split at hk
    · cases hk
    · cases hk
    · have hm : Token.markKind c ≠ .identifier := by
        unfold Token.markKind
        repeat' split
        all_goals decide
      repeat' split at hk
      all_goals first | exact absurd (Option.some.inj hk) hm | cases hk
  | @literal text hs =>
    obtain ⟨q, body, close, rfl, hb, -, hclose⟩ := hs.literal_cases Grammar.distinguishes_id
    have hk : Token.literalKind d (some q.char) = .identifier := Option.some.inj hl
    rcases hclose with rfl | ⟨hnil, -⟩
    · refine ⟨q, body, rfl, ?_, hb, ?_⟩
      · rintro rfl
        cases hk
      -- only a double quote of one dialect and a backquote make a name, and neither escapes
      · cases q with
        | single => cases hk
        | double => cases d with
          | standard => rfl
          | mysql => cases hk
        | back => simp [Dialect.escapes]
    · exact absurd hnil hr
  | comment => cases hl

/-- A name is read without its quotes, up to the first quote that stands in it. -/
lemma Reads.identifier?_append (h : l.Reads d before rest) (hu : l.tokenAt pos = some u)
    (hn : u.IsName) (hr : rest ≠ []) (hs : ∀ c ∈ s.head?, c = ' ' ∨ rest.head? = some c) :
    (¬ u.HoldsQuote → Head.identifier? (u.text ++ s) = some (u.unquoted, s)) ∧
      (u.HoldsQuote → ∃ (name : List Char) (q : Quote) (r : List Char),
        Head.identifier? (u.text ++ s) = some (name, q.char :: r)) := by
  obtain ⟨-, htext, hkind⟩ := start_of_tokenAt hu
  rcases hn with hw | hq
  · -- a word
    rw [hw] at hkind
    obtain ⟨-, hfirst, htail, hnext⟩ := h.word_cases hkind
    obtain ⟨c, cs, hc⟩ := List.exists_cons_of_ne_nil h.text_ne_nil
    rw [hc] at hfirst htail
    have hstop : ∀ x ∈ s.head?, Token.continuesWord x = false := by
      intro x hx
      rcases hs x hx with rfl | hx
      · decide
      · exact hnext x hx
    have hname := Head.identifier?_append (d := d) (.bare c cs (hfirst c rfl) htail) hstop
    have hne : u.kind ≠ .identifier := by rw [hw]; decide
    refine ⟨fun _ => ?_, fun hholds => absurd hholds.1 hne⟩
    rw [Token.unquoted, if_neg hne, htext, hc]
    exact hname
  · -- a quoted name
    rw [hq] at hkind
    obtain ⟨q, body, hl, hsingle, hb, he⟩ := h.exists_quoted hkind hr
    have hunquoted : u.unquoted = body := by
      rw [Token.unquoted, if_pos hq, htext, hl, List.tail_cons, List.dropLast_concat]
    have hholds : u.HoldsQuote ↔ q.char ∈ body := by
      rw [Token.HoldsQuote, hunquoted, htext, hl, and_iff_right hq]
      simp
    rw [hholds, hunquoted, htext, hl]
    refine ⟨fun hn => ?_, fun hin => ?_⟩
    · have hcut : q.char :: (body ++ [q.char]) ++ s = q.char :: (body ++ q.char :: s) := by simp
      rw [hcut]
      exact Head.identifier?_quote hsingle hn s
    -- the reader stops at the first of two quotes in a row
    · obtain ⟨as, bs, rfl, has⟩ := hb.exists_doubled he hin
      have hcut : q.char :: (as ++ q.char :: q.char :: bs ++ [q.char]) ++ s =
          q.char :: (as ++ q.char :: (q.char :: (bs ++ [q.char] ++ s))) := by simp
      rw [hcut]
      exact ⟨as, q, _, Head.identifier?_quote hsingle has _⟩

end Lexeme

end QueryGuard
