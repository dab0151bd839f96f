import QueryGuard.Proofs.Sql.FirstStatement
import QueryGuard.Proofs.Sql.HeadTokens
import QueryGuard.Proofs.Sql.Keyword

/-!
The column list of an `INSERT`, as the tokens show it and as the readers of heads find it. Main
statement: the exact condition under which the columns that the tokens show are read; where it
fails, none are.
-/

namespace QueryGuard

open Lexeme

variable {d : Dialect}

/-! ### The head of an `INSERT` as tokens -/

/-- Nothing but gaps stands in front of each of the tokens and behind the token before it, where
`cs` is the text from byte `pos` on, with blanks in the place of comments. -/
def Head.Spaced (cs : List Char) (pos : Nat) : List Token → Prop
  | [] => True
  | u :: us =>
    (∀ c ∈ Text.takeBytes (u.start - pos) cs, isGap c) ∧
      Spaced (Text.dropBytes (u.stop - pos) cs) u.stop us

instance Head.decidableSpaced : (cs : List Char) → (pos : Nat) → (us : List Token) →
    Decidable (Spaced cs pos us)
  | _, _, [] => inferInstanceAs (Decidable True)
  | cs, pos, u :: us =>
    @instDecidableAnd _ _ (List.decidableBAll _ _)
      (decidableSpaced (Text.dropBytes (u.stop - pos) cs) u.stop us)

lemma Head.spaced_cons {g cs : List Char} {pos : Nat} {u : Token} {us : List Token}
    (h : u.start = pos + Text.width g) : Spaced (g ++ (u.text ++ cs)) pos (u :: us) ↔
      (∀ c ∈ g, isGap c) ∧ Spaced cs u.stop us := by
  have hstart : u.start - pos = Text.width g := by omega
  have hstop : u.stop - pos = Text.width (g ++ u.text) := by
    rw [Token.stop, Text.width_append]
    omega
  rw [Spaced, hstart, hstop, Text.takeBytes_width_append, ← List.append_assoc,
    Text.dropBytes_width_append]

/-- Columns, each behind its comma. -/
def InsertTokens.listed : List (Token × Token) → List Token
  | [] => []
  | p :: ps => p.1 :: p.2 :: listed ps

/-- The tokens of `INSERT INTO`, a table and a list of columns: the first column, then each further
one with the comma in front of it. -/
structure InsertTokens where
  insert : Token
  into : Token
  table : Token
  opening : Token
  first : Token
  further : List (Token × Token)
  closing : Token
  insert_isWord : insert.isWord "insert"
  into_isWord : into.isWord "into"
  opening_kind : opening.kind = .openParen
  comma_kind : ∀ p ∈ further, p.1.kind = .comma
  closing_kind : closing.kind = .closeParen
  isName : ∀ u ∈ table :: first :: further.map (·.2), u.IsName

namespace InsertTokens

variable (i : InsertTokens)

/-- The columns. -/
def columns : List Token := i.first :: i.further.map (·.2)

/-- All tokens in order. -/
def tokens : List Token :=
  i.insert :: i.into :: i.table :: i.opening :: i.first :: (listed i.further ++ [i.closing])

end InsertTokens

namespace Lexeme

variable {ls : List Lexeme} {before : Option Char} {rest : List Char} {pos : Nat}

/-- **A name behind gaps is read** up to the first quote that stands in it; behind other white space
there is none. -/
theorem Reading.exists_name {u : Token} {us : List Token} (hn : u.IsName) (hus : us ≠ [])
    (h : Reading d rest before ls) (ht : tokens pos ls = u :: us) : ∃ ks : List Lexeme,
      (∃ b, Reading d rest b ks) ∧ tokens u.stop ks = us ∧
      (∀ us, Head.Spaced (maskOf ls) pos (u :: us) ↔
        Head.Spaced (maskOf ls) pos [u] ∧ Head.Spaced (maskOf ks) u.stop us) ∧
      ((Head.Spaced (maskOf ls) pos [u] ∧ ¬ u.HoldsQuote) ∧
          Head.identifier? (Head.skipGap (maskOf ls)) = some (u.unquoted, maskOf ks) ∨
        u.HoldsQuote ∧ (∃ (name : List Char) (q : Quote) (r : List Char),
          Head.identifier? (Head.skipGap (maskOf ls)) = some (name, q.char :: r)) ∨
        ¬ Head.Spaced (maskOf ls) pos [u] ∧
          Head.identifier? (Head.skipGap (maskOf ls)) = none) := by
  obtain ⟨g, l, ks, hmask, hb, hstart, hl, ⟨_, hread⟩, ⟨_, hks⟩, ht⟩ := h.exists_token ht
  have hone : Head.Spaced (maskOf ls) pos [u] ↔ ∀ c ∈ g, Head.isGap c := by
    rw [hmask, Head.spaced_cons hstart]
    exact and_iff_left trivial
  refine ⟨ks, ⟨_, hks⟩, ht, fun us => by rw [hone, hmask, Head.spaced_cons hstart], ?_⟩
  rw [hone, hmask]
  by_cases hg : ∀ c ∈ g, Head.isGap c
  · have hskip : Head.skipGap (g ++ (u.text ++ maskOf ks)) = u.text ++ maskOf ks := by
      rw [Head.skipGap_append hg]
      exact Head.skipGap_of_head? (hread.isGap_head?_append hl _)
    have hid := hread.identifier?_append hl hn (hks.textOf_append_ne_nil u.stop (ht ▸ hus))
      fun _ => hks.head?_maskOf
    rw [hskip]
    by_cases hq : u.HoldsQuote
    · exact .inr (.inl ⟨hq, hid.2 hq⟩)
    · exact .inl ⟨⟨hg, hq⟩, hid.1 hq⟩
  · exact .inr (.inr ⟨hg, (Head.stuck_skipGap hb hg _).identifier?_eq⟩)

/-- **The further columns are read** where the reader follows the tokens up to the parenthesis that
closes them; elsewhere it stops in front of something else. -/
theorem Reading.commaParts_maskOf {further : List (Token × Token)} {c : Token} {us : List Token}
    (hcomma : ∀ p ∈ further, p.1.kind = .comma) (hname : ∀ p ∈ further, p.2.IsName)
    (hc : c.kind = .closeParen) (h : Reading d rest before ls)
    (ht : tokens pos ls = InsertTokens.listed further ++ c :: us) :
    (Head.Spaced (maskOf ls) pos (InsertTokens.listed further ++ [c]) ∧
        (∀ p ∈ further, ¬ p.2.HoldsQuote) →
      ∃ r, Head.commaParts (maskOf ls) = (further.map (·.2.unquoted), r) ∧
        (Head.skipGap r).head? = some ')') ∧
    (¬ (Head.Spaced (maskOf ls) pos (InsertTokens.listed further ++ [c]) ∧
        ∀ p ∈ further, ¬ p.2.HoldsQuote) →
      (Head.skipGap (Head.commaParts (maskOf ls)).2).head? ≠ some ')') := by
  induction further generalizing ls pos before with
  | nil =>
    -- the reader stops in front of the parenthesis, or at white space that it does not skip
    obtain ⟨g, l, ks, hmask, hb, hstart, hl, ⟨_, hread⟩, -, -⟩ := h.exists_token ht
    rw [InsertTokens.listed, List.nil_append, hmask, Head.spaced_cons hstart,
      hread.text_of_mark? hl (by rw [hc]; rfl)]
    refine ⟨fun hall => ?_, fun hall => ?_⟩
    · have hskip := Head.skipGap_append_cons (s := maskOf ks) hall.1.1 (c := ')') (by decide)
      refine ⟨_, Head.commaParts_of_ne ?_, ?_⟩
      · rw [List.singleton_append, hskip]
        exact Text.forall_head? rfl (by decide)
      · rw [List.singleton_append, hskip]
        rfl
    · have hg : ¬ ∀ x ∈ g, Head.isGap x := fun hg => hall ⟨⟨hg, trivial⟩, nofun⟩
      exact (Head.stuck_skipGap hb hg _).head?_skipGap_commaParts
  | cons p further ih =>
    obtain ⟨hp, hcomma⟩ := List.forall_mem_cons.1 hcomma
    obtain ⟨hn, hname⟩ := List.forall_mem_cons.1 hname
    obtain ⟨g, l, ks, hmask, hb, hstart, hl, ⟨_, hread⟩, ⟨_, hks⟩, ht⟩ := h.exists_token ht
    obtain ⟨ks', ⟨_, hks'⟩, ht, hspaced, hread'⟩ := hks.exists_name hn (by simp) ht
    have ih := ih hcomma hname hks' ht
    rw [InsertTokens.listed, List.cons_append, List.cons_append, hmask, Head.spaced_cons hstart,
      hspaced, List.forall_mem_cons, hread.text_of_mark? hl (by rw [hp]; rfl),
      List.singleton_append]
    by_cases hg : ∀ x ∈ g, Head.isGap x
    · have hskip := Head.skipGap_append_cons (s := maskOf ks) hg (c := ',') (by decide)
      rcases hread' with ⟨⟨hs, hq⟩, hi⟩ | ⟨hq, name, q, r, hi⟩ | ⟨hs, hi⟩
      · -- the name is read, and the reader goes on behind it
        rw [Head.commaParts_of_comma hskip hi]
        refine ⟨fun hall => ?_, fun hall => ih.2 fun hrest => ?_⟩
        · obtain ⟨r, hr, hclose⟩ := ih.1 ⟨hall.1.2.2, hall.2.2⟩
          exact ⟨r, by rw [hr]; rfl, hclose⟩
        · exact hall ⟨⟨hg, hs, hrest.1⟩, hq, hrest.2⟩
      · -- the name is cut at its quote
        rw [Head.commaParts_of_comma hskip hi]
        exact ⟨fun hall => absurd hq hall.2.1, fun _ => Head.head?_skipGap_commaParts_quote q r⟩
      · -- the reader goes back in front of the comma
        refine ⟨fun hall => absurd hall.1.2.1 hs, fun _ => ?_⟩
        rw [Head.commaParts_of_none hskip hi, hskip]
        simp
    -- white space that the reader does not skip stands in front of the comma
    · refine ⟨fun hall => absurd hall.1.1 hg, fun _ => ?_⟩
      exact (Head.stuck_skipGap hb hg _).head?_skipGap_commaParts

/-- **A column list is read** where the reader follows its tokens; elsewhere there is none. -/
theorem Reading.columnList?_maskOf {first c : Token} {further : List (Token × Token)}
    {us : List Token} (hfirst : first.IsName) (hcomma : ∀ p ∈ further, p.1.kind = .comma)
    (hname : ∀ p ∈ further, p.2.IsName) (hc : c.kind = .closeParen) (h : Reading d rest before ls)
    (ht : tokens pos ls = first :: (InsertTokens.listed further ++ c :: us)) :
    (Head.Spaced (maskOf ls) pos (first :: (InsertTokens.listed further ++ [c])) ∧
        (¬ first.HoldsQuote ∧ ∀ p ∈ further, ¬ p.2.HoldsQuote) →
      Head.columnList? ('(' :: maskOf ls) =
        some ((first.unquoted :: further.map (·.2.unquoted)).map String.ofList)) ∧
    (¬ (Head.Spaced (maskOf ls) pos (first :: (InsertTokens.listed further ++ [c])) ∧
        (¬ first.HoldsQuote ∧ ∀ p ∈ further, ¬ p.2.HoldsQuote)) →
      Head.columnList? ('(' :: maskOf ls) = none) := by
  obtain ⟨ks, ⟨_, hks⟩, ht, hspaced, hread⟩ := h.exists_name hfirst (by simp) ht
  have hlist := hks.commaParts_maskOf hcomma hname hc ht
  rw [hspaced, Head.columnList?_cons]
  rcases hread with ⟨⟨hs, hq⟩, hi⟩ | ⟨hq, name, q, r, hi⟩ | ⟨hs, hi⟩
  · rw [hi, Option.bind_some]
    refine ⟨fun hall => ?_, fun hall => if_neg (hlist.2 fun hrest => ?_)⟩
    · obtain ⟨r, hr, hclose⟩ := hlist.1 ⟨hall.1.2, hall.2.2⟩
      rw [hr, if_pos hclose]
    · exact hall ⟨⟨hs, hrest.1⟩, hq, hrest.2⟩
  · rw [hi, Option.bind_some, if_neg (Head.head?_skipGap_commaParts_quote q r)]
    exact ⟨fun hall => absurd hq hall.2.1, fun _ => rfl⟩
  · rw [hi, Option.bind_none]
    exact ⟨fun hall => absurd hall.1.1 hs, fun _ => rfl⟩

/-- Two words do not stand side by side. -/
lemma Reads.ne_nil_of_word {l l' : Lexeme} {g : List Char} {u : Token} {ks ks' : List Lexeme}
    {b b' : Option Char} (h : l.Reads d before (textOf ks ++ rest)) (hl : l.token? = some .word)
    (hks : Reading d rest b ks) (hmask : maskOf ks = g ++ (u.text ++ maskOf ks'))
    (h' : l'.Reads d b' (textOf ks' ++ rest)) (hu : l'.tokenAt pos = some u)
    (hk : u.kind = .word) : g ≠ [] := by
  rintro rfl
  obtain ⟨-, -, -, hnext⟩ := h.word_cases hl
  obtain ⟨-, htext, hkind⟩ := start_of_tokenAt hu
  obtain ⟨e, es, he⟩ := List.exists_cons_of_ne_nil h'.text_ne_nil
  have hw := h'.continuesWord_of_mem (hk ▸ hkind) (he ▸ List.mem_cons_self)
  have hhead : (maskOf ks).head? = some e := by
    rw [hmask, htext, he]
    rfl
  rcases hks.head?_maskOf hhead with rfl | hc
  · exact absurd hw (by decide)
  · rw [hnext e hc] at hw
    cases hw

end Lexeme

/-! ### The whole head -/

namespace Head

/-- The columns behind a table are those of the list behind it where nothing but gaps stands in
front of the table and of the list and the name of the table goes on to the list. -/
lemma columnsOfTable_eq {g₂ g₃ table name cs : List Char} {holds : Prop}
    (hb₂ : ∀ c ∈ g₂, Text.isBlank c) (hb₃ : ∀ c ∈ g₃, Text.isBlank c)
    (ht : ∀ c ∈ (table ++ (g₃ ++ '(' :: cs)).head?, isGap c = false)
    (hn : ¬ holds → identifier? (table ++ (g₃ ++ '(' :: cs)) = some (name, g₃ ++ '(' :: cs))
    (hq : holds → ∃ (name : List Char) (q : Quote) (r : List Char),
      identifier? (table ++ (g₃ ++ '(' :: cs)) = some (name, q.char :: r)) :
    (((g₂ ≠ [] ∧ ∀ c ∈ g₂, isGap c) ∧ (∀ c ∈ g₃, isGap c) ∧ ¬ holds) →
      columnsOfTable (g₂ ++ (table ++ (g₃ ++ '(' :: cs))) = columnList? ('(' :: cs)) ∧
    (¬ ((g₂ ≠ [] ∧ ∀ c ∈ g₂, isGap c) ∧ (∀ c ∈ g₃, isGap c) ∧ ¬ holds) →
      columnsOfTable (g₂ ++ (table ++ (g₃ ++ '(' :: cs))) = none) := by
  have hnil : ∀ cs : List Char, cs.head? ≠ some '(' → columnList? cs = none := by
    intro cs hcs
    rw [columnList?, guard, if_neg hcs]
    rfl
  by_cases hg₂ : g₂ ≠ [] ∧ ∀ c ∈ g₂, isGap c
  · have hgap := gap?_append hg₂.1 hg₂.2 ht
    by_cases hh : holds
    -- the name is cut at its quote, and no list begins there
    · obtain ⟨name, q, r, hi⟩ := hq hh
      have hne : isGap q.char = false ∧ some q.char ≠ some '.' ∧ some q.char ≠ some '(' := by
        cases q <;> decide
      have hstop : (q.char :: r).head? ≠ some '.' ∧ (skipGap (q.char :: r)).head? ≠ some '(' := by
        rw [skipGap_of_head? (Text.forall_head? rfl hne.1)]
        exact hne.2
      obtain ⟨table, htable⟩ := tableName?_of_identifier hi hstop.1
      refine ⟨fun h => absurd hh h.2.2, fun _ => ?_⟩
      rw [columnsOfTable, hgap, Option.bind_some, htable, Option.bind_some, hnil _ hstop.2]
    -- the name is read to its end, which is no point
    · have hdot : (g₃ ++ '(' :: cs).head? ≠ some '.' := by
        cases g₃ with
        | nil => simp
        | cons c g =>
          rintro e
          have hb := hb₃ c List.mem_cons_self
          rw [Option.some.inj e] at hb
          exact absurd hb (by decide)
      obtain ⟨table, htable⟩ := tableName?_of_identifier (hn hh) hdot
      rw [columnsOfTable, hgap, Option.bind_some, htable, Option.bind_some]
      by_cases hg₃ : ∀ c ∈ g₃, isGap c
      · rw [skipGap_append_cons hg₃ (by decide)]
        exact ⟨fun _ => rfl, fun h => absurd ⟨hg₂, hg₃, hh⟩ h⟩
      · have hstuck := stuck_skipGap hb₃ hg₃ ('(' :: cs)
        exact ⟨fun h => absurd h.2.1 hg₃, fun _ => hnil _ (hstuck.head?_ne (by decide))⟩
  · refine ⟨fun h => absurd h.1 hg₂, fun _ => ?_⟩
    -- the reader is stuck in front of the table
    rcases gap?_cases hb₂ ht hg₂ with hgap | ⟨rest, hgap, hstuck⟩
    · rw [columnsOfTable, hgap, Option.bind_none]
    · have htable : tableName? rest = none := by
        simp only [tableName?, hstuck.identifier?_eq, Option.bind_eq_bind, Option.bind_none]
      rw [columnsOfTable, hgap, Option.bind_some, htable, Option.bind_none]

end Head

/-- The word in the spelling of the token. -/
def Spelling.ofToken {w : String} {u : Token} (h : u.isWord w)
    (hw : Text.lower w.toList = w.toList) : Spelling w where
  text := u.text
  lower_eq := (Token.isWord_iff.1 h).2.trans hw

namespace InsertTokens

variable (i : InsertTokens)

/-- The tokens from the table on. -/
def tokensFromTable : List Token :=
  i.table :: i.opening :: i.first :: (listed i.further ++ [i.closing])

/-- **The columns behind a table are read** where the readers follow the tokens; elsewhere there are
none. -/
theorem columnsOfTable_maskOf {ls : List Lexeme} {rest : List Char} {before : Option Char}
    {pos : Nat} {us : List Token} (h : Reading d rest before ls)
    (ht : Lexeme.tokens pos ls = i.tokensFromTable ++ us) :
    (Head.Spaced (maskOf ls) pos i.tokensFromTable ∧ pos ≠ i.table.start ∧
        (∀ u ∈ i.table :: i.columns, ¬ u.HoldsQuote) →
      Head.columnsOfTable (maskOf ls) =
        some (i.columns.map fun u => String.ofList u.unquoted)) ∧
    (¬ (Head.Spaced (maskOf ls) pos i.tokensFromTable ∧ pos ≠ i.table.start ∧
        ∀ u ∈ i.table :: i.columns, ¬ u.HoldsQuote) →
      Head.columnsOfTable (maskOf ls) = none) := by
  obtain ⟨htable, hfirst, hname⟩ :
      i.table.IsName ∧ i.first.IsName ∧ ∀ p ∈ i.further, p.2.IsName := by
    have h := i.isName
    rwa [List.forall_mem_cons, List.forall_mem_cons, List.forall_mem_map] at h
  rw [tokensFromTable, List.cons_append, List.cons_append, List.cons_append, List.append_assoc,
    List.singleton_append] at ht
  obtain ⟨g, l, ks, hmask, hb, hstart, hl, ⟨_, hread⟩, ⟨_, hks⟩, ht⟩ := h.exists_token ht
  obtain ⟨g', l', ks', hmask', hb', hstart', hl', ⟨_, hread'⟩, ⟨_, hks'⟩, ht'⟩ :=
    hks.exists_token ht
  have hopen : maskOf ks = g' ++ '(' :: maskOf ks' := by
    rw [hmask', hread'.text_of_mark? hl' (by rw [i.opening_kind]; rfl)]
    rfl
  have hlist := hks'.columnList?_maskOf hfirst i.comma_kind hname i.closing_kind ht'
  have hid := hread.identifier?_append hl htable
    (hks.textOf_append_ne_nil i.table.stop (by rw [ht]; simp)) fun _ => hks.head?_maskOf
  have htab := hread.isGap_head?_append hl (maskOf ks)
  rw [hopen] at hid htab
  have hcols := Head.columnsOfTable_eq hb hb' htab hid.1 hid.2
  have hapart : pos ≠ i.table.start ↔ g ≠ [] := by
    rw [hstart]
    refine ⟨?_, fun hne => by have := Text.width_pos hne; omega⟩
    rintro hne rfl
    exact hne rfl
  have hspaced : Head.Spaced (maskOf ls) pos i.tokensFromTable ↔ (∀ c ∈ g, Head.isGap c) ∧
      (∀ c ∈ g', Head.isGap c) ∧ Head.Spaced (maskOf ks') i.opening.stop
        (i.first :: (listed i.further ++ [i.closing])) := by
    rw [tokensFromTable, hmask, Head.spaced_cons hstart, hmask', Head.spaced_cons hstart']
  have hplain : (∀ u ∈ i.table :: i.columns, ¬ u.HoldsQuote) ↔ ¬ i.table.HoldsQuote ∧
      ¬ i.first.HoldsQuote ∧ ∀ p ∈ i.further, ¬ p.2.HoldsQuote := by
    rw [columns, List.forall_mem_cons, List.forall_mem_cons, List.forall_mem_map]
  rw [hspaced, hapart, hplain, hmask, hopen]
  refine ⟨fun ⟨⟨hg, hg', hs⟩, hne, hq, hqs⟩ => ?_, fun hall => ?_⟩
  · rw [hcols.1 ⟨⟨hne, hg⟩, hg', hq⟩, hlist.1 ⟨hs, hqs⟩, columns, List.map_cons, List.map_cons,
      List.map_map, List.map_map]
    rfl
  -- something stands in the way in front of the list, or the list itself is not read
  · by_cases hall' : (g ≠ [] ∧ ∀ c ∈ g, Head.isGap c) ∧ (∀ c ∈ g', Head.isGap c) ∧
        ¬ i.table.HoldsQuote
    · obtain ⟨⟨hne, hg⟩, hg', hq⟩ := hall'
      rw [hcols.1 ⟨⟨hne, hg⟩, hg', hq⟩]
      exact hlist.2 fun ⟨hs, hqs⟩ => hall ⟨⟨hg, hg', hs⟩, hne, hq, hqs⟩
    · exact hcols.2 hall'

/-- **The head of an `INSERT` is read** where the readers follow its tokens; elsewhere it has no
columns. -/
theorem insert?_maskOf {ls : List Lexeme} {rest : List Char} {us : List Token}
    (h : Reading d rest none ls) (ht : Lexeme.tokens 0 ls = i.tokens ++ us) :
    (Head.Spaced (maskOf ls) 0 i.tokens ∧ i.into.stop ≠ i.table.start ∧
        (∀ u ∈ i.table :: i.columns, ¬ u.HoldsQuote) →
      (Head.insert? (maskOf ls)).bind (·.2) =
        some (i.columns.map fun u => String.ofList u.unquoted)) ∧
    (¬ (Head.Spaced (maskOf ls) 0 i.tokens ∧ i.into.stop ≠ i.table.start ∧
        ∀ u ∈ i.table :: i.columns, ¬ u.HoldsQuote) →
      (Head.insert? (maskOf ls)).bind (·.2) = none) := by
  have hcut : i.tokens = i.insert :: i.into :: i.tokensFromTable := rfl
  rw [hcut, List.cons_append, List.cons_append] at ht
  obtain ⟨g, l, ks, hmask, hb, hstart, hl, ⟨_, hread⟩, ⟨_, hks⟩, ht⟩ := h.exists_token ht
  obtain ⟨g', l', ks', hmask', hb', hstart', hl', ⟨_, hread'⟩, ⟨_, hks'⟩, ht⟩ :=
    hks.exists_token ht
  have hcols := i.columnsOfTable_maskOf hks' ht
  obtain ⟨-, -, hinsert⟩ := start_of_tokenAt hl
  obtain ⟨-, -, hinto⟩ := start_of_tokenAt hl'
  rw [(Token.isWord_iff.1 i.insert_isWord).1] at hinsert
  rw [(Token.isWord_iff.1 i.into_isWord).1] at hinto
  have hne : g' ≠ [] :=
    hread.ne_nil_of_word hinsert hks hmask' hread' hl' (Token.isWord_iff.1 i.into_isWord).1
  have hnext : ∀ c ∈ (maskOf ks').head?, Token.continuesWord c = false := by
    intro c hc
    rcases hks'.head?_maskOf hc with rfl | hc
    · decide
    · exact (hread'.word_cases hinto).2.2.2 c hc
  rw [hcut, hmask, Head.spaced_cons hstart, hmask', Head.spaced_cons hstart']
  by_cases hg : ∀ c ∈ g, Head.isGap c
  · by_cases hg' : ∀ c ∈ g', Head.isGap c
    -- `INSERT INTO` is read, and what is left is the text behind it
    · have hhead : (Head.insert? (g ++ (i.insert.text ++ (g' ++ (i.into.text ++
          maskOf ks'))))).bind (·.2) = Head.columnsOfTable (maskOf ks') :=
        Head.insert?_append_into (.ofToken i.insert_isWord (by decide))
          (.ofToken i.into_isWord (by decide)) hg hg' hne hnext
      rw [hhead]
      exact ⟨fun ⟨⟨_, _, hs⟩, hrest⟩ => hcols.1 ⟨hs, hrest⟩,
        fun hall => hcols.2 fun ⟨hs, hrest⟩ => hall ⟨⟨hg, hg', hs⟩, hrest⟩⟩
    -- the reader is stuck in front of `INTO`
    · have hhead : Head.insert? (g ++ (i.insert.text ++ (g' ++ (i.into.text ++ maskOf ks')))) =
          none :=
        Head.insert?_eq_none_of_stuck_into (.ofToken i.insert_isWord (by decide)) hg hb' hg'
          (hread'.isGap_head?_append hl' _)
      rw [hhead]
      exact ⟨fun hall => absurd hall.1.2.1 hg', fun _ => rfl⟩
  · rw [Head.insert?_eq_none_of_stuck (Head.stuck_skipGap hb hg _)]
    exact ⟨fun hall => absurd hall.1.1 hg, fun _ => rfl⟩

end InsertTokens

/-! ### The columns of a statement -/

namespace InsertTokens

variable {t : SqlText} (i : InsertTokens)

/-- The readers of heads follow the tokens: nothing but gaps stands between them, the table does not
begin right behind its keyword, and no name holds a quote of its own. -/
structure IsRead (t : SqlText) : Prop where
  spaced : Head.Spaced t.statementHead 0 i.tokens
  apart : i.into.stop ≠ i.table.start
  plain : ∀ u ∈ i.table :: i.columns, ¬ u.HoldsQuote

/-- Behind gaps the statement is an `INSERT`. -/
lemma kind_eq (h : i.tokens <+: t.statementTokens.map (·.token))
    (hs : Head.Spaced t.statementHead 0 i.tokens) : t.statement.kind = .insert := by
  obtain ⟨us, hus⟩ := h
  have hfirst : t.firstToken? = some i.insert := by
    rw [SqlText.firstToken?, ← List.head?_map, ← hus]
    rfl
  have hgaps : t.BehindGaps i.insert := by
    obtain ⟨as, cs, hst⟩ := t.exists_firstStatement
    have hmem : i.insert ∈ Lexeme.tokens 0 as := by
      rw [← hst.map_token, ← hus]
      exact List.mem_cons_self
    have hstop := Lexeme.stop_of_mem_tokens (fun l hl =>
      hst.readAs.ne_nil l (List.mem_append_left _ hl)) hmem
    have hle : i.insert.start ≤ Text.width (maskOf as) := by
      rw [width_maskOf]
      omega
    have hs := hs.1
    rw [hst.head, Nat.sub_zero] at hs
    rwa [SqlText.BehindGaps, hst.readAs.masked, maskOf_append, Text.takeBytes_append_of_le hle]
  have hkind : Statement.Kind.ofToken i.insert = .insert := by
    rw [Statement.Kind.ofToken, Token.isWord_eq_false i.insert_isWord (by decide), i.insert_isWord]
    rfl
  rw [SqlText.kind_of_isWord hfirst hgaps i.insert_isWord (by decide), hkind]

/-- **The columns that the tokens show are read** exactly where nothing but spaces, tabs, line ends
and comments stands between the tokens, something stands between `INTO` and the table, and no quoted
name holds its quote; elsewhere the statement has no columns. -/
theorem statement_columns (h : i.tokens <+: t.statementTokens.map (·.token)) :
    (i.IsRead t → t.statement.columns = some (i.columns.map fun u => String.ofList u.unquoted)) ∧
      (¬ i.IsRead t → t.statement.columns = none) := by
  obtain ⟨as, cs, hst⟩ := t.exists_firstStatement
  obtain ⟨us, hus⟩ := h
  rw [hst.map_token] at hus
  have hread := (reading_append.1 hst.readAs.reading).1
  have hcols := i.insert?_maskOf hread hus.symm
  rw [← hst.head] at hcols
  rw [SqlText.columns_statement]
  refine ⟨fun hr => ?_, fun hr => ?_⟩
  · rw [if_pos (i.kind_eq ⟨us, hst.map_token ▸ hus⟩ hr.spaced), hcols.1 ⟨hr.1, hr.2, hr.3⟩]
  · split
    · exact hcols.2 fun ⟨h1, h2, h3⟩ => hr ⟨h1, h2, h3⟩
    · rfl

/-- The head of an insert with a comment behind a column, and a column between backquotes. -/
def commented : InsertTokens where
  insert := ⟨.word, 0, "insert".toList⟩
  into := ⟨.word, 7, "into".toList⟩
  table := ⟨.word, 12, "t".toList⟩
  opening := ⟨.openParen, 13, "(".toList⟩
  first := ⟨.word, 14, "a".toList⟩
  further := [(⟨.comma, 22, ",".toList⟩, ⟨.identifier, 24, "\x60b c\x60".toList⟩)]
  closing := ⟨.closeParen, 30, ")".toList⟩
  insert_isWord := by decide +kernel
  into_isWord := by decide +kernel
  opening_kind := rfl
  comma_kind := by decide +kernel
  closing_kind := rfl
  isName := by decide +kernel

/-- A comment between the tokens is a gap. -/
theorem statement_columns_comment :
    (SqlText.ofString .mysql "insert into t(a/* x */, \x60b c\x60 ) values (?)").statement.columns =
      some ["a", "b c"] := by
  have h := commented.statement_columns
    (t := .ofString .mysql "insert into t(a/* x */, \x60b c\x60 ) values (?)") (by decide +kernel)
  exact h.1 ⟨by decide +kernel, by decide, by decide +kernel⟩

/-- The head of an insert with a column that holds its quote. -/
def doubled : InsertTokens where
  insert := ⟨.word, 0, "INSERT".toList⟩
  into := ⟨.word, 7, "INTO".toList⟩
  table := ⟨.word, 12, "t".toList⟩
  opening := ⟨.openParen, 14, "(".toList⟩
  first := ⟨.identifier, 15, "\"a\"\"b\"".toList⟩
  further := [(⟨.comma, 21, ",".toList⟩, ⟨.word, 23, "c".toList⟩)]
  closing := ⟨.closeParen, 24, ")".toList⟩
  insert_isWord := by decide +kernel
  into_isWord := by decide +kernel
  opening_kind := rfl
  comma_kind := by decide +kernel
  closing_kind := rfl
  isName := by decide +kernel

/-- The columns that the tokens show are not always read: a name that holds its quote is one token,
and the list is lost. -/
theorem not_statement_columns_doubled : ¬ ∀ (t : SqlText) (i : InsertTokens),
    i.tokens <+: t.statementTokens.map (·.token) →
      ∃ names, t.statement.columns = some names ∧ names.length = i.columns.length := by
  intro h
  obtain ⟨names, hnames, -⟩ :=
    h (.ofString .standard "INSERT INTO t (\"a\"\"b\", c) VALUES (1)") doubled (by decide +kernel)
  have hnone : (SqlText.ofString .standard
      "INSERT INTO t (\"a\"\"b\", c) VALUES (1)").statement.columns = none := by decide +kernel
  rw [hnone] at hnames
  cases hnames

end InsertTokens

end QueryGuard
