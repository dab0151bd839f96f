import QueryGuard.Proofs.Sql.Bytes
import QueryGuard.Proofs.Sql.Ranges

/-!
The first statement of a text. It is read from the lexemes in front of its semicolon, and whatever
place is found in it lies in their text. Main statement: what follows the semicolon has no part in
the statement, nor in what is found in it.
-/

namespace QueryGuard

namespace SqlText

variable {t t' : SqlText} {as bs cs : List Lexeme}

/-! ### The text apart behind the first statement -/

/-- The lexemes of the text fall apart behind its first statement. -/
structure FirstStatement (t : SqlText) (as cs : List Lexeme) : Prop where
  readAs : t.ReadAs (as ++ cs)
  tokens : t.statementTokens = DeepToken.ofTokens 0 (Lexeme.tokens 0 as)
  stop : t.statementStop = Text.width (Lexeme.textOf as)
  /-- Behind the statement stands nothing, or its semicolon outside parentheses. -/
  ends : cs = [] ∨ ∃ bs, cs = Lexeme.single ';' :: bs ∧
    DeepToken.depthAfter 0 (Lexeme.tokens 0 as) = 0

/-- **The lexemes of every text fall apart behind its first statement.** -/
theorem exists_firstStatement (t : SqlText) : ∃ as cs, t.FirstStatement as cs := by
  obtain ⟨ls, h⟩ := t.exists_readAs
  obtain ⟨us, hus, hcases⟩ := t.tokens_eq_append
  rw [h.tokens] at hus
  rcases hcases with ⟨rfl, hstop⟩ | ⟨u, us', rfl, hu, hstop, hdepth⟩
  · rw [List.append_nil] at hus
    refine ⟨ls, [], by rwa [List.append_nil], ?_, ?_, .inl rfl⟩
    · rw [hus, ofTokens_statementTokens]
    · rw [hstop, width, h.chars]
  · obtain ⟨as, l, bs, rfl, has, hl, -⟩ := Lexeme.exists_split hus
    obtain ⟨hstart, -, hkind⟩ := Lexeme.start_of_tokenAt hl
    obtain rfl : l = Lexeme.single ';' :=
      (Lexeme.reading_append.1 h.reading).2.1.eq_single hkind (by rw [hu]; rfl)
    refine ⟨as, _, h, ?_, ?_, .inr ⟨bs, rfl, by rwa [has]⟩⟩
    · rw [has, ofTokens_statementTokens]
    · rw [hstop, hstart, Nat.zero_add]

namespace FirstStatement

lemma map_token (h : t.FirstStatement as cs) :
    t.statementTokens.map (·.token) = Lexeme.tokens 0 as := by
  rw [h.tokens, DeepToken.map_token_ofTokens]

lemma head (h : t.FirstStatement as cs) : t.statementHead = Lexeme.maskOf as := by
  rw [statementHead, h.stop, h.readAs.takeBytes_masked]

lemma chars (h : t.FirstStatement as cs) : t.chars = Lexeme.textOf as ++ Lexeme.textOf cs := by
  rw [h.readAs.chars, Lexeme.textOf_append]

lemma parenLists (h : t.FirstStatement as cs) :
    t.parenLists = ParenList.ofTokens (Lexeme.tokens 0 as) := by
  rw [SqlText.parenLists, h.map_token]

/-! ### Ranges in the first statement -/

lemma fits_of_mem_parenLists (h : t.FirstStatement as cs) {l : ParenList} (hl : l ∈ t.parenLists) :
    l.span.Fits (Lexeme.textOf as) := by
  rw [h.parenLists] at hl
  exact Lexeme.fits_of_spans (ParenList.spans_of_mem_ofTokens hl).1

lemma fits_of_mem_hardcoded (h : t.FirstStatement as cs) {l : ParenList} (hl : l ∈ t.parenLists)
    {span : Span} (hs : span ∈ l.hardcoded) : span.Fits (Lexeme.textOf as) := by
  rw [h.parenLists] at hl
  obtain ⟨i, hi, hspan, -⟩ := ParenList.exists_item_of_mem_hardcoded hl hs
  exact Lexeme.fits_of_stands hi hspan

/-! ### Texts with the same first statement -/

lemma statement_eq (h : t.FirstStatement as cs) (h' : t'.FirstStatement as bs) :
    t'.statement = t.statement := by
  have htokens : t'.statementTokens = t.statementTokens := by rw [h.tokens, h'.tokens]
  have hstop : t'.statementStop = t.statementStop := by rw [h.stop, h'.stop]
  have hhead : t'.statementHead = t.statementHead := by rw [h.head, h'.head]
  have hlists : t'.parenLists = t.parenLists := by rw [h.parenLists, h'.parenLists]
  simp only [statement, htokens, hstop, hhead, hlists]

lemma review_eq (h : t.FirstStatement as cs) (h' : t'.FirstStatement as bs) :
    t'.review = t.review := by
  have hlists : t'.listsByOpening = t.listsByOpening := by
    rw [listsByOpening, h'.parenLists, listsByOpening, h.parenLists]
  have hfinding : ∀ span ∈ t.listsByOpening.flatMap ParenList.hardcoded,
      t'.literalFinding span = t.literalFinding span := by
    intro span hspan
    obtain ⟨l, hl, hs⟩ := List.mem_flatMap.1 hspan
    have hfits := h.fits_of_mem_hardcoded ((List.mergeSort_perm _ _).mem_iff.1 hl) hs
    have hslice : t'.slice span.start span.stop = t.slice span.start span.stop := by
      rw [slice, h'.chars, hfits.slice_append, slice, h.chars, hfits.slice_append]
    rw [literalFinding, hslice, literalFinding]
  rw [review, review, h.statement_eq h', hlists, List.map_congr_left hfinding]

/-- Lexemes in front of a semicolon that ends their statement are the first statement. -/
lemma of_semicolon (h : t.FirstStatement as cs)
    (hdepth : DeepToken.depthAfter 0 (Lexeme.tokens 0 as) = 0)
    (h' : t'.ReadAs (as ++ Lexeme.single ';' :: bs)) :
    t'.FirstStatement as (Lexeme.single ';' :: bs) := by
  have hends : ∀ u ∈ DeepToken.ofTokens 0 (Lexeme.tokens 0 as), !u.endsStatement := by
    intro u hu
    rw [← h.map_token] at hu
    rw [endsStatement_eq_false (List.prefix_refl _) u hu]
    rfl
  obtain ⟨us, hus⟩ : ∃ us, DeepToken.ofTokens 0 t'.tokens =
      DeepToken.ofTokens 0 (Lexeme.tokens 0 as) ++
        ⟨⟨.semicolon, Text.width (Lexeme.textOf as), [';']⟩, 0⟩ :: us := by
    rw [h'.tokens, Lexeme.tokens_append, DeepToken.ofTokens_append, hdepth, Nat.zero_add]
    exact ⟨_, rfl⟩
  refine ⟨h', ?_, ?_, .inr ⟨bs, rfl, hdepth⟩⟩
  · rw [statementTokens, Statement.tokens, hus, List.takeWhile_append_of_pos hends]
    exact List.append_nil _
  · rw [statementStop, Statement.semicolon?, hus, List.dropWhile_append_of_pos hends]
    rfl

/-- **What follows the semicolon may change**, and the first statement stays. -/
theorem exists_of_chars (h : t.FirstStatement as (Lexeme.single ';' :: bs))
    (hd : t'.dialect = t.dialect) {rest : List Char}
    (hc : t'.chars = Lexeme.textOf as ++ ';' :: rest) :
    ∃ cs, t'.FirstStatement as (Lexeme.single ';' :: cs) := by
  rcases h.ends with hnil | ⟨_, -, hdepth⟩
  · cases hnil
  have has := (Lexeme.reading_append.1 h.readAs.reading).1
  rw [List.append_nil] at has
  have has' : Lexeme.Reading t.dialect (';' :: rest) none as :=
    has.of_noLonger (Token.noLonger_of_mark (by decide) (by decide) (by decide) _)
      (has.ends_getLast? (by decide))
  obtain ⟨ls, hls, hrest⟩ := Lexeme.exists_reading t.dialect (some ';') rest
  refine ⟨ls, h.of_semicolon hdepth ⟨?_, ?_⟩⟩
  · rw [hc, Lexeme.textOf_append, Lexeme.textOf_cons, hls]
    rfl
  · rw [hd]
    refine Lexeme.reading_append.2 ⟨?_, ?_, hrest⟩
    · rw [List.append_nil, Lexeme.textOf_cons, hls]
      exact has'
    · exact Lexeme.reads_single (by decide) (by decide) (by decide) (by decide) _ _

end FirstStatement

/-- **Only the first statement counts**: where a text goes on behind it, it goes on with a semicolon
outside parentheses, and every text that begins with the same bytes up to there has the same first
statement, with the same findings. -/
theorem firstStatement_eq_of_bytes (hd : t'.dialect = t.dialect) (hstop : t.statement.stop < t.width)
    (hpre : (Text.bytes t.chars).take (t.statement.stop + 1) <+: Text.bytes t'.chars) :
    (∃ u ∈ DeepToken.ofTokens 0 t.tokens,
      u.endsStatement ∧ u.token = ⟨.semicolon, t.statement.stop, [';']⟩) ∧
    t'.statement = t.statement ∧ t'.review = t.review := by
  obtain ⟨as, cs, h⟩ := t.exists_firstStatement
  rw [stop_statement, h.stop] at hstop hpre ⊢
  rcases h.ends with rfl | ⟨bs, rfl, hdepth⟩
  · -- nothing follows the statement
    rw [width, h.chars, Lexeme.textOf_nil, List.append_nil] at hstop
    exact absurd hstop (Nat.lt_irrefl _)
  · have hmark : Text.bytes (Lexeme.textOf (Lexeme.single ';' :: bs)) =
        Text.byte ';' :: Text.bytes (Lexeme.textOf bs) := Text.bytes_cons_of_lt (by decide) _
    obtain ⟨ys, hys⟩ := hpre
    rw [h.chars, Text.bytes_append, hmark, ← Text.length_bytes, List.take_length_add_append,
      List.append_assoc] at hys
    obtain ⟨front, rest, hc, hfront, -⟩ := Text.exists_of_bytes_eq (by decide) hys.symm
    obtain rfl := Text.bytes_injective hfront
    obtain ⟨_, h'⟩ := h.exists_of_chars hd hc
    refine ⟨⟨⟨⟨.semicolon, Text.width (Lexeme.textOf as), [';']⟩, 0⟩, ?_, rfl, rfl⟩,
      h.statement_eq h', h.review_eq h'⟩
    rw [h.readAs.tokens, Lexeme.tokens_append, DeepToken.ofTokens_append, hdepth, Nat.zero_add]
    exact List.mem_append_right _ List.mem_cons_self

/-- A literal and a list that are opened behind the semicolon change nothing. -/
theorem firstStatement_eq_of_bytes_insert :
    (ofString .mysql "INSERT INTO t VALUES (?, 'a;'); x").statement.stop = 30 ∧
    (ofString .mysql "INSERT INTO t VALUES (?, 'a;');'(").statement =
      (ofString .mysql "INSERT INTO t VALUES (?, 'a;'); x").statement ∧
    (ofString .mysql "INSERT INTO t VALUES (?, 'a;');'(").review =
      (ofString .mysql "INSERT INTO t VALUES (?, 'a;'); x").review :=
  ⟨by decide +kernel,
    And.right (firstStatement_eq_of_bytes (by rfl) (by decide +kernel) (by decide +kernel))⟩

end SqlText

end QueryGuard
