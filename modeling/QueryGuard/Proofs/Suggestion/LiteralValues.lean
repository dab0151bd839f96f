import QueryGuard.Proofs.Binding.BoundKeys
import QueryGuard.Proofs.Sql.StringLiteral
import QueryGuard.Proofs.Suggestion.LiteralRepair

/-!
# The values that are bound for literals

Two templates take literals out of a text and bind their values:

* `Analysis.bindAmongLiterals?`: the bind of a literal where all literals of a statement are bound;
* `Analysis.bindAmongHolders?`: the bind of a literal that is bound beside placeholders.

Both read the value off the literal as it is written, without regard to the dialect. A string with
its quotes and, in the dialect that asks for it, its backslashes doubled is bound as itself only
where no backslash is in it. An integer is bound as itself only where nothing stands between its
sign and its digits: a blank or a comment there makes a string of it.

Main statement: `Query.bind_literal_iff`.
-/

namespace QueryGuard

variable {d : Dialect}

/-! ### Integers as items of a list -/

/-- Digits as an item of a list, with a sign in front of them or without. -/
structure IntegerItem where
  sign? : Option Token
  digits : Token
  isSign : ∀ s ∈ sign?, ListItem.isSign s
  isNumber : digits.kind = .number
  ne_nil : digits.text ≠ []
  isDigit : ∀ c ∈ digits.text, c.isDigit

namespace IntegerItem

variable (n : IntegerItem)

/-- The item of the list. -/
def item : ListItem := ⟨n.sign?.toList ++ [n.digits], false⟩

/-- The sign as it is written. -/
def sign : List Char := (n.sign?.map (·.text)).getD []

/-- The integer. -/
def value : Int := Literal.signed n.sign n.digits.text

/-- The bytes from the sign to the last digit. -/
def span : Span := ⟨(n.sign?.getD n.digits).start, n.digits.stop⟩

/-- Nothing stands between the sign and the digits. -/
def Joined : Prop := ∀ s ∈ n.sign?, s.stop = n.digits.start

instance : Decidable n.Joined := inferInstanceAs (Decidable (∀ s ∈ n.sign?, _))

variable {n}

lemma text_of_mem_sign? {s : Token} (h : s ∈ n.sign?) :
    s.kind = .symbol ∧ (s.text = ['-'] ∨ s.text = ['+']) := by
  simpa [ListItem.isSign] using n.isSign s h

lemma isSign_sign : Literal.IsSign n.sign := by
  unfold sign
  cases h : n.sign? with
  | none => exact .inl rfl
  | some s =>
    rcases (text_of_mem_sign? h).2 with e | e
    · exact .inr (.inr e)
    · exact .inr (.inl e)

lemma entry_item : n.item.entry = .literal := by
  have hk := n.isNumber
  unfold item ListItem.entry
  cases h : n.sign? with
  | none => simp [hk]
  | some s => simp [hk, n.isSign s h]

lemma span?_item : n.item.span? = some n.span := by
  unfold item ListItem.span? span
  cases n.sign? <;> rfl

end IntegerItem

namespace SqlText

variable {t : SqlText}

/-- The item is one of a list of the first statement that holds a placeholder, too. -/
def HoldsBeside (t : SqlText) (i : ListItem) : Prop :=
  ∃ l ∈ t.parenLists, Entry.placeholder ∈ l.entries ∧ i ∈ l.items

instance (t : SqlText) (i : ListItem) : Decidable (t.HoldsBeside i) :=
  inferInstanceAs (Decidable (∃ l ∈ t.parenLists, _ ∧ _))

/-- A literal beside placeholders is found. -/
lemma HoldsBeside.literalFinding_mem {i : ListItem} (h : t.HoldsBeside i)
    (hi : i.entry = .literal) {span : Span} (hs : i.span? = some span) :
    t.literalFinding span ∈ t.review := by
  obtain ⟨l, hl, hp, hmem⟩ := h
  have hspan : span ∈ l.hardcoded := by
    rw [ParenList.hardcoded, if_pos (List.contains_iff_mem.2 hp)]
    exact List.mem_filterMap.2 ⟨i, hmem, by rw [if_pos hi, hs]⟩
  have hlists : l ∈ t.listsByOpening := (List.mergeSort_perm _ _).mem_iff.2 hl
  exact List.mem_append_right _
    (List.mem_map_of_mem (List.mem_flatMap.2 ⟨l, hlists, hspan⟩))

/-- An item stands between marks, and so does an item of a list of the first statement. -/
lemma HoldsBeside.stands {i : ListItem} (h : t.HoldsBeside i) (hn : i.nested = false) :
    ParenList.Stands t.tokens i := by
  obtain ⟨l, hl, -, hi⟩ := h
  obtain ⟨us, hus, -⟩ := t.tokens_eq_append
  rw [hus]
  exact ((ParenList.spans_of_mem_ofTokens hl).2 i hi hn).append us

end SqlText

/-- What is no token begins with no character of a number. -/
lemma Lexeme.Reads.endsSign_of_token?_none {l : Lexeme} {before : Option Char} {rest : List Char}
    (h : l.Reads d before rest) (ht : l.token? = none) {c : Char} (hc : l.text.head? = some c) :
    Literal.endsSign c := by
  have hparts := (parts_iff.1 (h.parts_of_token?_none ht hc)).1
  have hpoint : c ≠ '.' := by
    rintro rfl
    -- a blank is no point, and neither does a comment begin with one
    rcases h.blank_cases ht with ⟨e, hb, rfl⟩ | ⟨-, hs⟩
    · obtain rfl := Option.some.inj hc
      exact absurd hb (by decide)
    · obtain ⟨o, -, ho⟩ := hs.exists_opens nofun
      generalize l.text = text at hc ho
      cases ho with
      | quote q => exact absurd (Option.some.inj hc) (by cases q <;> decide)
      | dashes => exact absurd (Option.some.inj hc) (by decide)
      | hash => exact absurd (Option.some.inj hc) (by decide)
      | block => exact absurd (Option.some.inj hc) (by decide)
  have hdigit : c.isDigit = false := by
    by_contra hd
    have hd : c.isDigit = true := by simpa using hd
    have hlt := Text.toNat_lt_of_isDigit hd
    simp [Token.continuesWord, Text.isAlphanumeric, Text.isNumeric, hlt, hd] at hparts
  have halpha : c.isAlpha = false := by
    by_contra ha
    have ha : Text.isAlphabetic c = true := Text.isAlphabetic_of_isAlpha (by simpa using ha)
    simp [Token.continuesWord, Text.isAlphanumeric, ha] at hparts
  simp [Literal.endsSign, hdigit, halpha, hpoint]

namespace IntegerItem

variable {n : IntegerItem} {t : SqlText}

/-- An integer is its sign, a gap and its digits, and the gap is empty where these are joined. -/
lemma exists_gap (h : ParenList.Stands t.tokens n.item) : ∃ gap,
    t.slice n.span.start n.span.stop = n.sign ++ (gap ++ n.digits.text) ∧
      (gap = [] ↔ n.Joined) ∧ ∀ c ∈ gap.head?, Literal.endsSign c := by
  cases hsign : n.sign? with
  | none =>
    -- the digits alone fill the span, and there is no gap
    have hitem : n.item.tokens = n.digits :: [] := by rw [item, hsign]; rfl
    obtain ⟨as, e, gap, l, xs, c, post, hls, -, -, hl, hstart, -, -⟩ :=
      SqlText.exists_lexeme_of_stands h hitem
    obtain ⟨-, htext, -⟩ := Lexeme.start_of_tokenAt hl
    refine ⟨[], ?_, ⟨fun _ => by simp [Joined, hsign], fun _ => rfl⟩, nofun⟩
    have hchars : t.chars = Lexeme.textOf (as ++ Lexeme.single e :: gap) ++
        (n.digits.text ++ Lexeme.textOf xs) := by
      rw [hls.chars, htext]
      simp
    have hspan : n.span = ⟨n.digits.start, n.digits.start + Text.width n.digits.text⟩ := by
      rw [span, hsign]
      rfl
    rw [hspan, SqlText.slice, hchars, hstart, Text.slice_append, sign, hsign]
    rfl
  | some s =>
    -- behind the sign come lexemes without a token, and then the digits
    have hitem : n.item.tokens = s :: [n.digits] := by rw [item, hsign]; rfl
    obtain ⟨as, e, gap, l, xs, c, post, hls, -, -, hl, hstart, hxs, -⟩ :=
      SqlText.exists_lexeme_of_stands h hitem
    obtain ⟨-, htext, -⟩ := Lexeme.start_of_tokenAt hl
    have hxs : _ = [] ++ n.digits :: (c :: post) := hxs
    obtain ⟨between, k, ys, rfl, hbetween, hk, -⟩ := Lexeme.exists_split hxs
    obtain ⟨hkstart, hktext, -⟩ := Lexeme.start_of_tokenAt hk
    have hnone := Lexeme.tokens_eq_nil_iff.1 hbetween
    have hchars : t.chars = Lexeme.textOf (as ++ Lexeme.single e :: gap) ++
        ((s.text ++ (Lexeme.textOf between ++ n.digits.text)) ++ Lexeme.textOf ys) := by
      rw [hls.chars, htext, hktext]
      simp
    have hspan : n.span = ⟨s.start, s.start +
        Text.width (s.text ++ (Lexeme.textOf between ++ n.digits.text))⟩ := by
      rw [span, hsign, Token.stop, hkstart, ← htext, Text.width_append, Text.width_append,
        Option.getD_some]
      simp only [Span.mk.injEq, true_and]
      omega
    refine ⟨Lexeme.textOf between, ?_, ?_, ?_⟩
    · rw [hspan, SqlText.slice, hchars, hstart, Text.slice_append, sign, hsign]
      rfl
    · -- the digits start where the gap ends
      have hjoined : n.Joined ↔ s.stop = n.digits.start := by simp [Joined, hsign]
      rw [hjoined, Token.stop, hkstart, htext]
      constructor
      · intro hnil
        rw [hnil, Text.width_nil, Nat.add_zero]
      · intro hw
        by_contra hne
        have := Text.width_pos hne
        omega
    · intro x hx
      -- a lexeme without a token begins with nothing that a number could go on with
      obtain ⟨-, hread⟩ := Lexeme.reading_append.1 hls.reading
      obtain ⟨-, hread⟩ := Lexeme.reading_append.1 hread.2
      have hgap := (Lexeme.reading_append.1 hread.2).1
      cases between with
      | nil => cases hx
      | cons g gs =>
        obtain ⟨y, ys', hg⟩ := List.exists_cons_of_ne_nil hgap.1.text_ne_nil
        rw [Lexeme.textOf_cons, hg] at hx
        obtain rfl := Option.some.inj hx
        exact hgap.1.endsSign_of_token?_none (hnone g List.mem_cons_self) (by rw [hg]; rfl)

/-- **An integer is bound as itself exactly when its sign and its digits are joined.** -/
theorem bind_iff (h : ParenList.Stands t.tokens n.item) (h64 : isInt64 n.value) :
    Bind.value (.ofLiteral (t.slice n.span.start n.span.stop)) = Bind.value (.int n.value) ↔
      n.Joined := by
  obtain ⟨gap, hslice, hjoined, hgap⟩ := exists_gap h
  rw [hslice, ← hjoined]
  constructor
  · intro hbind
    by_contra hne
    obtain ⟨c, cs, rfl⟩ := List.exists_cons_of_ne_nil hne
    have hc := hgap c rfl
    obtain ⟨s, hs, hsign⟩ : ∃ s, (s = '+' ∨ s = '-') ∧ n.sign = [s] := by
      rcases isSign_sign (n := n) with e | e | e
      · -- without a sign there is no gap
        have hnone : n.sign? = none := by
          cases hs : n.sign? with
          | none => rfl
          | some s =>
            rw [sign, hs] at e
            rcases (text_of_mem_sign? hs).2 with e' | e' <;> simp [e'] at e
        exact absurd (hjoined.2 (by simp [Joined, hnone])) hne
      · exact ⟨'+', .inl rfl, e⟩
      · exact ⟨'-', .inr rfl, e⟩
    rw [hsign, List.singleton_append, List.cons_append, Value.ofLiteral_apart hs hc] at hbind
    exact Bind.value_string_ne_int _ _ hbind
  · rintro rfl
    rw [List.nil_append, Value.ofLiteral_signed isSign_sign n.ne_nil n.isDigit h64]
    rfl

end IntegerItem

/-! ### The binds of the templates -/

namespace Analysis

variable {a : Analysis} {f : Finding}

/-- The bind of the literal where all literals of the statement are bound. -/
def bindAmongLiterals? (a : Analysis) (f : Finding) (u : Token) : Option Bind :=
  (a.template f).binds[a.literals.countP (·.start < u.start)]?

/-- The bind of the literal at `span` where it is bound beside the placeholders. -/
def bindAmongHolders? (a : Analysis) (f : Finding) (span : Span) : Option Bind :=
  (a.template f).binds[a.placeholders.countP (·.offset < span.start)]?

/-- Where all literals are bound, each is bound as what it denotes. -/
theorem bindAmongLiterals?_eq (hc : f.code = .notPrepared) {u : Token} (hu : u ∈ a.literals) :
    a.bindAmongLiterals? f u = some (.value (.ofLiteral u.text)) := by
  have hlt : a.literals.Pairwise fun u v => u.start < v.start :=
    a.text.pairwise_lt_tokens.sublist List.filter_sublist
  have hget := getElem?_countP_lt hlt hu
  have ht : a.template f = a.notPrepared := by rw [template, hc]
  rw [bindAmongLiterals?, ht]
  show (a.literals.map _)[_]? = _
  rw [List.getElem?_map, hget]
  rfl

/-- Beside placeholders a literal is bound as what it denotes. -/
theorem bindAmongHolders?_eq (hs : a.statement = a.text.statement)
    (hp : a.placeholders = a.text.placeholders) (h : f ∈ a.text.review)
    (hc : f.code = .hardcodedValue) {span : Span} (hspan : f.span = some span) :
    a.bindAmongHolders? f span =
      some (.value (.ofLiteral (a.text.slice span.start span.stop))) := by
  obtain ⟨front, literal, back, before, after, hr⟩ := repairsLiteral_hardcoded hs hp h hc
  obtain rfl : span = ⟨Text.width front, Text.width front + Text.width literal⟩ :=
    Option.some.inj (hspan.symm.trans hr.span)
  have hslice : a.text.slice (Text.width front) (Text.width front + Text.width literal) =
      literal := by
    rw [SqlText.slice, hr.chars, Text.slice_append]
  have hcount : a.placeholders.countP (·.offset < Text.width front) = before.length := by
    have hbefore : before.countP (·.offset < Text.width front) = before.length :=
      List.countP_eq_length.2 fun p hp => decide_eq_true (hr.before_lt p hp)
    have hafter : after.countP (·.offset < Text.width front) = 0 :=
      List.countP_eq_zero.2 fun p hp => by
        have := hr.le_after p hp
        simp only [decide_eq_true_eq]
        omega
    rw [hr.placeholders, List.countP_append, hbefore, hafter, Nat.add_zero]
  have hle : before.length ≤ a.binds.length := by
    rw [binds, Bind.length_ofPlaceholders, hr.placeholders, List.length_append]
    exact Nat.le_add_right _ _
  rw [bindAmongHolders?, hcount, hr.binds, List.getElem?_insertIdx_self, if_pos hle, hslice]

end Analysis

/-! ### Strings and integers -/

/-- A string between quotes is bound as itself exactly when no backslash is in it. -/
lemma Bind.value_stringLiteral_iff (s : String) :
    Bind.value (.ofLiteral (Dialect.mysql.stringLiteral s.toList)) = Bind.value (.string s) ↔
      '\\' ∉ s.toList := by
  have hvalue : Value.ofLiteral (Dialect.mysql.stringLiteral s.toList) =
      .string (String.ofList (Literal.double '\\' s.toList)) :=
    Value.ofLiteral_quoted (Literal.double '\\' s.toList)
  rw [hvalue]
  exact Bind.value_double_iff s

namespace Query

variable {q : Query}

/-- A string that is written with its quotes and backslashes doubled is one token, and where its
value is bound it is bound as itself exactly when no backslash is in it. -/
lemma bind_string_iff {before after : List Char} {s : String}
    (htext : (q.analysis .mysql).text = (SqlText.mk .mysql before).withLiteral s.toList after)
    (hopen : SqlText.OpensQuote ⟨.mysql, before⟩) (hafter : after.head? ≠ some Quote.single.char) :
    let a := q.analysis .mysql
    let u : Token := ⟨.string, Text.width before, Dialect.mysql.stringLiteral s.toList⟩
    a.text.tokens = (SqlText.mk .mysql before).tokens ++
        u :: (SqlText.mk .mysql after).tokens.map (Token.shift u.stop) ∧
      (∀ f : Finding, f.code = .notPrepared → u.start < a.statement.stop →
        (a.bindAmongLiterals? f u = some (.value (.string s)) ↔ '\\' ∉ s.toList)) ∧
      ∀ f ∈ a.text.review, f.code = .hardcodedValue → f.span = some u.span →
        (a.bindAmongHolders? f u.span = some (.value (.string s)) ↔ '\\' ∉ s.toList) := by
  intro a u
  have htokens : a.text.tokens = (SqlText.mk .mysql before).tokens ++
      u :: (SqlText.mk .mysql after).tokens.map (Token.shift u.stop) := by
    rw [htext]
    exact hopen.tokens_withLiteral hafter
  refine ⟨htokens, fun f hc hstop => ?_, fun f hf hc hspan => ?_⟩
  · have hu : u ∈ a.literals := by
      refine List.mem_filter.2 ⟨htokens ▸ List.mem_append_right _ List.mem_cons_self, ?_⟩
      simpa [u] using hstop
    rw [Analysis.bindAmongLiterals?_eq hc hu, Option.some.injEq]
    exact Bind.value_stringLiteral_iff s
  · have hslice : a.text.slice u.span.start u.span.stop =
        Dialect.mysql.stringLiteral s.toList := by
      rw [htext]
      exact SqlText.slice_withLiteral ⟨.mysql, before⟩ s.toList after
    rw [Analysis.bindAmongHolders?_eq rfl rfl hf hc hspan, hslice, Option.some.injEq]
    exact Bind.value_stringLiteral_iff s

/-- An integer beside placeholders is found, and it is bound as itself exactly when its sign and its
digits are joined. -/
lemma bind_integer_iff {n : IntegerItem} (h : (q.analysis d).text.HoldsBeside n.item)
    (h64 : isInt64 n.value) :
    ∃ f ∈ (q.analysis d).text.review, f.code = .hardcodedValue ∧ f.span = some n.span ∧
      ((q.analysis d).bindAmongHolders? f n.span = some (.value (.int n.value)) ↔ n.Joined) := by
  have hf := h.literalFinding_mem IntegerItem.entry_item IntegerItem.span?_item
  refine ⟨_, hf, rfl, rfl, ?_⟩
  rw [Analysis.bindAmongHolders?_eq rfl rfl hf rfl rfl, Option.some.injEq]
  exact IntegerItem.bind_iff (h.stands rfl) h64

/-- **A literal is bound as what it writes** exactly when it is a string without a backslash, or an
integer with nothing between its sign and its digits. -/
theorem bind_literal_iff (q : Query) :
    (∀ (before after : List Char) (s : String),
      (q.analysis .mysql).text = (SqlText.mk .mysql before).withLiteral s.toList after →
      SqlText.OpensQuote ⟨.mysql, before⟩ → after.head? ≠ some Quote.single.char →
        let a := q.analysis .mysql
        let u : Token := ⟨.string, Text.width before, Dialect.mysql.stringLiteral s.toList⟩
        a.text.tokens = (SqlText.mk .mysql before).tokens ++
            u :: (SqlText.mk .mysql after).tokens.map (Token.shift u.stop) ∧
          (∀ f : Finding, f.code = .notPrepared → u.start < a.statement.stop →
            (a.bindAmongLiterals? f u = some (.value (.string s)) ↔ '\\' ∉ s.toList)) ∧
          ∀ f ∈ a.text.review, f.code = .hardcodedValue → f.span = some u.span →
            (a.bindAmongHolders? f u.span = some (.value (.string s)) ↔ '\\' ∉ s.toList)) ∧
      ∀ (d : Dialect) (n : IntegerItem),
        (q.analysis d).text.HoldsBeside n.item → isInt64 n.value →
          ∃ f ∈ (q.analysis d).text.review, f.code = .hardcodedValue ∧ f.span = some n.span ∧
            ((q.analysis d).bindAmongHolders? f n.span = some (.value (.int n.value)) ↔
              n.Joined) :=
  ⟨fun _ _ _ htext hopen hafter => bind_string_iff htext hopen hafter,
    fun _ _ h h64 => bind_integer_iff h h64⟩

/-- A string with a quote in it and a number with a sign, beside a placeholder. -/
def literalList : Query := .raw "INSERT INTO t VALUES (?, 'it''s', -6)"

/-- The number on the list. -/
def literalItem : IntegerItem where
  sign? := some ⟨.symbol, 34, ['-']⟩
  digits := ⟨.number, 35, ['6']⟩
  isSign := by decide
  isNumber := rfl
  ne_nil := by decide
  isDigit := List.all_eq_true.1 (by decide)

/-- Both are bound as themselves. -/
theorem bind_literal_iff_list :
    let a := literalList.analysis .mysql
    let u : Token := ⟨.string, 25, "'it''s'".toList⟩
    (a.text = (SqlText.ofString .mysql "INSERT INTO t VALUES (?, ").withLiteral "it's".toList
        ", -6)".toList ∧
      SqlText.OpensQuote (.ofString .mysql "INSERT INTO t VALUES (?, ")) ∧
    a.bindAmongLiterals? Reconciliation.notPrepared u = some (.value (.string "it's")) ∧
    (a.text.literalFinding u.span ∈ a.text.review ∧
      a.bindAmongHolders? (a.text.literalFinding u.span) u.span =
        some (.value (.string "it's"))) ∧
    (a.text.HoldsBeside literalItem.item ∧ isInt64 literalItem.value) ∧
    ∃ f ∈ a.text.review, f.code = .hardcodedValue ∧ f.span = some literalItem.span ∧
      a.bindAmongHolders? f literalItem.span = some (.value (.int (-6))) := by
  intro a u
  have htext : a.text = (SqlText.ofString .mysql "INSERT INTO t VALUES (?, ").withLiteral
      "it's".toList ", -6)".toList := by decide +kernel
  have hopen : SqlText.OpensQuote (.ofString .mysql "INSERT INTO t VALUES (?, ") := by
    decide +kernel
  have hfound : a.text.literalFinding u.span ∈ a.text.review := by decide +kernel
  have hitem : a.text.HoldsBeside literalItem.item := by decide +kernel
  have hint : isInt64 literalItem.value := by decide +kernel
  obtain ⟨hstrings, hintegers⟩ := bind_literal_iff literalList
  obtain ⟨-, hlits, hholders⟩ := hstrings _ _ "it's" htext hopen (by decide)
  obtain ⟨f, hf, hc, hspan, hbind⟩ := hintegers .mysql literalItem hitem hint
  have hstop : u.start < a.statement.stop := by decide +kernel
  have hplain : '\\' ∉ "it's".toList := by decide
  have hu : (⟨.string, Text.width "INSERT INTO t VALUES (?, ".toList,
      Dialect.mysql.stringLiteral "it's".toList⟩ : Token) = u := by decide +kernel
  rw [hu] at hlits hholders
  exact ⟨⟨htext, hopen⟩, (hlits _ rfl hstop).2 hplain,
    ⟨hfound, (hholders _ hfound rfl rfl).2 hplain⟩, ⟨hitem, hint⟩,
    f, hf, hc, hspan, hbind.2 (by decide)⟩

/-- A string with a backslash in it and a number apart from its sign, beside a placeholder. -/
def apartList : Query := .raw "INSERT INTO t VALUES (?, 'a\\\\b', - 5)"

/-- The number on the list. -/
def apartItem : IntegerItem where
  sign? := some ⟨.symbol, 33, ['-']⟩
  digits := ⟨.number, 35, ['5']⟩
  isSign := by decide
  isNumber := rfl
  ne_nil := by decide
  isDigit := List.all_eq_true.1 (by decide)

/-- **Neither is bound as itself**: the string is bound with two backslashes, and the number is bound
as a string. -/
theorem bind_literal_ne :
    let a := apartList.analysis .mysql
    let u : Token := ⟨.string, 25, Dialect.mysql.stringLiteral "a\\b".toList⟩
    (a.text = (SqlText.ofString .mysql "INSERT INTO t VALUES (?, ").withLiteral "a\\b".toList
        ", - 5)".toList ∧
      SqlText.OpensQuote (.ofString .mysql "INSERT INTO t VALUES (?, ") ∧
      a.bindAmongLiterals? Reconciliation.notPrepared u ≠ some (.value (.string "a\\b"))) ∧
    (a.text.literalFinding u.span ∈ a.text.review ∧
      a.bindAmongHolders? (a.text.literalFinding u.span) u.span ≠
        some (.value (.string "a\\b"))) ∧
    (a.text.HoldsBeside apartItem.item ∧ apartItem.value = -5) ∧
    a.text.literalFinding apartItem.span ∈ a.text.review ∧
      a.bindAmongHolders? (a.text.literalFinding apartItem.span) apartItem.span ≠
        some (.value (.int (-5))) := by
  intro a u
  have hstring : a.text.literalFinding u.span ∈ a.text.review := by decide +kernel
  have hinteger : a.text.literalFinding apartItem.span ∈ a.text.review := by decide +kernel
  refine ⟨⟨by decide +kernel, by decide +kernel, by decide +kernel⟩, ⟨hstring, ?_⟩,
    ⟨by decide +kernel, by decide +kernel⟩, hinteger, ?_⟩
  · rw [Analysis.bindAmongHolders?_eq rfl rfl hstring rfl rfl]
    decide +kernel
  · rw [Analysis.bindAmongHolders?_eq rfl rfl hinteger rfl rfl]
    decide +kernel

end Query

end QueryGuard
