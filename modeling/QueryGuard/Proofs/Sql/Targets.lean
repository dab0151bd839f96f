import QueryGuard.Proofs.Sql.Keyword
import QueryGuard.Proofs.Sql.Nesting
import QueryGuard.Proofs.Sql.Outline

/-!
The columns that an `UPDATE` sets, as the tokens show them and as they are listed. The list ends at
the first `WHERE` or `FROM`, also where that word stands in a subquery. Main statement: which of the
columns are listed, and the exact condition under which all of them are.
-/

namespace QueryGuard

open Token.Kind

/-! ### The words before an equals sign -/

namespace Token

/-- No column is listed behind the token. -/
def endsTargets (t : Token) : Bool := t.isWord "where" || t.isWord "from"

variable {t : Token}

lemma endsTargets_of_ne_word (h : t.kind ≠ .word) : t.endsTargets = false := by
  simp [endsTargets, isWord, h]

end Token

namespace DeepToken

lemma ofTokens_cons_of_kind {t : Token} {k : Token.Kind} (h : t.kind = k)
    (hk : k ≠ .openParen ∧ k ≠ .closeParen) (n : Nat) (ts : List Token) :
    ofTokens n (t :: ts) = ⟨t, n⟩ :: ofTokens n ts :=
  ofTokens_cons (h ▸ hk.1) (h ▸ hk.2) n ts

lemma isTop_of_mem_head? {ts : List Token} {u : DeepToken} (hu : u ∈ (ofTokens 0 ts).head?) :
    u.isTop := by
  cases ts with
  | nil => cases hu
  | cons t ts =>
    rw [ofTokens] at hu
    split at hu
    · exact Option.some.inj hu ▸ rfl
    · exact Option.some.inj hu ▸ rfl
    · exact Option.some.inj hu ▸ rfl

lemma exists_ofTokens_cons (n : Nat) (t : Token) (ts : List Token) :
    ∃ depth m, ofTokens n (t :: ts) = ⟨t, depth⟩ :: ofTokens m ts := by
  rw [ofTokens]
  split
  · exact ⟨_, _, rfl⟩
  · exact ⟨_, _, rfl⟩
  · exact ⟨_, _, rfl⟩

end DeepToken

namespace Statement

lemma targets_cons (t : DeepToken) (ts : List DeepToken) : targets (t :: ts) =
    if t.token.endsTargets then []
    else if t.isTop && t.token.kind == .word && ts.head?.any (·.token.kind == .equals) then
      String.ofList t.token.text :: targets ts
    else targets ts := by
  cases ts with
  | nil => simp [targets]
  | cons u ts =>
    rw [targets]
    rfl

lemma targets_cons_of_ne_word {t : DeepToken} (h : t.token.kind ≠ .word) (ts : List DeepToken) :
    targets (t :: ts) = targets ts := by
  rw [targets_cons, Token.endsTargets_of_ne_word h, beq_eq_false_iff_ne.2 h]
  simp

/-- Tokens among which no equals sign stands outside parentheses name no column; they end the list
where one of them is a word that ends it, however deep it stands. -/
lemma targets_ofTokens_append {ts : List Token} {n : Nat} {post : List DeepToken}
    (hts : ∀ u ∈ DeepToken.ofTokens n ts, u.isTop → u.token.kind ≠ .equals)
    (hpost : ∀ u ∈ post.head?, u.token.kind ≠ .equals) :
    targets (DeepToken.ofTokens n ts ++ post) =
      if ts.any (·.endsTargets) then [] else targets post := by
  induction ts generalizing n with
  | nil => rfl
  | cons t ts ih =>
    rw [List.any_cons]
    by_cases hw : t.kind = .word
    · have hcons := DeepToken.ofTokens_cons_of_kind hw (by decide) n ts
      rw [hcons] at hts
      obtain ⟨-, hts⟩ := List.forall_mem_cons.1 hts
      -- outside parentheses the next token is outside them, too
      have hnext : ¬ (n = 0 ∧ (DeepToken.ofTokens n ts ++ post).head?.any
          (·.token.kind == .equals)) := by
        rintro ⟨rfl, hany⟩
        obtain ⟨u, hu, hk⟩ := (Option.any_eq_true _ _).1 hany
        rw [List.head?_append, Option.or_eq_some_iff] at hu
        rcases hu with hu | ⟨-, hu⟩
        · exact hts u (List.mem_of_head? hu) (DeepToken.isTop_of_mem_head? hu) (eq_of_beq hk)
        · exact hpost u hu (eq_of_beq hk)
      rw [hcons, List.cons_append, targets_cons, ih hts]
      cases ht : t.endsTargets with
      | true => rfl
      | false =>
        rw [if_neg Bool.false_ne_true, Bool.false_or, if_neg]
        simp only [DeepToken.isTop, hw, BEq.rfl, Bool.and_true, Bool.and_eq_true, beq_iff_eq]
        exact hnext
    · obtain ⟨depth, m, hcons⟩ := DeepToken.exists_ofTokens_cons n t ts
      rw [hcons] at hts ⊢
      rw [List.cons_append, targets_cons_of_ne_word hw, ih (List.forall_mem_cons.1 hts).2,
        Token.endsTargets_of_ne_word hw, Bool.false_or]

end Statement

/-! ### The tokens of an `UPDATE` -/

/-- The tokens of a column and the value that it is set to. -/
structure Assignment where
  column : Token
  equals : Token
  value : List Token
  column_kind : column.kind = .word
  column_goesOn : column.endsTargets = false
  equals_kind : equals.kind = .equals
  value_ne_nil : value ≠ []
  nested : Nested (fun k => k ≠ .comma ∧ k ≠ .equals ∧ k ≠ .semicolon) (value.map (·.kind))
  /-- No clause begins outside parentheses. -/
  value_goesOn : ∀ u ∈ DeepToken.ofTokens 0 value, u.isTopWord "where" = false ∧
    u.isTopWord "from" = false ∧ u.isTopWord "set" = false

namespace Assignment

variable (a : Assignment)

/-- All tokens in order. -/
def tokens : List Token := a.column :: a.equals :: a.value

/-- A word `WHERE` or `FROM` stands in the value, which is inside parentheses. -/
def endsTargets : Bool := a.value.any (·.endsTargets)

/-- The column as it is listed. -/
def target : String := String.ofList a.column.text

/-- The assignments up to the first whose value ends the list. -/
def listed : List Assignment → List Assignment
  | [] => []
  | a :: as => a :: if a.endsTargets then [] else listed as

/-- Assignments with commas in front of them. -/
def behindCommas : List (Token × Assignment) → List Token
  | [] => []
  | p :: ps => p.1 :: (p.2.tokens ++ behindCommas ps)

variable {a}

lemma nested_tokens (a : Assignment) : Nested (· ≠ .semicolon) (a.tokens.map (·.kind)) := by
  rw [tokens, List.map_cons, List.map_cons, a.column_kind, a.equals_kind]
  exact .cons nofun nofun nofun (.cons nofun nofun nofun (a.nested.imp fun _ hk => hk.2.2))

lemma nested_behindCommas {ps : List (Token × Assignment)} (hcomma : ∀ p ∈ ps, p.1.kind = .comma) :
    Nested (· ≠ .semicolon) ((behindCommas ps).map (·.kind)) := by
  induction ps with
  | nil => exact .nil
  | cons p ps ih =>
    obtain ⟨hp, hps⟩ := List.forall_mem_cons.1 hcomma
    rw [behindCommas, List.map_cons, List.map_append, hp]
    exact .cons nofun nofun nofun (p.2.nested_tokens.append (ih hps))

/-! ### Which columns are listed -/

lemma listed_cons (a : Assignment) (as : List Assignment) :
    listed (a :: as) = a :: if a.endsTargets then [] else listed as := rfl

/-- **An assignment names its column**, and ends the list if its value does. -/
lemma targets_tokens (a : Assignment) {post : List DeepToken}
    (hpost : ∀ u ∈ post.head?, u.token.kind ≠ .equals) :
    Statement.targets (DeepToken.ofTokens 0 a.tokens ++ post) =
      a.target :: if a.endsTargets then [] else Statement.targets post := by
  have hcons : DeepToken.ofTokens 0 a.tokens =
      ⟨a.column, 0⟩ :: ⟨a.equals, 0⟩ :: DeepToken.ofTokens 0 a.value := by
    rw [tokens, DeepToken.ofTokens_cons_of_kind a.column_kind (by decide),
      DeepToken.ofTokens_cons_of_kind a.equals_kind (by decide)]
  have hvalue : ∀ u ∈ DeepToken.ofTokens 0 a.value, u.isTop → u.token.kind ≠ .equals := by
    intro u hu htop
    have hdepth : u.depth = 0 := eq_of_beq htop
    rcases (DeepToken.ofTokens_append_of_nested a.nested rfl 0 []).2 u hu with hd | ⟨-, hk⟩
    · omega
    · rcases hk with hk | hk | hk
      · rw [hk]; nofun
      · rw [hk]; nofun
      · exact hk.2.1
  have hequals : a.equals.kind ≠ .word := by rw [a.equals_kind]; nofun
  rw [hcons, List.cons_append, List.cons_append, Statement.targets_cons,
    Statement.targets_cons_of_ne_word hequals, Statement.targets_ofTokens_append hvalue hpost]
  simp only [a.column_goesOn, a.column_kind, a.equals_kind, DeepToken.isTop, List.head?_cons,
    Option.any_some, BEq.rfl, Bool.and_self, Bool.false_eq_true, if_true, if_false]
  rfl

/-- Assignments name their columns up to the one that ends the list. -/
lemma targets_behindCommas (a : Assignment) {ps : List (Token × Assignment)}
    {post : List DeepToken} (hcomma : ∀ p ∈ ps, p.1.kind = .comma)
    (hpost : ∀ u ∈ post.head?, u.token.kind ≠ .equals) (hend : Statement.targets post = []) :
    Statement.targets (DeepToken.ofTokens 0 (a.tokens ++ behindCommas ps) ++ post) =
      (listed (a :: ps.map (·.2))).map target := by
  induction ps generalizing a with
  | nil =>
    rw [behindCommas, List.append_nil, targets_tokens a hpost, hend, ite_self, List.map_nil,
      listed_cons, listed, ite_self]
    rfl
  | cons p ps ih =>
    obtain ⟨hp, hps⟩ := List.forall_mem_cons.1 hcomma
    have hcut : DeepToken.ofTokens 0 (a.tokens ++ behindCommas (p :: ps)) =
        DeepToken.ofTokens 0 a.tokens ++
          ⟨p.1, 0⟩ :: DeepToken.ofTokens 0 (p.2.tokens ++ behindCommas ps) := by
      rw [(DeepToken.ofTokens_append_of_nested a.nested_tokens rfl 0 _).1, behindCommas,
        DeepToken.ofTokens_cons_of_kind hp (by decide)]
    rw [hcut, List.append_assoc, List.cons_append, targets_tokens a (by simp [hp]),
      Statement.targets_cons_of_ne_word (by rw [hp]; nofun), ih p.2 hps, List.map_cons,
      listed_cons a, List.map_cons]
    split
    · rfl
    · rfl

lemma listed_isPrefix (as : List Assignment) : listed as <+: as := by
  induction as with
  | nil => exact List.prefix_refl _
  | cons a as ih =>
    rw [listed_cons]
    split
    · exact List.prefix_append [a] as
    · exact (List.prefix_cons_inj a).2 ih

/-- All are listed when none in front of the last ends the list. -/
lemma listed_eq_self_iff {as : List Assignment} :
    listed as = as ↔ ∀ a ∈ as.dropLast, a.endsTargets = false := by
  induction as with
  | nil => exact iff_of_true rfl nofun
  | cons a as ih =>
    rw [listed_cons, List.cons_inj_right]
    cases as with
    | nil => exact iff_of_true (ite_self _) nofun
    | cons b as =>
      rw [List.dropLast_cons_cons, List.forall_mem_cons, ← ih]
      cases a.endsTargets with
      | true => exact iff_of_false (by simp) (by simp)
      | false => simp

lemma map_listed_eq_iff {as : List Assignment} :
    (listed as).map target = as.map target ↔ ∀ a ∈ as.dropLast, a.endsTargets = false := by
  rw [← listed_eq_self_iff]
  refine ⟨fun h => (listed_isPrefix as).eq_of_length ?_, fun h => by rw [h]⟩
  simpa using congrArg List.length h

end Assignment

/-- The tokens of an `UPDATE` of a table: its assignments with commas between them, and what stands
behind them, which is a `WHERE` clause or begins with a semicolon. -/
structure UpdateTokens where
  update : Token
  table : Token
  set : Token
  first : Assignment
  further : List (Token × Assignment)
  tail : List Token
  update_isWord : update.isWord "update"
  table_kind : table.kind = .word
  table_isWord : table.isWord "set" = false
  set_isWord : set.isWord "set"
  comma_kind : ∀ p ∈ further, p.1.kind = .comma
  tail_head : ∀ w ∈ tail.head?, w.isWord "where" ∨ w.kind = .semicolon

namespace UpdateTokens

variable {t : SqlText} (u : UpdateTokens)

/-- The assignments in order. -/
def assignments : List Assignment := u.first :: u.further.map (·.2)

/-- The tokens behind `SET`, up to the tail. -/
def assigned : List Token := u.first.tokens ++ Assignment.behindCommas u.further

/-- All tokens up to the tail. -/
def front : List Token := u.update :: u.table :: u.set :: u.assigned

/-- All tokens in order. -/
def tokens : List Token := u.front ++ u.tail

lemma kind_front :
    u.update.kind = .word ∧ u.table.kind = .word ∧ u.set.kind = .word :=
  ⟨(Token.isWord_iff.1 u.update_isWord).1, u.table_kind, (Token.isWord_iff.1 u.set_isWord).1⟩

lemma nested_front : Nested (· ≠ .semicolon) (u.front.map (·.kind)) := by
  obtain ⟨hupdate, htable, hset⟩ := u.kind_front
  rw [front, List.map_cons, List.map_cons, List.map_cons, hupdate, htable, hset, assigned,
    List.map_append]
  exact .cons nofun nofun nofun (.cons nofun nofun nofun (.cons nofun nofun nofun
    (u.first.nested_tokens.append (Assignment.nested_behindCommas u.comma_kind))))

lemma ofTokens_front : DeepToken.ofTokens 0 u.front =
    ⟨u.update, 0⟩ :: ⟨u.table, 0⟩ :: ⟨u.set, 0⟩ :: DeepToken.ofTokens 0 u.assigned := by
  obtain ⟨hupdate, htable, hset⟩ := u.kind_front
  rw [front, DeepToken.ofTokens_cons_of_kind hupdate (by decide),
    DeepToken.ofTokens_cons_of_kind htable (by decide),
    DeepToken.ofTokens_cons_of_kind hset (by decide)]

/-- Nothing is listed behind the assignments. -/
lemma targets_tail :
    let post := (DeepToken.ofTokens 0 u.tail).takeWhile (!·.endsStatement)
    Statement.targets post = [] ∧ ∀ v ∈ post.head?, v.token.kind ≠ .equals := by
  have hhead := u.tail_head
  cases ht : u.tail with
  | nil => simp [DeepToken.ofTokens, Statement.targets]
  | cons w ws =>
    rw [ht] at hhead
    rcases hhead w rfl with hw | hw
    · have hk := (Token.isWord_iff.1 hw).1
      have hends : w.endsTargets = true := by rw [Token.endsTargets, hw, Bool.true_or]
      rw [DeepToken.ofTokens_cons_of_kind hk (by decide),
        List.takeWhile_cons_of_pos (by simp [DeepToken.endsStatement, hk])]
      exact ⟨by rw [Statement.targets_cons, if_pos hends], by simp [hk]⟩
    · have hsemicolon : (!DeepToken.endsStatement ⟨w, 0⟩) = false := by
        simp [DeepToken.endsStatement, DeepToken.isTop, hw]
      rw [DeepToken.ofTokens_cons_of_kind hw (by decide),
        List.takeWhile_cons_of_neg (Bool.not_eq_true _ ▸ hsemicolon)]
      simp [Statement.targets]

variable {u}

/-- The first statement reaches into the tail. -/
lemma statementTokens_eq (h : t.tokens = u.tokens) :
    t.statementTokens = DeepToken.ofTokens 0 u.front ++
      (DeepToken.ofTokens 0 u.tail).takeWhile (!·.endsStatement) := by
  have hfront : ∀ v ∈ DeepToken.ofTokens 0 u.front, (!v.endsStatement) = true := by
    intro v hv
    rw [DeepToken.endsStatement_of_nested u.nested_front 0 v hv]
    rfl
  rw [SqlText.statementTokens, Statement.tokens, h, tokens,
    (DeepToken.ofTokens_append_of_nested u.nested_front rfl 0 u.tail).1,
    List.takeWhile_append_of_pos hfront]

lemma kind_eq (h : t.tokens = u.tokens) (hg : t.BehindGaps u.update) :
    t.statement.kind = .update := by
  have hfirst : t.firstToken? = some u.update := by
    rw [SqlText.firstToken?, statementTokens_eq h, ofTokens_front]
    rfl
  have hkind : Statement.Kind.ofToken u.update = .update := by
    rw [Statement.Kind.ofToken, Token.isWord_eq_false u.update_isWord (by decide),
      Token.isWord_eq_false u.update_isWord (by decide),
      Token.isWord_eq_false u.update_isWord (by decide), u.update_isWord]
    rfl
  rw [SqlText.kind_of_isWord hfirst hg u.update_isWord (by decide), hkind]

/-- The first `SET` is the one behind the table. -/
lemma after_set (h : t.tokens = u.tokens) :
    Statement.after (·.isTopWord "set") t.statementTokens =
      DeepToken.ofTokens 0 u.assigned ++
        (DeepToken.ofTokens 0 u.tail).takeWhile (!·.endsStatement) := by
  have hupdate : u.update.isWord "set" = false := Token.isWord_eq_false u.update_isWord (by decide)
  rw [Statement.after, statementTokens_eq h, ofTokens_front]
  simp only [List.cons_append]
  rw [List.dropWhile_cons_of_pos (by simp [DeepToken.isTopWord, hupdate]),
    List.dropWhile_cons_of_pos (by simp [DeepToken.isTopWord, u.table_isWord]),
    List.dropWhile_cons_of_neg (by simp [DeepToken.isTopWord, DeepToken.isTop, u.set_isWord])]
  rfl

/-- **The columns of an `UPDATE` are listed** in order, up to the first whose value holds the word
`WHERE` or `FROM` inside its parentheses. So all are listed exactly where no value but the last holds
such a word. -/
theorem statement_setColumns (h : t.tokens = u.tokens) (hg : t.BehindGaps u.update) :
    t.statement.setColumns = (Assignment.listed u.assignments).map Assignment.target ∧
      (t.statement.setColumns = u.assignments.map Assignment.target ↔
        ∀ a ∈ u.assignments.dropLast, a.endsTargets = false) := by
  have hlist : t.statement.setColumns = (Assignment.listed u.assignments).map Assignment.target := by
    obtain ⟨hend, hhead⟩ := u.targets_tail
    rw [SqlText.setColumns_statement, if_pos (kind_eq h hg), Statement.assigned, after_set h,
      assigned, Assignment.targets_behindCommas u.first u.comma_kind hhead hend]
    rfl
  exact ⟨hlist, by rw [hlist, Assignment.map_listed_eq_iff]⟩

/-- The kinds of the tokens of `(SELECT c FROM u)`. -/
lemma nested_subquery {p : Token.Kind → Prop} :
    Nested p [.openParen, .word, .word, .word, .word, .closeParen] := by
  have hinner : Nested (fun _ => True) [.word, .word, .word, .word] :=
    nested_of_forall (by decide)
  exact nested_parens hinner

/-- The tokens of `a = f(x)`. -/
def callOfX : Assignment where
  column := ⟨.word, 13, "a".toList⟩
  equals := ⟨.equals, 15, "=".toList⟩
  value := [⟨.word, 17, "f".toList⟩, ⟨.openParen, 18, "(".toList⟩, ⟨.word, 19, "x".toList⟩,
    ⟨.closeParen, 20, ")".toList⟩]
  column_kind := rfl
  column_goesOn := by decide +kernel
  equals_kind := rfl
  value_ne_nil := by decide
  nested := by
    have hinner : Nested (fun _ => True) [.word] := nested_of_forall (by decide)
    exact .cons nofun nofun (by decide) (nested_parens hinner)
  value_goesOn := by decide +kernel

/-- The tokens of `b = (SELECT c FROM u)`. -/
def subqueryOfC : Assignment where
  column := ⟨.word, 23, "b".toList⟩
  equals := ⟨.equals, 25, "=".toList⟩
  value := [⟨.openParen, 27, "(".toList⟩, ⟨.word, 28, "SELECT".toList⟩, ⟨.word, 35, "c".toList⟩,
    ⟨.word, 37, "FROM".toList⟩, ⟨.word, 42, "u".toList⟩, ⟨.closeParen, 43, ")".toList⟩]
  column_kind := rfl
  column_goesOn := by decide +kernel
  equals_kind := rfl
  value_ne_nil := by decide
  nested := nested_subquery
  value_goesOn := by decide +kernel

/-- An update with a subquery in its last value. -/
def subqueryLast : UpdateTokens where
  update := ⟨.word, 0, "UPDATE".toList⟩
  table := ⟨.word, 7, "t".toList⟩
  set := ⟨.word, 9, "SET".toList⟩
  first := callOfX
  further := [(⟨.comma, 21, ",".toList⟩, subqueryOfC)]
  tail := [⟨.word, 45, "WHERE".toList⟩, ⟨.word, 51, "id".toList⟩, ⟨.equals, 54, "=".toList⟩,
    ⟨.placeholder, 56, "?".toList⟩]
  update_isWord := by decide +kernel
  table_kind := rfl
  table_isWord := by decide +kernel
  set_isWord := by decide +kernel
  comma_kind := List.forall_mem_singleton.2 rfl
  tail_head := by decide +kernel

/-- A subquery in the last value ends nothing. -/
theorem statement_setColumns_subquery : (SqlText.ofString .standard
    "UPDATE t SET a = f(x), b = (SELECT c FROM u) WHERE id = ?").statement.setColumns =
      ["a", "b"] := by
  have h := statement_setColumns (u := subqueryLast)
    (t := .ofString .standard "UPDATE t SET a = f(x), b = (SELECT c FROM u) WHERE id = ?")
    (by decide +kernel) (SqlText.behindGaps_of_start rfl)
  have hgoesOn : ∀ a ∈ subqueryLast.assignments.dropLast, a.endsTargets = false :=
    List.forall_mem_cons.2 ⟨by decide +kernel, nofun⟩
  exact (h.2.2 hgoesOn).trans (by decide +kernel)

/-- The tokens of `a = (SELECT b FROM u)`. -/
def subqueryOfB : Assignment where
  column := ⟨.word, 13, "a".toList⟩
  equals := ⟨.equals, 15, "=".toList⟩
  value := [⟨.openParen, 17, "(".toList⟩, ⟨.word, 18, "SELECT".toList⟩, ⟨.word, 25, "b".toList⟩,
    ⟨.word, 27, "FROM".toList⟩, ⟨.word, 32, "u".toList⟩, ⟨.closeParen, 33, ")".toList⟩]
  column_kind := rfl
  column_goesOn := by decide +kernel
  equals_kind := rfl
  value_ne_nil := by decide
  nested := nested_subquery
  value_goesOn := by decide +kernel

/-- The tokens of `c = 1`. -/
def numberOne : Assignment where
  column := ⟨.word, 36, "c".toList⟩
  equals := ⟨.equals, 38, "=".toList⟩
  value := [⟨.number, 40, "1".toList⟩]
  column_kind := rfl
  column_goesOn := by decide +kernel
  equals_kind := rfl
  value_ne_nil := by decide
  nested := nested_of_forall (by decide)
  value_goesOn := by decide +kernel

/-- An update with a subquery in the value before the last. -/
def subqueryFirst : UpdateTokens where
  update := ⟨.word, 0, "UPDATE".toList⟩
  table := ⟨.word, 7, "t".toList⟩
  set := ⟨.word, 9, "SET".toList⟩
  first := subqueryOfB
  further := [(⟨.comma, 34, ",".toList⟩, numberOne)]
  tail := []
  update_isWord := by decide +kernel
  table_kind := rfl
  table_isWord := by decide +kernel
  set_isWord := by decide +kernel
  comma_kind := List.forall_mem_singleton.2 rfl
  tail_head := nofun

/-- Not all columns are listed: the list ends at the `FROM` of a subquery. -/
theorem not_statement_setColumns_subquery : ¬ ∀ (t : SqlText) (u : UpdateTokens),
    t.tokens = u.tokens → t.BehindGaps u.update →
      t.statement.setColumns = u.assignments.map Assignment.target := by
  intro h
  have hall := h (.ofString .standard "UPDATE t SET a = (SELECT b FROM u), c = 1") subqueryFirst
    (by decide +kernel) (SqlText.behindGaps_of_start rfl)
  have hfirst : (SqlText.ofString .standard
      "UPDATE t SET a = (SELECT b FROM u), c = 1").statement.setColumns = ["a"] := by
    decide +kernel
  rw [hfirst] at hall
  exact absurd hall (by decide +kernel)

end UpdateTokens

end QueryGuard
