import Mathlib.Data.List.Chain
import QueryGuard.Sql.Segment

/-!
The lexical grammar of SQL text: what a bare stretch, a literal and a comment look like, said
without a reader. It is written over any symbols among which the marks of the grammar can be told
apart, so that it speaks of the characters of a text and of its bytes alike. Main statement: a text
is cut by the grammar in one way only.
-/

namespace QueryGuard.Grammar

variable {α : Type} (mark : Char → α) (d : Dialect)

/-! ### The grammar -/

/-- The opener stands at the beginning of the text. -/
inductive Opens : Opener → List α → Prop where
  | quote (q : Quote) (rest : List α) : Opens (.quote q) (mark q.char :: rest)
  | dashes (rest : List α) : Opens .line (mark '-' :: mark '-' :: rest)
  | hash (rest : List α) : d = .mysql → Opens .line (mark '#' :: rest)
  | block (rest : List α) : Opens .block (mark '/' :: mark '*' :: rest)

/-- The kind of the segments that begin with the opener. -/
def kindOf : Opener → Segment.Kind
  | .quote _ => .literal
  | .line => .comment
  | .block => .comment

/-- A unit in the body of a literal between marks `q`. Where the backslash escapes, it is never a
unit alone. -/
inductive BodyUnit (q : Quote) : List α → Prop where
  | escaped (x : α) : d.escapes q → BodyUnit q [mark '\\', x]
  | doubled : BodyUnit q [mark q.char, mark q.char]
  | plain (x : α) : x ≠ mark q.char → ¬ (x = mark '\\' ∧ d.escapes q) → BodyUnit q [x]

/-- The body of a literal: units one after the other. -/
inductive Body (q : Quote) : List α → Prop where
  | nil : Body q []
  | cons {unit body : List α} : BodyUnit mark d q unit → Body q body → Body q (unit ++ body)

/-- `text` is a segment of the kind where `next` is the symbol behind it, if there is one. What is
not closed has no symbol behind it. -/
inductive Spells : Segment.Kind → List α → Option α → Prop where
  /-- No opener starts in a bare stretch. -/
  | bare {text : List α} {next : Option α} : text ≠ [] →
      (∀ a b o, text = a ++ b → b ≠ [] → ¬ Opens mark d o (b ++ next.toList)) →
      Spells .bare text next
  | closedLiteral {q : Quote} {body : List α} {next : Option α} : Body mark d q body →
      next ≠ some (mark q.char) → Spells .literal (mark q.char :: (body ++ [mark q.char])) next
  | openLiteral {q : Quote} {body : List α} : Body mark d q body →
      Spells .literal (mark q.char :: body) none
  /-- A backslash with nothing to escape. -/
  | openEscape {q : Quote} {body : List α} : d.escapes q → Body mark d q body →
      Spells .literal (mark q.char :: (body ++ [mark '\\'])) none
  | line {text : List α} {next : Option α} : Opens mark d .line text → mark '\n' ∉ text →
      (∀ x ∈ next, x = mark '\n') → Spells .comment text next
  | closedBlock {body : List α} {next : Option α} : ¬ [mark '*', mark '/'] <:+: body →
      Spells .comment (mark '/' :: mark '*' :: (body ++ [mark '*', mark '/'])) next
  | openBlock {body : List α} : ¬ [mark '*', mark '/'] <:+: body →
      Spells .comment (mark '/' :: mark '*' :: body) none

/-- A part of a text with its kind. -/
structure Piece (α : Type) where
  kind : Segment.Kind
  text : List α

/-- The text that pieces make up. -/
def textOf (ps : List (Piece α)) : List α := ps.flatMap Piece.text

/-- Every piece is a segment of its kind in front of those that follow it. -/
def Lexes : List (Piece α) → Prop
  | [] => True
  | p :: ps => Spells mark d p.kind p.text (textOf ps).head? ∧ Lexes ps

/-- No two bare pieces stand side by side. -/
def Separated (ps : List (Piece α)) : Prop :=
  ps.IsChain fun p q => ¬ (p.kind = .bare ∧ q.kind = .bare)

@[simp] lemma textOf_nil : textOf ([] : List (Piece α)) = [] := rfl

@[simp] lemma textOf_cons (p : Piece α) (ps : List (Piece α)) :
    textOf (p :: ps) = p.text ++ textOf ps := rfl

@[simp] lemma textOf_append (ps qs : List (Piece α)) :
    textOf (ps ++ qs) = textOf ps ++ textOf qs := List.flatMap_append

/-! ### Marks -/

/-- The marks of the grammar, and all of ASCII with them, are told apart. -/
def Distinguishes : Prop := ∀ a b : Char, a.toNat < 0x80 → b.toNat < 0x80 → mark a = mark b → a = b

variable {mark d}

lemma toNat_quote_lt (q : Quote) : q.char.toNat < 0x80 := by cases q <;> decide

/-- A mark with which something else than a quoted text begins. -/
lemma quote_ne (q : Quote) : q.char ≠ '-' ∧ q.char ≠ '#' ∧ q.char ≠ '/' ∧ q.char ≠ '\\' := by
  cases q <;> decide

lemma quote_injective {p q : Quote} (h : p.char = q.char) : p = q := by
  cases p <;> cases q <;> first | rfl | exact absurd h (by decide)

lemma Distinguishes.ne (hm : Distinguishes mark) {a b : Char} (hab : a ≠ b)
    (ha : a.toNat < 0x80 := by decide) (hb : b.toNat < 0x80 := by decide) : mark a ≠ mark b :=
  fun h => hab (hm a b ha hb h)

lemma Distinguishes.quote_ne (hm : Distinguishes mark) (q : Quote) {c : Char} (hq : q.char ≠ c)
    (hc : c.toNat < 0x80 := by decide) : mark q.char ≠ mark c :=
  hm.ne hq (toNat_quote_lt q) hc

lemma distinguishes_id : Distinguishes (id : Char → Char) := fun _ _ _ _ h => h

/-! ### Openers -/

lemma Opens.ne_nil {o : Opener} {s : List α} (h : Opens mark d o s) : s ≠ [] := by
  cases h <;> exact List.cons_ne_nil _ _

lemma Opens.append {o : Opener} {s : List α} (h : Opens mark d o s) (t : List α) :
    Opens mark d o (s ++ t) := by
  cases h with
  | quote q rest => exact .quote q _
  | dashes rest => exact .dashes _
  | hash rest hd => exact .hash _ hd
  | block rest => exact .block _

/-- An opener begins with a mark. -/
lemma Opens.exists_mark {o : Opener} {s : List α} (h : Opens mark d o s) :
    ∃ c rest, c.toNat < 0x80 ∧ s = mark c :: rest := by
  cases h with
  | quote q rest => exact ⟨_, _, toNat_quote_lt q, rfl⟩
  | dashes rest => exact ⟨_, _, by decide, rfl⟩
  | hash rest _ => exact ⟨_, _, by decide, rfl⟩
  | block rest => exact ⟨_, _, by decide, rfl⟩

/-- An opener needs one symbol behind a text that is not empty. -/
lemma opens_append_head {o : Opener} {s t : List α} (hs : s ≠ []) :
    Opens mark d o (s ++ t.head?.toList) ↔ Opens mark d o (s ++ t) := by
  constructor
  · intro h
    cases t with
    | nil => exact h
    | cons x t => simpa using h.append t
  · obtain ⟨a, s, rfl⟩ := List.exists_cons_of_ne_nil hs
    -- two characters show which opener it is; behind one alone the next is needed
    cases s with
    | cons b s =>
      intro h
      cases h with
      | quote q => exact .quote q _
      | dashes => exact .dashes _
      | hash _ hd => exact .hash _ hd
      | block => exact .block _
    | nil =>
      cases t with
      | nil => exact id
      | cons x t =>
        intro h
        cases h with
        | quote q => exact .quote q _
        | dashes => exact .dashes _
        | hash _ hd => exact .hash _ hd
        | block => exact .block _

lemma Opens.unique (hm : Distinguishes mark) {o o' : Opener} {s : List α}
    (h : Opens mark d o s) (h' : Opens mark d o' s) : o = o' := by
  have hq := fun q : Quote => quote_ne q
  generalize hs : s = s' at h'
  cases h <;> cases h' <;> simp only [List.cons.injEq] at hs <;> first
    | rfl
    | exact congrArg _ (quote_injective (hm _ _ (toNat_quote_lt _) (toNat_quote_lt _) hs.1))
    | exact absurd hs.1 (hm.quote_ne _ (hq _).1)
    | exact absurd hs.1 (hm.quote_ne _ (hq _).2.1)
    | exact absurd hs.1 (hm.quote_ne _ (hq _).2.2.1)
    | exact absurd hs.1.symm (hm.quote_ne _ (hq _).1)
    | exact absurd hs.1.symm (hm.quote_ne _ (hq _).2.1)
    | exact absurd hs.1.symm (hm.quote_ne _ (hq _).2.2.1)
    | exact absurd hs.1 (hm.ne (by decide))

/-! ### Bodies of literals -/

variable (mark d) in
/-- What stands behind the body of a literal: nothing, a backslash with nothing to escape, or a mark
that is not doubled. -/
def BodyEnd (q : Quote) (s : List α) : Prop :=
  s = [] ∨ (d.escapes q ∧ s = [mark '\\']) ∨
    ∃ rest, s = mark q.char :: rest ∧ rest.head? ≠ some (mark q.char)

lemma Body.append {q : Quote} {s t : List α} (hs : Body mark d q s) (ht : Body mark d q t) :
    Body mark d q (s ++ t) := by
  induction hs with
  | nil => exact ht
  | cons hu _ ih => rw [List.append_assoc]; exact .cons hu ih

/-- No unit is the beginning of another. -/
lemma BodyUnit.unique (hm : Distinguishes mark) {q : Quote} {u v s t : List α}
    (hu : BodyUnit mark d q u) (hv : BodyUnit mark d q v) (h : u ++ s = v ++ t) :
    u = v ∧ s = t := by
  have hq := hm.quote_ne q (quote_ne q).2.2.2
  cases hu with
  | escaped x hd =>
    cases hv with
    | escaped y _ => simp_all
    | doubled => exact absurd (List.cons.inj h).1.symm hq
    | plain y _ hy => exact absurd ⟨(List.cons.inj h).1.symm, hd⟩ hy
  | doubled =>
    cases hv with
    | escaped y _ => exact absurd (List.cons.inj h).1 hq
    | doubled => simp_all
    | plain y hy _ => exact absurd (List.cons.inj h).1.symm hy
  | plain x hx hx' =>
    cases hv with
    | escaped y hd => exact absurd ⟨(List.cons.inj h).1, hd⟩ hx'
    | doubled => exact absurd (List.cons.inj h).1 hx
    | plain y _ _ => simp_all

/-- A unit is not what stands behind a body. -/
lemma BodyUnit.not_bodyEnd (hm : Distinguishes mark) {q : Quote} {u s : List α}
    (hu : BodyUnit mark d q u) : ¬ BodyEnd mark d q (u ++ s) := by
  have hq := hm.quote_ne q (quote_ne q).2.2.2
  rintro (h | ⟨hd, h⟩ | ⟨rest, h, hrest⟩)
  · cases hu <;> cases h
  · cases hu with
    | escaped x _ => simp at h
    | doubled => simp at h
    | plain x _ hx => exact hx ⟨(List.cons.inj h).1, hd⟩
  · cases hu with
    | escaped x _ => exact hq (List.cons.inj h).1.symm
    | doubled =>
      rw [← (List.cons.inj h).2] at hrest
      exact hrest rfl
    | plain x hx _ => exact hx (List.cons.inj h).1

/-- A text is a body with what stands behind it in one way only. -/
lemma Body.unique (hm : Distinguishes mark) {q : Quote} {a b s t : List α}
    (ha : Body mark d q a) (hb : Body mark d q b) (hs : BodyEnd mark d q s)
    (ht : BodyEnd mark d q t) (h : a ++ s = b ++ t) : a = b ∧ s = t := by
  induction ha generalizing b with
  | nil =>
    cases hb with
    | nil => exact ⟨rfl, h⟩
    | cons hu _ =>
      rw [List.nil_append, List.append_assoc] at h
      exact absurd (h ▸ hs) (hu.not_bodyEnd hm)
  | @cons u a hu _ ih =>
    cases hb with
    | nil =>
      rw [List.nil_append, List.append_assoc] at h
      exact absurd (h.symm ▸ ht) (hu.not_bodyEnd hm)
    | cons hv hb =>
      rw [List.append_assoc, List.append_assoc] at h
      obtain ⟨rfl, e⟩ := hu.unique hm hv h
      obtain ⟨rfl, e'⟩ := ih hb e
      exact ⟨rfl, e'⟩

/-! ### A text is cut in one way only -/

/-- A literal as a body and what closes it, if anything does. -/
lemma Spells.literal_cases (hm : Distinguishes mark) {text rest : List α}
    (h : Spells mark d .literal text rest.head?) :
    ∃ q body close, text = mark q.char :: (body ++ close) ∧ Body mark d q body ∧
      BodyEnd mark d q (close ++ rest) ∧
      (close = [mark q.char] ∨ rest = [] ∧ close.head? ≠ some (mark q.char)) := by
  generalize hn : rest.head? = next at h
  cases h with
  | @closedLiteral q body _ hb hne =>
    exact ⟨q, body, [mark q.char], rfl, hb, .inr (.inr ⟨rest, rfl, hn ▸ hne⟩), .inl rfl⟩
  | @openLiteral q body hb =>
    obtain rfl := List.head?_eq_none_iff.1 hn
    exact ⟨q, body, [], by simp, hb, .inl rfl, .inr ⟨rfl, by simp⟩⟩
  | @openEscape q body hd hb =>
    obtain rfl := List.head?_eq_none_iff.1 hn
    have hq := hm.quote_ne q (quote_ne q).2.2.2
    exact ⟨q, body, [mark '\\'], rfl, hb, .inr (.inl ⟨hd, rfl⟩),
      .inr ⟨rfl, by simpa using hq.symm⟩⟩

/-- Two readings of a text begin with the same literal. -/
lemma Spells.literal_unique (hm : Distinguishes mark) {a b s t : List α}
    (ha : Spells mark d .literal a s.head?) (hb : Spells mark d .literal b t.head?)
    (h : a ++ s = b ++ t) : a = b := by
  obtain ⟨p, u, v, rfl, hu, hv, hc⟩ := ha.literal_cases hm
  obtain ⟨q, x, y, rfl, hx, hy, hc'⟩ := hb.literal_cases hm
  simp only [List.cons_append, List.append_assoc, List.cons.injEq] at h
  obtain rfl := quote_injective (hm _ _ (toNat_quote_lt p) (toNat_quote_lt q) h.1)
  obtain ⟨rfl, e⟩ := hu.unique hm hx hv hy h.2
  suffices v = y by rw [this]
  rcases hc with rfl | ⟨rfl, hv'⟩ <;> rcases hc' with rfl | ⟨rfl, hy'⟩
  · rfl
  · rw [List.append_nil] at e
    exact absurd (congrArg List.head? e.symm) (by simpa using hy')
  · rw [List.append_nil] at e
    exact absurd (congrArg List.head? e) (by simpa using hv')
  · simpa using e

/-- Two readings of a text begin with the same line comment. -/
lemma Spells.line_unique {a b s t : List α} (ha : mark '\n' ∉ a) (hb : mark '\n' ∉ b)
    (hs : ∀ x ∈ s.head?, x = mark '\n') (ht : ∀ x ∈ t.head?, x = mark '\n')
    (h : a ++ s = b ++ t) : a = b := by
  rcases List.append_eq_append_iff.1 h with ⟨c, rfl, rfl⟩ | ⟨c, rfl, rfl⟩
  · cases c with
    | nil => simp
    | cons x c => obtain rfl := hs x rfl; simp at hb
  · cases c with
    | nil => simp
    | cons x c => obtain rfl := ht x rfl; simp at ha

/-- What follows a body up to the first end of a block comment is not inside another such body. -/
lemma block_body_unique (hm : Distinguishes mark) {a b s t : List α}
    (hb : ¬ [mark '*', mark '/'] <:+: b)
    (h : a ++ (mark '*' :: mark '/' :: s) = b ++ (mark '*' :: mark '/' :: t)) : b <+: a := by
  rcases List.append_eq_append_iff.1 h with ⟨c, rfl, e⟩ | ⟨c, rfl, -⟩
  · -- an end of the comment inside `c` would be one inside `b`
    match c, e with
    | [], _ => simp
    | [x], e =>
      simp only [List.cons_append, List.nil_append, List.cons.injEq] at e
      exact absurd e.2.1 (hm.ne (by decide))
    | x :: y :: c, e =>
      simp only [List.cons_append, List.cons.injEq] at e
      obtain ⟨rfl, rfl, -⟩ := e
      exact absurd ⟨a, c, by simp⟩ hb
  · exact List.prefix_append b c

/-- A comment is a line comment or a block comment that is closed or not. -/
lemma Spells.comment_cases {text rest : List α} (h : Spells mark d .comment text rest.head?) :
    (Opens mark d .line text ∧ mark '\n' ∉ text ∧ ∀ x ∈ rest.head?, x = mark '\n') ∨
      ∃ body close, text = mark '/' :: mark '*' :: (body ++ close) ∧
        ¬ [mark '*', mark '/'] <:+: body ∧
        (close = [mark '*', mark '/'] ∨ close = [] ∧ rest = []) := by
  generalize hn : rest.head? = next at h
  cases h with
  | line ho hl hx => exact .inl ⟨ho, hl, hx⟩
  | closedBlock hb => exact .inr ⟨_, _, rfl, hb, .inl rfl⟩
  | openBlock hb =>
    exact .inr ⟨_, [], by simp, hb, .inr ⟨rfl, List.head?_eq_none_iff.1 hn⟩⟩

/-- Two readings of a text begin with the same comment. -/
lemma Spells.comment_unique (hm : Distinguishes mark) {a b s t : List α}
    (ha : Spells mark d .comment a s.head?) (hb : Spells mark d .comment b t.head?)
    (h : a ++ s = b ++ t) : a = b := by
  rcases ha.comment_cases with ⟨ho, hl, hs⟩ | ⟨u, x, rfl, hu, hx⟩ <;>
    rcases hb.comment_cases with ⟨ho', hl', ht⟩ | ⟨v, y, rfl, hv, hy⟩
  · exact Spells.line_unique hl hl' hs ht h
  · have ho' := ho.append s
    rw [h] at ho'
    exact absurd (ho'.unique hm (.block _)) (by simp)
  · have ho := ho'.append t
    rw [← h] at ho
    exact absurd (ho.unique hm (.block _)) (by simp)
  · simp only [List.cons_append, List.append_assoc, List.cons.injEq, true_and] at h
    rcases hx with rfl | ⟨rfl, rfl⟩ <;> rcases hy with rfl | ⟨rfl, rfl⟩
    · have e := (block_body_unique hm hu h.symm).eq_of_length_le
        (block_body_unique hm hv h).length_le
      rw [e]
    · refine absurd ⟨u, s, ?_⟩ hv
      simpa using h
    · refine absurd ⟨v, t, ?_⟩ hu
      simpa using h.symm
    · simpa using h

/-- Other than a bare stretch, a segment begins with an opener. -/
lemma Spells.exists_opens {kind : Segment.Kind} {text : List α} {next : Option α}
    (h : Spells mark d kind text next) (hk : kind ≠ .bare) :
    ∃ o, kindOf o = kind ∧ Opens mark d o text := by
  cases h with
  | bare => exact absurd rfl hk
  | closedLiteral => exact ⟨_, rfl, .quote _ _⟩
  | openLiteral => exact ⟨_, rfl, .quote _ _⟩
  | openEscape => exact ⟨_, rfl, .quote _ _⟩
  | line ho => exact ⟨_, rfl, ho⟩
  | closedBlock => exact ⟨_, rfl, .block _⟩
  | openBlock => exact ⟨_, rfl, .block _⟩

lemma Spells.ne_nil {kind : Segment.Kind} {text : List α} {next : Option α}
    (h : Spells mark d kind text next) : text ≠ [] := by
  by_cases hk : kind = .bare
  · subst hk
    cases h with
    | bare hne _ => exact hne
  · obtain ⟨o, -, ho⟩ := h.exists_opens hk
    exact ho.ne_nil

/-- No opener starts inside a bare stretch. -/
lemma Spells.not_opens {a b rest : List α} (h : Spells mark d .bare (a ++ b) rest.head?)
    (hb : b ≠ []) (o : Opener) : ¬ Opens mark d o (b ++ rest) := by
  generalize hn : rest.head? = next at h
  cases h with
  | bare _ hno =>
    subst hn
    rw [← opens_append_head hb]
    exact hno a b o rfl hb

/-- Two readings of a text begin with segments of the same kind. -/
lemma Spells.kind_unique (hm : Distinguishes mark) {k l : Segment.Kind} {a b s t : List α}
    (ha : Spells mark d k a s.head?) (hb : Spells mark d l b t.head?) (h : a ++ s = b ++ t) :
    k = l := by
  by_cases hk : k = .bare <;> by_cases hl : l = .bare
  · rw [hk, hl]
  · subst hk
    obtain ⟨o, -, ho⟩ := hb.exists_opens hl
    exact absurd (h ▸ ho.append t) (Spells.not_opens (a := []) ha ha.ne_nil o)
  · subst hl
    obtain ⟨o, -, ho⟩ := ha.exists_opens hk
    exact absurd (h ▸ ho.append s) (Spells.not_opens (a := []) hb hb.ne_nil o)
  · obtain ⟨o, rfl, ho⟩ := ha.exists_opens hk
    obtain ⟨o', rfl, ho'⟩ := hb.exists_opens hl
    have := ho.append s
    rw [h] at this
    rw [this.unique hm (ho'.append t)]

/-- Behind a bare piece of separated pieces there is the end or an opener. -/
lemma Lexes.opens_of_bare {p : Piece α} {ps : List (Piece α)} (h : Lexes mark d ps)
    (hs : Separated (p :: ps)) (hp : p.kind = .bare) (hne : textOf ps ≠ []) :
    ∃ o, Opens mark d o (textOf ps) := by
  cases ps with
  | nil => exact absurd rfl hne
  | cons q ps =>
    have hq : q.kind ≠ .bare := fun hq => (List.isChain_cons_cons.1 hs).1 ⟨hp, hq⟩
    obtain ⟨o, -, ho⟩ := h.1.exists_opens hq
    exact ⟨o, ho.append _⟩

/-- Of two readings of a text that begin with bare pieces, neither has the shorter one. -/
lemma Lexes.bare_prefix {p q : Piece α} {ps qs : List (Piece α)} (hp : Lexes mark d (p :: ps))
    (hq : Lexes mark d (q :: qs)) (hqs : Separated (q :: qs)) (hpk : p.kind = .bare)
    (hqk : q.kind = .bare) (h : textOf (p :: ps) = textOf (q :: qs)) : p.text <+: q.text := by
  rw [textOf_cons, textOf_cons] at h
  rcases List.append_eq_append_iff.1 h with ⟨c, e, -⟩ | ⟨c, e, e'⟩
  · exact ⟨c, e.symm⟩
  · by_cases hc : c = []
    · simp [e, hc]
    · have hsp := hp.1
      rw [hpk, e] at hsp
      obtain ⟨o, ho⟩ := hq.2.opens_of_bare hqs hqk (by simp [e', hc])
      exact absurd (e' ▸ ho) (hsp.not_opens hc o)

/-- Two readings of a text begin with the same piece. -/
lemma Lexes.head_unique (hm : Distinguishes mark) {p q : Piece α} {ps qs : List (Piece α)}
    (hp : Lexes mark d (p :: ps)) (hps : Separated (p :: ps)) (hq : Lexes mark d (q :: qs))
    (hqs : Separated (q :: qs)) (h : textOf (p :: ps) = textOf (q :: qs)) : p = q := by
  have hpq := hp.bare_prefix hq hqs
  have hqp := hq.bare_prefix hp hps
  have hp := hp.1
  have hq := hq.1
  have hk : p.kind = q.kind := hp.kind_unique hm hq h
  obtain ⟨k, a⟩ := p
  obtain ⟨l, b⟩ := q
  obtain rfl : k = l := hk
  suffices a = b by rw [this]
  cases k with
  | bare => exact (hpq rfl rfl h).eq_of_length_le (hqp rfl rfl h.symm).length_le
  | literal => exact hp.literal_unique hm hq h
  | comment => exact hp.comment_unique hm hq h

/-- **A text is cut in one way only.** -/
theorem Lexes.unique (hm : Distinguishes mark) {ps qs : List (Piece α)} (hp : Lexes mark d ps)
    (hps : Separated ps) (hq : Lexes mark d qs) (hqs : Separated qs)
    (h : textOf ps = textOf qs) : ps = qs := by
  induction ps generalizing qs with
  | nil =>
    cases qs with
    | nil => rfl
    | cons q qs => exact absurd (List.append_eq_nil_iff.1 h.symm).1 hq.1.ne_nil
  | cons p ps ih =>
    cases qs with
    | nil => exact absurd (List.append_eq_nil_iff.1 h).1 hp.1.ne_nil
    | cons q qs =>
      obtain rfl := hp.head_unique hm hps hq hqs h
      rw [ih hp.2 hps.tail hq.2 hqs.tail (List.append_cancel_left h)]

lemma Lexes.text_ne_nil {ps : List (Piece α)} (h : Lexes mark d ps) : ∀ p ∈ ps, p.text ≠ [] := by
  induction ps with
  | nil => exact fun _ hp => absurd hp List.not_mem_nil
  | cons q ps ih =>
    intro p hp
    rcases List.mem_cons.1 hp with rfl | hp
    · exact h.1.ne_nil
    · exact ih h.2 p hp

lemma Lexes.of_append {ps qs : List (Piece α)} (h : Lexes mark d (ps ++ qs)) : Lexes mark d qs := by
  induction ps with
  | nil => exact h
  | cons p ps ih => exact ih h.2

/-! ### Bare pieces side by side -/

/-- The pieces, where bare ones that stand side by side are made one. -/
def join : List (Piece α) → List (Piece α)
  | [] => []
  | p :: ps =>
    match join ps with
    | [] => [p]
    | q :: qs =>
      if p.kind = .bare ∧ q.kind = .bare then ⟨.bare, p.text ++ q.text⟩ :: qs else p :: q :: qs

@[simp] theorem textOf_join (ps : List (Piece α)) : textOf (join ps) = textOf ps := by
  induction ps with
  | nil => rfl
  | cons p ps ih =>
    rw [textOf_cons, ← ih]
    simp only [join]
    cases join ps with
    | nil => rfl
    | cons q qs =>
      dsimp only
      split <;> simp

theorem separated_join (ps : List (Piece α)) : Separated (join ps) := by
  induction ps with
  | nil => exact .nil
  | cons p ps ih =>
    simp only [join]
    cases hj : join ps with
    | nil => exact .singleton p
    | cons q qs =>
      rw [hj] at ih
      dsimp only
      split
      · next h =>
        cases qs with
        | nil => exact .singleton _
        | cons r rs =>
          refine List.isChain_cons_cons.2 ⟨fun hr => ?_, ih.tail⟩
          exact (List.isChain_cons_cons.1 ih).1 ⟨h.2, hr.2⟩
      · next h => exact List.isChain_cons_cons.2 ⟨h, ih⟩

/-- Bare texts side by side are one. -/
lemma Spells.bare_append {a b rest : List α}
    (ha : Spells mark d .bare a (b ++ rest).head?) (hb : Spells mark d .bare b rest.head?) :
    Spells mark d .bare (a ++ b) rest.head? := by
  refine .bare (by simp [ha.ne_nil]) fun x y o e hy => ?_
  rw [opens_append_head hy]
  rcases List.append_eq_append_iff.1 e with ⟨c, rfl, rfl⟩ | ⟨c, rfl, rfl⟩
  · exact hb.not_opens hy o
  · by_cases hc : c = []
    · subst hc
      simpa using Spells.not_opens (a := []) hb hb.ne_nil o
    · simpa using ha.not_opens hc o

theorem Lexes.join {ps : List (Piece α)} (h : Lexes mark d ps) : Lexes mark d (join ps) := by
  induction ps with
  | nil => trivial
  | cons p ps ih =>
    have hp := h.1
    rw [← textOf_join] at hp
    have ih := ih h.2
    simp only [Grammar.join]
    cases hj : Grammar.join ps with
    | nil => exact ⟨by rwa [hj] at hp, trivial⟩
    | cons q qs =>
      rw [hj] at ih hp
      dsimp only
      split
      · next hk =>
        have hq := ih.1
        rw [hk.1] at hp
        rw [hk.2] at hq
        exact ⟨hp.bare_append hq, ih.2⟩
      · exact ⟨hp, ih⟩

end QueryGuard.Grammar
