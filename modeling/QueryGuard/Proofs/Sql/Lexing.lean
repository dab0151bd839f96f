import Mathlib.Data.List.TakeWhile
import QueryGuard.Proofs.Sql.Grammar
import QueryGuard.Sql.SqlText

/-!
Segments and the lexical grammar. The segments of a text are the pieces into which the grammar cuts
its characters, each at its place. So the segments of a text that is put together from pieces are
known without scanning it, and bare pieces that stand side by side are one segment.
-/

namespace QueryGuard

open Grammar

variable {d : Dialect}

/-! ### The length of a stretch -/

lemma Text.take_length_takeWhile (p : Char → Bool) (cs : List Char) :
    cs.take (cs.takeWhile p).length = cs.takeWhile p :=
  (List.prefix_iff_eq_take.1 (List.takeWhile_prefix p)).symm

lemma Text.drop_length_takeWhile (p : Char → Bool) (cs : List Char) :
    cs.drop (cs.takeWhile p).length = cs.dropWhile p := by
  have h : (cs.takeWhile p ++ cs.dropWhile p).drop (cs.takeWhile p).length = cs.dropWhile p :=
    List.drop_left
  rwa [List.takeWhile_append_dropWhile] at h

lemma Text.takeWhile_append_cons {p : Char → Bool} {c : Char} (hc : p c = false)
    (as bs : List Char) : (as ++ c :: bs).takeWhile p = as.takeWhile p := by
  induction as with
  | nil => simp [hc]
  | cons a as ih => rw [List.cons_append, List.takeWhile_cons, List.takeWhile_cons, ih]

lemma Text.dropWhile_append_cons {p : Char → Bool} {c : Char} (hc : p c = false)
    (as bs : List Char) : (as ++ c :: bs).dropWhile p = as.dropWhile p ++ c :: bs := by
  induction as with
  | nil => simp [hc]
  | cons a as ih =>
    rw [List.cons_append, List.dropWhile_cons, List.dropWhile_cons, ih]
    split <;> rfl

/-! ### What opens a segment -/

theorem Dialect.opener?_eq_some {o : Opener} {cs : List Char} :
    d.opener? cs = some o ↔ Opens id d o cs := by
  constructor
  · intro h
    cases cs with
    | nil => simp [Dialect.opener?] at h
    | cons c cs =>
      -- a quote is looked for first, then dashes, a block and a hash
      simp only [Dialect.opener?] at h
      split at h
      · next q hq =>
        obtain rfl := Quote.ofChar?_eq_some.1 hq
        cases h
        exact .quote q cs
      · split at h
        · next hc =>
          obtain ⟨rfl, hc⟩ := hc
          obtain ⟨cs, rfl⟩ := List.head?_eq_some_iff.1 hc
          cases h
          exact .dashes cs
        · split at h
          · next hc =>
            obtain ⟨rfl, hc⟩ := hc
            obtain ⟨cs, rfl⟩ := List.head?_eq_some_iff.1 hc
            cases h
            exact .block cs
          · split at h
            · next hc =>
              obtain ⟨rfl, hd⟩ := hc
              cases h
              exact .hash cs hd
            · cases h
  · intro h
    cases h with
    | quote q cs => simp [Dialect.opener?]
    | dashes cs => rfl
    | hash cs hd => simp [Dialect.opener?, hd]; decide
    | block cs => rfl

theorem Dialect.opener?_eq_none {cs : List Char} :
    d.opener? cs = none ↔ ∀ o, ¬ Opens id d o cs := by
  rw [Option.eq_none_iff_forall_ne_some]
  exact forall_congr' fun o => not_congr Dialect.opener?_eq_some

/-! ### Segments are what the grammar says -/

lemma not_opens_of_lt_bareLength {a b : List Char} (h : a.length < d.bareLength (a ++ b))
    (o : Opener) : ¬ Opens id d o b := by
  induction a with
  | nil =>
    cases b with
    | nil => simp [Dialect.bareLength] at h
    | cons c b =>
      rw [List.nil_append, Dialect.bareLength] at h
      split at h
      · simp at h
      · next hb => exact Dialect.opener?_eq_none.1 (by simpa using hb) o
  | cons x a ih =>
    rw [List.cons_append, Dialect.bareLength] at h
    split at h
    · simp at h
    · exact ih (by simpa using h)

lemma drop_bareLength (d : Dialect) (cs : List Char) :
    cs.drop (d.bareLength cs) = [] ∨ ∃ o, Opens id d o (cs.drop (d.bareLength cs)) := by
  induction cs with
  | nil => exact .inl rfl
  | cons c cs ih =>
    rw [Dialect.bareLength]
    split
    · next h =>
      obtain ⟨o, ho⟩ := Option.isSome_iff_exists.1 h
      exact .inr ⟨o, Dialect.opener?_eq_some.1 ho⟩
    · simpa using ih

lemma spells_bare {c : Char} {cs : List Char} (h : d.opener? (c :: cs) = none) :
    Spells id d .bare (c :: cs.take (d.bareLength cs)) (cs.drop (d.bareLength cs)).head? := by
  refine .bare (List.cons_ne_nil _ _) fun a b o e hb => ?_
  rw [opens_append_head hb]
  cases a with
  | nil =>
    obtain rfl : _ = b := e
    simpa using Dialect.opener?_eq_none.1 h o
  | cons x a =>
    rw [List.cons_append, List.cons.injEq] at e
    have hcs : a ++ (b ++ cs.drop (d.bareLength cs)) = cs := by
      rw [← List.append_assoc, ← e.2, List.take_append_drop]
    refine not_opens_of_lt_bareLength (a := a) ?_ o
    have hlen := congrArg List.length e.2
    have hpos := List.length_pos_of_ne_nil hb
    simp only [List.length_take, List.length_append] at hlen
    rw [hcs]
    omega

/-- What a literal reaches through is a body and what closes it. -/
lemma exists_body_take_bodyLength (d : Dialect) (q : Quote) (cs : List Char) :
    ∃ body close, cs.take (d.bodyLength q cs) = body ++ close ∧ Body id d q body ∧
      BodyEnd id d q (close ++ cs.drop (d.bodyLength q cs)) ∧
      (close = [q.char] ∨ cs.drop (d.bodyLength q cs) = [] ∧ close.head? ≠ some q.char) := by
  have hq := (quote_ne q).2.2.2
  fun_induction d.bodyLength q cs with
  | case1 => exact ⟨[], [], rfl, .nil, .inl rfl, .inr ⟨rfl, by simp⟩⟩
  | case2 c =>
    by_cases hc : c = q.char
    · subst hc
      exact ⟨[], [q.char], rfl, .nil, .inr (.inr ⟨[], rfl, by simp⟩), .inl rfl⟩
    · by_cases he : c = '\\' ∧ d.escapes q
      · obtain ⟨rfl, he⟩ := he
        exact ⟨[], ['\\'], rfl, .nil, .inr (.inl ⟨he, rfl⟩), .inr ⟨rfl, by simpa using hc⟩⟩
      · exact ⟨[c], [], rfl, .cons (.plain c hc he) .nil, .inl rfl, .inr ⟨rfl, by simp⟩⟩
  | case3 c e cs he ih =>
    obtain ⟨body, close, h1, h2, h3, h4⟩ := ih
    obtain ⟨rfl, he⟩ := he
    exact ⟨'\\' :: e :: body, close, by simp [h1], .cons (.escaped e he) h2, h3, h4⟩
  | case4 cs _ ih =>
    obtain ⟨body, close, h1, h2, h3, h4⟩ := ih
    exact ⟨q.char :: q.char :: body, close, by simp [h1], .cons .doubled h2, h3, h4⟩
  | case5 e cs he _ =>
    exact ⟨[], [q.char], rfl, .nil, .inr (.inr ⟨e :: cs, rfl, by simpa using he⟩), .inl rfl⟩
  | case6 c e cs he hc ih =>
    obtain ⟨body, close, h1, h2, h3, h4⟩ := ih
    exact ⟨c :: body, close, by simp [h1], .cons (.plain c hc he) h2, h3, h4⟩

lemma spells_of_body {q : Quote} {body close rest : List Char} (hb : Body id d q body)
    (he : BodyEnd id d q (close ++ rest))
    (hc : close = [q.char] ∨ rest = [] ∧ close.head? ≠ some q.char) :
    Spells id d .literal (q.char :: (body ++ close)) rest.head? := by
  have hq := (quote_ne q).2.2.2
  rcases hc with rfl | ⟨rfl, hc⟩
  · rcases he with he | ⟨-, he⟩ | ⟨r, he, hr⟩
    · simp at he
    · exact absurd (List.cons.inj he).1 hq
    · obtain rfl : rest = r := (List.cons.inj he).2
      exact .closedLiteral hb hr
  · rw [List.append_nil] at he
    rcases he with rfl | ⟨hd, rfl⟩ | ⟨r, rfl, -⟩
    · rw [List.append_nil]
      exact .openLiteral hb
    · exact .openEscape hd hb
    · exact absurd rfl hc

lemma spells_literal (d : Dialect) (q : Quote) (cs : List Char) :
    Spells id d .literal (q.char :: cs.take (d.bodyLength q cs))
      (cs.drop (d.bodyLength q cs)).head? := by
  obtain ⟨body, close, h, hb, he, hc⟩ := exists_body_take_bodyLength d q cs
  rw [h]
  exact spells_of_body hb he hc

lemma spells_line {c : Char} {cs : List Char} (h : Opens id d .line (c :: cs)) :
    Spells id d .comment (c :: cs.take (lineLength cs)) (cs.drop (lineLength cs)).head? := by
  have hc : '\n' ≠ c := by cases h <;> decide
  rw [lineLength, Text.take_length_takeWhile, Text.drop_length_takeWhile]
  refine .line ?_ ?_ ?_
  · cases h with
    | dashes cs => simpa using .dashes _
    | hash cs hd => exact .hash _ hd
  · simp only [id, List.mem_cons, not_or]
    exact ⟨hc, fun hn => by simpa using List.mem_takeWhile_imp hn⟩
  · intro x hx
    have := List.head?_dropWhile_not (· ≠ '\n') cs
    rw [Option.mem_def.1 hx] at this
    simpa using this

/-- What a block comment reaches through behind its opening is free of `*/` up to its end. -/
lemma exists_body_take_blockLength (cs : List Char) :
    ∃ body close, cs.take (blockLength cs) = body ++ close ∧ ¬ ['*', '/'] <:+: body ∧
      (close = ['*', '/'] ∨ close = [] ∧ cs.drop (blockLength cs) = []) := by
  fun_induction blockLength cs with
  | case1 => exact ⟨[], [], rfl, by simp, .inr ⟨rfl, rfl⟩⟩
  | case2 c => exact ⟨[c], [], rfl, fun h => by simpa using h.length_le, .inr ⟨rfl, rfl⟩⟩
  | case3 c e cs h => exact ⟨[], ['*', '/'], by simp [h], by simp, .inl rfl⟩
  | case4 c e cs h ih =>
    obtain ⟨body, close, h1, h2, h3⟩ := ih
    refine ⟨c :: body, close, by simp [h1], ?_, h3⟩
    rw [List.infix_cons_iff]
    rintro (⟨r, hp⟩ | hi)
    · obtain ⟨rfl, rfl⟩ : '*' = c ∧ '/' :: r = body := by simpa using hp
      have he : (e :: cs).head? = some '/' := by
        rw [← List.take_append_drop (blockLength (e :: cs)) (e :: cs), h1]
        rfl
      exact h ⟨rfl, by simpa using he⟩
    · exact h2 hi

lemma spells_block (d : Dialect) (cs : List Char) :
    Spells id d .comment ('/' :: '*' :: cs.take (blockLength cs))
      (cs.drop (blockLength cs)).head? := by
  obtain ⟨body, close, h, hb, hc⟩ := exists_body_take_blockLength cs
  rw [h]
  rcases hc with rfl | ⟨rfl, hc⟩
  · exact .closedBlock hb
  · rw [hc, List.append_nil]
    exact .openBlock hb

/-- The segment that a text begins with is what the grammar says. -/
theorem spells_segmentHead (d : Dialect) (c : Char) (cs : List Char) :
    Spells id d (d.segmentHead c cs).1 (c :: cs.take (d.segmentHead c cs).2)
      (cs.drop (d.segmentHead c cs).2).head? := by
  unfold Dialect.segmentHead
  split
  · next h => exact spells_bare h
  · next q h =>
    cases Dialect.opener?_eq_some.1 h
    exact spells_literal d q cs
  · next h => exact spells_line (Dialect.opener?_eq_some.1 h)
  · next h =>
    cases Dialect.opener?_eq_some.1 h
    simpa using spells_block d _

/-! ### Segments and pieces -/

/-- The segment without its place. -/
def Segment.piece (s : Segment) : Piece Char := ⟨s.kind, s.text⟩

/-- The pieces, one after the other from byte `start`, as segments. -/
def Segment.place (start : Nat) : List (Piece Char) → List Segment
  | [] => []
  | p :: ps => ⟨p.kind, start, p.text⟩ :: place (start + Text.width p.text) ps

@[simp] lemma Segment.place_nil (start : Nat) : place start [] = [] := rfl

@[simp] lemma Segment.place_cons (start : Nat) (p : Piece Char) (ps : List (Piece Char)) :
    place start (p :: ps) =
      ⟨p.kind, start, p.text⟩ :: place (start + Text.width p.text) ps := rfl

lemma Segment.place_append (start : Nat) (ps qs : List (Piece Char)) :
    place start (ps ++ qs) =
      place start ps ++ place (start + Text.width (textOf ps)) qs := by
  induction ps generalizing start with
  | nil => simp
  | cons p ps ih => simp [ih, Nat.add_assoc]

lemma textOf_map_piece (ss : List Segment) :
    textOf (ss.map Segment.piece) = ss.flatMap Segment.text := by
  induction ss with
  | nil => rfl
  | cons s ss ih => simp [ih, Segment.piece]

lemma place_map_piece_segmentsFrom (d : Dialect) (start : Nat) (cs : List Char) :
    Segment.place start ((d.segmentsFrom start cs).map Segment.piece) =
      d.segmentsFrom start cs := by
  fun_induction d.segmentsFrom start cs with
  | case1 => rfl
  | case2 start c cs kind n _ text ih =>
    rw [List.map_cons, Segment.place_cons]
    exact congrArg _ ih

/-- **The segments of a text are what the grammar says.** -/
theorem lexes_segmentsFrom (d : Dialect) (start : Nat) (cs : List Char) :
    Lexes id d ((d.segmentsFrom start cs).map Segment.piece) := by
  fun_induction d.segmentsFrom start cs with
  | case1 => trivial
  | case2 start c cs kind n hn text ih =>
    refine ⟨?_, ih⟩
    rw [textOf_map_piece, Dialect.flatMap_text_segmentsFrom]
    have h := spells_segmentHead d c cs
    rwa [hn] at h

lemma segmentHead_eq_bare {c : Char} {cs : List Char} (h : (d.segmentHead c cs).1 = .bare) :
    d.opener? (c :: cs) = none ∧ (d.segmentHead c cs).2 = d.bareLength cs := by
  unfold Dialect.segmentHead at h ⊢
  split at h
  · next ho => exact ⟨ho, rfl⟩
  · cases h
  · cases h
  · cases h

/-- Behind a bare segment there is another kind of segment, if any. -/
lemma separated_segmentsFrom (d : Dialect) (start : Nat) (cs : List Char) :
    Separated ((d.segmentsFrom start cs).map Segment.piece) := by
  fun_induction d.segmentsFrom start cs with
  | case1 => exact .nil
  | case2 start c cs kind n hn text ih =>
    refine List.isChain_cons.2 ⟨fun q hq => ?_, ih⟩
    rintro ⟨hk, hqk⟩
    have hh : (d.segmentHead c cs).1 = .bare := by rw [hn]; exact hk
    have hb := (segmentHead_eq_bare hh).2
    obtain rfl : n = d.bareLength cs := by rw [← hb, hn]
    cases hr : cs.drop (d.bareLength cs) with
    | nil => simp [hr, Dialect.segmentsFrom_nil] at hq
    | cons x r =>
      rw [hr, Dialect.segmentsFrom_cons] at hq
      obtain rfl : _ = q := by simpa using hq
      rcases drop_bareLength d cs with h | ⟨o, ho⟩
      · simp [hr] at h
      · have hx := (segmentHead_eq_bare hqk).1
        exact Dialect.opener?_eq_none.1 hx o (hr ▸ ho)

/-- **The segments of a text that is put together from pieces are these pieces.** -/
theorem segmentsFrom_textOf {ps : List (Piece Char)} (h : Lexes id d ps) (hs : Separated ps)
    (start : Nat) : d.segmentsFrom start (textOf ps) = Segment.place start ps := by
  have e : (d.segmentsFrom start (textOf ps)).map Segment.piece = ps :=
    (lexes_segmentsFrom d start _).unique distinguishes_id (separated_segmentsFrom d start _) h hs
      (by rw [textOf_map_piece, Dialect.flatMap_text_segmentsFrom])
  rw [← place_map_piece_segmentsFrom, e]

/-- The segments of a text that is put together from pieces of which bare ones may stand side by
side. -/
theorem segmentsFrom_textOf_join {ps : List (Piece Char)} (h : Lexes id d ps) (start : Nat) :
    d.segmentsFrom start (textOf ps) = Segment.place start (join ps) := by
  rw [← textOf_join, segmentsFrom_textOf h.join (separated_join ps)]

/-! ### The pieces of a text -/

namespace SqlText

/-- The text is put together from the pieces, and these are what the grammar cuts it into. -/
structure CutInto (t : SqlText) (ps : List (Piece Char)) : Prop where
  lexes : Lexes id t.dialect ps
  separated : Separated ps
  chars : t.chars = textOf ps

theorem exists_cutInto (t : SqlText) : ∃ ps, t.CutInto ps :=
  ⟨(t.dialect.segments t.chars).map Segment.piece, lexes_segmentsFrom t.dialect 0 t.chars,
    separated_segmentsFrom t.dialect 0 t.chars, by
      rw [textOf_map_piece, Dialect.flatMap_text_segments]⟩

theorem CutInto.segments {t : SqlText} {ps : List (Piece Char)} (h : t.CutInto ps) :
    t.segments = Segment.place 0 ps := by
  rw [SqlText.segments, Dialect.segments, h.chars, segmentsFrom_textOf h.lexes h.separated]

end SqlText

end QueryGuard
