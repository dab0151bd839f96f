import QueryGuard.Proofs.Sql.Lexeme
import QueryGuard.Proofs.Sql.Masking

/-!
A text as lexemes. A text is read as white space, tokens of bare SQL, literals and comments, one
after the other, and every text is read so. Main statement: the tokens, the placeholders and the
masked form of a text are put together from those of its lexemes.
-/

namespace QueryGuard

open Grammar

/-- White space or a token of a bare stretch, a literal, or a comment. -/
structure Lexeme where
  kind : Segment.Kind
  token? : Option Token.Kind
  text : List Char

namespace Lexeme

/-- The character that stands in front of what follows in the same bare stretch. -/
def last? (l : Lexeme) : Option Char := if l.kind = .bare then l.text.getLast? else none

/-- The text of the lexeme, with blanks for a comment. -/
def mask (l : Lexeme) : List Char :=
  if l.kind = .comment then List.replicate (Text.width l.text) ' ' else l.text

def textOf (ls : List Lexeme) : List Char := ls.flatMap text

def maskOf (ls : List Lexeme) : List Char := ls.flatMap mask

/-- The token that the lexeme is, at byte `pos`. -/
def tokenAt (pos : Nat) (l : Lexeme) : Option Token := l.token?.map fun kind => ⟨kind, pos, l.text⟩

/-- The tokens of lexemes of which the first stands at byte `pos`. -/
def tokens (pos : Nat) : List Lexeme → List Token
  | [] => []
  | l :: ls => (l.tokenAt pos).toList ++ tokens (pos + Text.width l.text) ls

/-- The character in front of what follows the lexemes. -/
def after (before : Option Char) : List Lexeme → Option Char
  | [] => before
  | l :: ls => after l.last? ls

/-- The lexeme is read where `before` stands in front of it and `rest` behind it. -/
inductive Reads (d : Dialect) (before : Option Char) (rest : List Char) : Lexeme → Prop where
  | bare {c : Char} {cs : List Char} {token? : Option Token.Kind} :
      d.opener? (c :: (cs ++ rest)) = none →
      Token.lexeme before c (cs ++ rest) = (token?, cs.length) →
      Reads d before rest ⟨.bare, token?, c :: cs⟩
  | literal {text : List Char} : Spells id d .literal text rest.head? →
      Reads d before rest ⟨.literal, some (Token.literalKind d text.head?), text⟩
  | comment {text : List Char} : Spells id d .comment text rest.head? →
      Reads d before rest ⟨.comment, none, text⟩

/-- The lexemes are read one after the other in front of `rest`. -/
def Reading (d : Dialect) (rest : List Char) : Option Char → List Lexeme → Prop
  | _, [] => True
  | before, l :: ls => Reads d before (textOf ls ++ rest) l ∧ Reading d rest l.last? ls

variable {d : Dialect} {l : Lexeme} {ls ls' : List Lexeme} {before : Option Char}
  {rest : List Char}

@[simp] lemma textOf_nil : textOf [] = [] := rfl

@[simp] lemma textOf_cons (l : Lexeme) (ls : List Lexeme) :
    textOf (l :: ls) = l.text ++ textOf ls := rfl

@[simp] lemma textOf_append (ls ls' : List Lexeme) :
    textOf (ls ++ ls') = textOf ls ++ textOf ls' := List.flatMap_append

@[simp] lemma maskOf_cons (l : Lexeme) (ls : List Lexeme) :
    maskOf (l :: ls) = l.mask ++ maskOf ls := rfl

@[simp] lemma maskOf_append (ls ls' : List Lexeme) :
    maskOf (ls ++ ls') = maskOf ls ++ maskOf ls' := List.flatMap_append

@[simp] lemma tokens_nil (pos : Nat) : tokens pos [] = [] := rfl

lemma tokens_cons (pos : Nat) (l : Lexeme) (ls : List Lexeme) : tokens pos (l :: ls) =
    (l.tokenAt pos).toList ++ tokens (pos + Text.width l.text) ls := rfl

lemma tokens_append (pos : Nat) (ls ls' : List Lexeme) : tokens pos (ls ++ ls') =
    tokens pos ls ++ tokens (pos + Text.width (textOf ls)) ls' := by
  induction ls generalizing pos with
  | nil => rfl
  | cons l ls ih =>
    rw [List.cons_append, tokens_cons, tokens_cons, ih, textOf_cons, Text.width_append,
      List.append_assoc, Nat.add_assoc]

lemma after_append (before : Option Char) (ls ls' : List Lexeme) :
    after before (ls ++ ls') = after (after before ls) ls' := by
  induction ls generalizing before with
  | nil => rfl
  | cons l ls ih => exact ih l.last?

lemma reading_append : Reading d rest before (ls ++ ls') ↔
    Reading d (textOf ls' ++ rest) before ls ∧ Reading d rest (after before ls) ls' := by
  induction ls generalizing before with
  | nil => simp [Reading, after]
  | cons l ls ih =>
    rw [List.cons_append, Reading, ih, textOf_append, List.append_assoc, Reading, after, and_assoc]

lemma width_mask (l : Lexeme) : Text.width l.mask = Text.width l.text := by
  unfold mask
  split
  · exact width_replicate_blank _
  · rfl

lemma width_maskOf (ls : List Lexeme) : Text.width (maskOf ls) = Text.width (textOf ls) := by
  induction ls with
  | nil => rfl
  | cons l ls ih =>
    rw [maskOf_cons, Text.width_append, width_mask, ih, textOf_cons, Text.width_append]

lemma Reads.text_ne_nil (h : l.Reads d before rest) : l.text ≠ [] := by
  cases h with
  | bare => exact List.cons_ne_nil _ _
  | literal hs => exact hs.ne_nil
  | comment hs => exact hs.ne_nil

/-! ### Places of tokens -/

section Places

variable {pos : Nat} {t : Token}

lemma mem_tokens_head (h : l.tokenAt pos = some t) : t ∈ tokens pos (l :: ls) := by
  rw [tokens_cons, h]
  exact List.mem_cons_self

lemma start_le_of_mem_tokens (h : t ∈ tokens pos ls) : pos ≤ t.start := by
  induction ls generalizing pos with
  | nil => exact absurd h List.not_mem_nil
  | cons l ls ih =>
    rw [tokens_cons] at h
    rcases List.mem_append.1 h with h | h
    · obtain ⟨kind, -, rfl⟩ := Option.map_eq_some_iff.1 (Option.mem_toList.1 h)
      exact Nat.le_refl pos
    · have := ih h
      omega

/-- Tokens stand one behind the other. -/
lemma pairwise_stop_tokens (pos : Nat) (ls : List Lexeme) :
    (tokens pos ls).Pairwise fun a b => a.stop ≤ b.start := by
  induction ls generalizing pos with
  | nil => exact .nil
  | cons l ls ih =>
    rw [tokens_cons]
    cases ht : l.tokenAt pos with
    | none => exact ih _
    | some t =>
      refine List.pairwise_cons.2 ⟨fun u hu => ?_, ih _⟩
      obtain ⟨kind, -, rfl⟩ := Option.map_eq_some_iff.1 ht
      exact start_le_of_mem_tokens hu

lemma pairwise_start_tokens (pos : Nat) (ls : List Lexeme) :
    (tokens pos ls).Pairwise fun a b => a.start ≤ b.start :=
  (pairwise_stop_tokens pos ls).imp fun h => (Nat.le_add_right _ _).trans h

lemma stop_of_mem_tokens (hne : ∀ l ∈ ls, l.text ≠ []) (h : t ∈ tokens pos ls) :
    t.start < t.stop ∧ t.stop ≤ pos + Text.width (textOf ls) := by
  induction ls generalizing pos with
  | nil => exact absurd h List.not_mem_nil
  | cons l ls ih =>
    have hl := Text.width_pos (hne l List.mem_cons_self)
    rw [textOf_cons, Text.width_append]
    rw [tokens_cons] at h
    rcases List.mem_append.1 h with h | h
    · obtain ⟨kind, -, rfl⟩ := Option.map_eq_some_iff.1 (Option.mem_toList.1 h)
      simp only [Token.stop]
      omega
    · have := ih (fun k hk => hne k (List.mem_cons_of_mem _ hk)) h
      omega

lemma exists_lexeme_of_mem_tokens (h : t ∈ tokens pos ls) :
    ∃ l ∈ ls, l.token? = some t.kind ∧ l.text = t.text := by
  induction ls generalizing pos with
  | nil => exact absurd h List.not_mem_nil
  | cons l ls ih =>
    rw [tokens_cons] at h
    rcases List.mem_append.1 h with h | h
    · obtain ⟨kind, hk, rfl⟩ := Option.map_eq_some_iff.1 (Option.mem_toList.1 h)
      exact ⟨l, List.mem_cons_self, hk, rfl⟩
    · obtain ⟨m, hm, h⟩ := ih h
      exact ⟨m, List.mem_cons_of_mem _ hm, h⟩

end Places

/-! ### Every text is read -/

/-- **Every text is read as lexemes**, whatever stands in front of it. -/
theorem exists_reading (d : Dialect) (before : Option Char) :
    ∀ cs : List Char, ∃ ls, textOf ls = cs ∧ Reading d [] before ls
  | [] => ⟨[], rfl, trivial⟩
  | c :: cs => by
    by_cases ho : d.opener? (c :: cs) = none
    · -- a lexeme of a bare stretch
      have hle := Token.lexeme_length_le before c cs
      have htake : (cs.take (Token.lexeme before c cs).2).length = (Token.lexeme before c cs).2 :=
        List.length_take_of_le hle
      obtain ⟨ls, hls, hr⟩ := exists_reading d
        (c :: cs.take (Token.lexeme before c cs).2).getLast? (cs.drop (Token.lexeme before c cs).2)
      have hcs : cs.take (Token.lexeme before c cs).2 ++ textOf ls = cs := by
        rw [hls, List.take_append_drop]
      refine ⟨⟨.bare, (Token.lexeme before c cs).1,
        c :: cs.take (Token.lexeme before c cs).2⟩ :: ls, ?_, ?_, hr⟩
      · rw [textOf_cons, List.cons_append, hcs]
      · refine .bare ?_ ?_
        · rwa [List.append_nil, hcs]
        · rw [List.append_nil, hcs, htake]
    -- a literal or a comment, with nothing in front of what follows
    · have hsp := spells_segmentHead d c cs
      have hk : (d.segmentHead c cs).1 ≠ .bare := fun hk => ho (segmentHead_eq_bare hk).1
      obtain ⟨ls, hls, hr⟩ := exists_reading d none (cs.drop (d.segmentHead c cs).2)
      have hcs : c :: cs.take (d.segmentHead c cs).2 ++ textOf ls = c :: cs := by
        rw [hls, List.cons_append, List.take_append_drop]
      rw [← hls, ← List.append_nil (textOf ls)] at hsp
      cases hkind : (d.segmentHead c cs).1 with
      | bare => exact absurd hkind hk
      | literal =>
        rw [hkind] at hsp
        exact ⟨⟨.literal, _, c :: cs.take (d.segmentHead c cs).2⟩ :: ls, hcs, .literal hsp, hr⟩
      | comment =>
        rw [hkind] at hsp
        exact ⟨⟨.comment, _, c :: cs.take (d.segmentHead c cs).2⟩ :: ls, hcs, .comment hsp, hr⟩
  termination_by cs => cs.length
  decreasing_by all_goals simp only [List.length_drop, List.length_cons]; omega

/-! ### Segments of lexemes -/

lemma segmentsFrom_append_of_spells {k : Segment.Kind} {text : List Char}
    (h : Spells id d k text rest.head?) (hk : k ≠ .bare) (start : Nat) :
    d.segmentsFrom start (text ++ rest) =
      ⟨k, start, text⟩ :: d.segmentsFrom (start + Text.width text) rest := by
  have hrest : Grammar.textOf ((d.segmentsFrom 0 rest).map Segment.piece) = rest := by
    rw [textOf_map_piece, Dialect.flatMap_text_segmentsFrom]
  have hlex : Lexes id d (⟨k, text⟩ :: (d.segmentsFrom 0 rest).map Segment.piece) := by
    refine ⟨?_, lexes_segmentsFrom d 0 rest⟩
    rw [hrest]
    exact h
  have hsep : Separated (⟨k, text⟩ :: (d.segmentsFrom 0 rest).map Segment.piece) :=
    List.isChain_cons.2 ⟨fun _ _ hb => hk hb.1, separated_segmentsFrom d 0 rest⟩
  have e := segmentsFrom_textOf hlex hsep start
  have e' := segmentsFrom_textOf hlex.2 hsep.tail (start + Text.width text)
  rw [Grammar.textOf_cons, hrest] at e
  rw [hrest] at e'
  rw [e, Segment.place_cons, e']

/-- Bare text in front of segments: the first of these takes it in if it is bare. -/
lemma segmentsFrom_append_of_unopened {c : Char} {cs : List Char}
    (hc : d.opener? (c :: (cs ++ rest)) = none) (h : d.Unopened cs rest) (start : Nat) :
    (∃ s ss, d.segmentsFrom (start + Text.width (c :: cs)) rest = s :: ss ∧ s.kind = .bare ∧
        s.start = start + Text.width (c :: cs) ∧
        d.segmentsFrom start (c :: (cs ++ rest)) = ⟨.bare, start, c :: (cs ++ s.text)⟩ :: ss) ∨
      (∀ s ∈ (d.segmentsFrom (start + Text.width (c :: cs)) rest).head?, s.kind ≠ .bare) ∧
        d.segmentsFrom start (c :: (cs ++ rest)) =
          ⟨.bare, start, c :: cs⟩ :: d.segmentsFrom (start + Text.width (c :: cs)) rest := by
  have hhead : d.segmentHead c (cs ++ rest) = (.bare, cs.length + d.bareLength rest) := by
    unfold Dialect.segmentHead
    rw [hc]
    show (Segment.Kind.bare, d.bareLength (cs ++ rest)) = _
    rw [h.bareLength]
  rw [Dialect.segmentsFrom_cons d start c, hhead]
  simp only [List.take_length_add_append, List.drop_length_add_append]
  cases rest with
  | nil =>
    right
    simp [Dialect.bareLength, Dialect.segmentsFrom_nil]
  | cons e es =>
    rw [Dialect.bareLength, Dialect.segmentsFrom_cons d (start + Text.width (c :: cs)) e es]
    -- what stands behind opens a literal or a comment, or it is bare and is taken in
    cases ho : d.opener? (e :: es) with
    | some o =>
      right
      constructor
      · intro s hs
        obtain rfl := Option.some.inj hs
        exact fun hb => absurd (segmentHead_eq_bare hb).1 (by simp [ho])
      · simp [Dialect.segmentsFrom_cons]
    | none =>
      left
      have hes : d.segmentHead e es = (.bare, d.bareLength es) := by
        unfold Dialect.segmentHead
        rw [ho]
      rw [hes]
      refine ⟨_, _, rfl, rfl, rfl, ?_⟩
      simp [Text.width_append, Nat.add_assoc]

/-- The masked form of a text is that of its lexemes. -/
lemma flatMap_mask_segmentsFrom (start : Nat) (h : Reading d [] before ls) :
    (d.segmentsFrom start (textOf ls)).flatMap Segment.mask = maskOf ls := by
  induction ls generalizing before start with
  | nil => rw [textOf_nil, Dialect.segmentsFrom_nil]; rfl
  | cons l ls ih =>
    have ih := fun start => ih start h.2
    have hl := h.1
    rw [List.append_nil] at hl
    rw [textOf_cons, maskOf_cons]
    cases hl with
    | @bare c cs token? ho hlex =>
      have hin := (Token.lexeme_inside (d := d) (congrArg Prod.snd hlex)).1
      have ih := ih (start + Text.width (c :: cs))
      rw [List.cons_append]
      rcases segmentsFrom_append_of_unopened ho hin start with ⟨s, ss, e, hk, -, e'⟩ | ⟨-, e'⟩
      · rw [e, List.flatMap_cons, Segment.mask, hk] at ih
        rw [e', List.flatMap_cons, ← ih]
        simp [Segment.mask, mask]
      · rw [e', List.flatMap_cons, ih]
        rfl
    | literal hs =>
      rw [segmentsFrom_append_of_spells hs (by decide), List.flatMap_cons, ih]
      rfl
    | comment hs =>
      rw [segmentsFrom_append_of_spells hs (by decide), List.flatMap_cons, ih]
      rfl

/-! ### Tokens of lexemes -/

/-- The tokens of segments, where `before` stands in front of the first. -/
def tokensOf (d : Dialect) (before : Option Char) : List Segment → List Token
  | [] => []
  | s :: ss =>
    (if s.kind = .bare then Token.inStretch s.start before s.text else Token.ofSegment d s) ++
      ss.flatMap (Token.ofSegment d)

lemma tokensOf_eq_flatMap (ss : List Segment)
    (h : before = none ∨ ∀ s ∈ ss.head?, s.kind ≠ .bare) :
    tokensOf d before ss = ss.flatMap (Token.ofSegment d) := by
  cases ss with
  | nil => rfl
  | cons s ss =>
    rw [tokensOf, List.flatMap_cons]
    split
    · next hk =>
      rcases h with rfl | h
      · rw [Token.ofSegment, hk]
      · exact absurd hk (h s rfl)
    · rfl

lemma tokensOf_segmentsFrom (start : Nat) (h : Reading d [] before ls) :
    tokensOf d before (d.segmentsFrom start (textOf ls)) = tokens start ls := by
  induction ls generalizing before start with
  | nil => rw [textOf_nil, Dialect.segmentsFrom_nil]; rfl
  | cons l ls ih =>
    have hl := h.1
    rw [List.append_nil] at hl
    rw [textOf_cons, tokens_cons, ← ih (start + Text.width l.text) h.2]
    cases hl with
    | @bare c cs token? ho hlex =>
      -- the lexeme ends in its own text, so the stretch may go on behind it
      have hin := (Token.lexeme_inside (d := d) (congrArg Prod.snd hlex)).1
      have hstep : ∀ x y, x ++ y = textOf ls → Token.inStretch start before (c :: (cs ++ x)) =
          (tokenAt start ⟨.bare, token?, c :: cs⟩).toList ++
            Token.inStretch (start + Text.width (c :: cs)) (c :: cs).getLast? x := by
        intro x y e
        have hx : Token.lexeme before c (cs ++ x) = (token?, cs.length) := by
          rw [← hlex, ← e, ← List.append_assoc]
          refine Token.lexeme_of_append ?_
          rw [List.append_assoc, e, hlex, List.length_append]
          exact Nat.le_add_right _ _
        rw [Token.inStretch_cons, hx]
        simp [tokenAt]
      have hlast : last? ⟨.bare, token?, c :: cs⟩ = (c :: cs).getLast? := rfl
      rw [List.cons_append, hlast]
      -- either the rest goes on with the stretch, or it begins with a literal or a comment
      rcases segmentsFrom_append_of_unopened ho hin start with ⟨s, ss, e, hk, hs, e'⟩ | ⟨hb, e'⟩
      · have ht := d.flatMap_text_segmentsFrom (start + Text.width (c :: cs)) (textOf ls)
        rw [e, List.flatMap_cons] at ht
        rw [e', e, tokensOf, tokensOf, if_pos rfl, if_pos hk, hstep _ _ ht, hs, List.append_assoc]
      · have hs := hstep [] (textOf ls) rfl
        rw [List.append_nil, Token.inStretch_nil, List.append_nil] at hs
        rw [e', tokensOf, if_pos rfl, tokensOf_eq_flatMap _ (.inr hb), hs]
    | literal hs =>
      -- a literal is a segment of its own, and so is a comment
      rw [segmentsFrom_append_of_spells hs nofun, tokensOf_eq_flatMap _ (.inr ?_),
        List.flatMap_cons, ← tokensOf_eq_flatMap _ (.inl rfl)]
      · rfl
      · rintro _ ⟨⟩ hb
        cases hb
    | comment hs =>
      rw [segmentsFrom_append_of_spells hs nofun, tokensOf_eq_flatMap _ (.inr ?_),
        List.flatMap_cons, ← tokensOf_eq_flatMap _ (.inl rfl)]
      · rfl
      · rintro _ ⟨⟩ hb
        cases hb

end Lexeme

/-! ### Placeholders are tokens -/

namespace Token

/-- The style in which a placeholder is written. -/
def style (cs : List Char) : Placeholder.Style :=
  match cs with
  | ':' :: name => .named (String.ofList name)
  | _ => .positional

/-- The placeholder that the token is, with its place. -/
def placeholder? (t : Token) : Option (Placeholder.Style × Nat) :=
  if t.kind = .placeholder then some (style t.text, t.start) else none

lemma placeholder?_eq_some_iff {t : Token} {p : Placeholder.Style × Nat} :
    t.placeholder? = some p ↔ t.kind = .placeholder ∧ p = (style t.text, t.start) := by
  unfold placeholder?
  split
  · next h => simp [h, eq_comm]
  · next h => simp [h]

lemma markKind_ne_placeholder (c : Char) : markKind c ≠ .placeholder := by
  unfold markKind
  repeat' split
  all_goals decide

/-- A lexeme is a placeholder exactly where one starts. -/
lemma at?_eq_lexeme (before : Option Char) (c : Char) (cs : List Char) :
    Placeholder.at? before c cs = if (lexeme before c cs).1 = some .placeholder then
      some (style (c :: cs.take (lexeme before c cs).2)) else none := by
  cases hat : Placeholder.at? before c cs with
  | none =>
    -- no token that is not a placeholder has its kind
    have hne : (lexeme before c cs).1 ≠ some .placeholder := by
      unfold lexeme
      rw [hat]
      show (if Text.isBlank c then (none, 0)
        else if beginsWord c then (some Kind.word, _)
        else if beginsNumber c cs then (some .number, _)
        else (some (markKind c), 0) : Option Kind × Nat).1 ≠ _
      split
      · nofun
      · split
        · nofun
        · split
          · nofun
          · exact fun h => markKind_ne_placeholder c (Option.some.inj h)
    rw [if_neg hne]
  | some style =>
    cases style with
    | positional =>
      obtain ⟨rfl, -, -⟩ := at?_eq_positional_iff.1 hat
      have hl : lexeme before '?' cs = (some .placeholder, 0) := by
        unfold lexeme
        rw [hat]
      rw [hl, if_pos rfl]
      rfl
    | named name =>
      obtain ⟨⟨rfl, -, -⟩, rfl⟩ := at?_eq_named_iff.1 hat
      have hl : lexeme before ':' cs =
          (some .placeholder, (cs.takeWhile Placeholder.continuesName).length) := by
        unfold lexeme
        rw [hat]
      rw [hl, if_pos rfl, Text.take_length_takeWhile]
      rfl

lemma inStretch_append_of_forall (pos : Nat) (before : Option Char) {cs : List Char}
    (h : ∀ x ∈ cs, x ≠ '?' ∧ x ≠ ':') (rest : List Char) :
    Placeholder.inStretch pos before (cs ++ rest) =
      Placeholder.inStretch (pos + Text.width cs) (cs.getLast?.or before) rest := by
  induction cs generalizing pos before with
  | nil => rfl
  | cons c cs ih =>
    have hc := h c List.mem_cons_self
    have hat : Placeholder.at? before c (cs ++ rest) = none :=
      at?_eq_none_iff.2 ⟨fun e => hc.1 e.1, fun e => hc.2 e.1⟩
    have hlast : (c :: cs).getLast?.or before = cs.getLast?.or (some c) := by
      rw [List.getLast?_cons, Option.some_or, Option.or_some]
    rw [List.cons_append, Placeholder.inStretch, hat, hlast, Text.width_cons, ← Nat.add_assoc]
    exact ih _ _ fun x hx => h x (List.mem_cons_of_mem c hx)

/-- **The placeholders of a stretch are its tokens of that kind.** -/
theorem filterMap_placeholder?_inStretch (pos : Nat) (before : Option Char) :
    ∀ cs : List Char,
      (inStretch pos before cs).filterMap placeholder? = Placeholder.inStretch pos before cs
  | [] => by rw [inStretch_nil]; rfl
  | c :: cs => by
    have hle := lexeme_length_le before c cs
    have htake : (cs.take (lexeme before c cs).2).length = (lexeme before c cs).2 := by
      rw [List.length_take]
      omega
    have hlen : (lexeme before c (cs.take (lexeme before c cs).2 ++
        cs.drop (lexeme before c cs).2)).2 = (cs.take (lexeme before c cs).2).length := by
      rw [List.take_append_drop, htake]
    have hin := (lexeme_inside (d := .standard) hlen).2
    have hrest := inStretch_append_of_forall (pos + c.utf8Size) (some c) hin
      (cs.drop (lexeme before c cs).2)
    have hlast : (c :: cs.take (lexeme before c cs).2).getLast? =
        (cs.take (lexeme before c cs).2).getLast?.or (some c) := by
      rw [List.getLast?_cons, Option.or_some]
    rw [List.take_append_drop] at hrest
    rw [inStretch_cons, List.filterMap_append,
      filterMap_placeholder?_inStretch _ _ (cs.drop (lexeme before c cs).2), hlast, Text.width_cons,
      ← Nat.add_assoc, ← hrest, Placeholder.inStretch, at?_eq_lexeme before c cs]
    cases hk : (lexeme before c cs).1 with
    | none => rfl
    | some kind =>
      by_cases hp : kind = .placeholder
      · subst hp
        rfl
      · have hp' : some kind ≠ some .placeholder := fun e => hp (Option.some.inj e)
        simp [placeholder?, hp]
  termination_by cs => cs.length
  decreasing_by simp only [List.length_drop, List.length_cons]; omega

end Token

namespace SqlText

variable {t : SqlText} {ls : List Lexeme}

lemma filterMap_placeholder?_tokens (t : SqlText) :
    t.tokens.filterMap Token.placeholder? = t.segments.flatMap Placeholder.inSegment := by
  unfold tokens
  induction t.segments with
  | nil => rfl
  | cons s ss ih =>
    rw [List.flatMap_cons, List.flatMap_cons, List.filterMap_append, ih]
    congr 1
    obtain ⟨kind, start, text⟩ := s
    cases kind with
    | bare => exact Token.filterMap_placeholder?_inStretch start none text
    | comment => rfl
    | literal =>
      have hne : Token.literalKind t.dialect text.head? ≠ .placeholder := by
        unfold Token.literalKind
        split <;> decide
      simp [Token.ofSegment, Token.placeholder?, hne, Placeholder.inSegment]

/-- **The placeholders of a text are its tokens of that kind.** -/
theorem placeholders_eq_tokens (t : SqlText) : t.placeholders =
    (t.tokens.filterMap Token.placeholder?).mapIdx fun i p =>
      { style := p.1, ordinal := i + 1, offset := p.2 } := by
  rw [filterMap_placeholder?_tokens, placeholders_eq]

lemma map_style_offset (t : SqlText) : t.placeholders.map (fun p => (p.style, p.offset)) =
    t.tokens.filterMap Token.placeholder? := by
  rw [placeholders_eq_tokens]
  exact List.ext_getElem (by simp) fun i _ _ => by simp

lemma length_placeholders (t : SqlText) :
    t.placeholders.length = t.tokens.countP (·.kind == .placeholder) := by
  rw [placeholders_eq_tokens, List.length_mapIdx, List.length_filterMap_eq_countP]
  refine List.countP_congr fun u _ => ?_
  unfold Token.placeholder?
  split
  · next h => simp [h]
  · next h => simp [h]

lemma exists_token_of_mem_placeholders {p : Placeholder} (h : p ∈ t.placeholders) :
    ∃ u ∈ t.tokens, u.kind = .placeholder ∧ p.style = Token.style u.text ∧ p.offset = u.start := by
  rw [placeholders_eq_tokens, List.mem_mapIdx] at h
  obtain ⟨i, hi, rfl⟩ := h
  obtain ⟨u, hu, hp⟩ := List.mem_filterMap.1 (List.getElem_mem hi)
  obtain ⟨hk, hp⟩ := Token.placeholder?_eq_some_iff.1 hp
  exact ⟨u, hu, hk, congrArg Prod.fst hp, congrArg Prod.snd hp⟩

/-! ### The lexemes of a text -/

/-- The text is read as the lexemes. -/
structure ReadAs (t : SqlText) (ls : List Lexeme) : Prop where
  chars : t.chars = Lexeme.textOf ls
  reading : Lexeme.Reading t.dialect [] none ls

theorem exists_readAs (t : SqlText) : ∃ ls, t.ReadAs ls := by
  obtain ⟨ls, hls, hr⟩ := Lexeme.exists_reading t.dialect none t.chars
  exact ⟨ls, hls.symm, hr⟩

theorem ReadAs.tokens (h : t.ReadAs ls) : t.tokens = Lexeme.tokens 0 ls := by
  have e := Lexeme.tokensOf_segmentsFrom 0 h.reading
  rw [Lexeme.tokensOf_eq_flatMap _ (.inl rfl), ← h.chars] at e
  exact e

theorem ReadAs.masked (h : t.ReadAs ls) : t.masked = Lexeme.maskOf ls := by
  have e := Lexeme.flatMap_mask_segmentsFrom 0 h.reading
  rw [← h.chars] at e
  exact e

lemma ReadAs.takeBytes_masked {as bs : List Lexeme} (h : t.ReadAs (as ++ bs)) :
    Text.takeBytes (Text.width (Lexeme.textOf as)) t.masked = Lexeme.maskOf as := by
  rw [h.masked, Lexeme.maskOf_append, ← Lexeme.width_maskOf]
  exact Text.takeBytes_width_append _ _

end SqlText

end QueryGuard
