import QueryGuard.Proofs.Sql.Loose
import QueryGuard.Proofs.Sql.Matching

/-!
Ranges of a text that cut no character. A token, and whatever reaches from one token to another,
is such a range, and tokens stand one behind the other. Main statement: the ranges of the tokens
that are placeholders are the ranges of the placeholders.
-/

namespace QueryGuard

/-! ### Boundaries and ranges -/

/-- Of two cuts of a text the one further to the front leaves the part between them. -/
lemma Text.exists_append_of_width_le {as bs cs ds : List Char} (e : as ++ bs = cs ++ ds)
    (h : width as ≤ width cs) : ∃ xs, cs = as ++ xs ∧ bs = xs ++ ds := by
  rcases List.append_eq_append_iff.1 e with ⟨xs, rfl, rfl⟩ | ⟨xs, rfl, rfl⟩
  · exact ⟨xs, rfl, rfl⟩
  · -- the cuts are one
    obtain rfl : xs = [] := by
      by_contra hx
      have := width_pos hx
      rw [width_append] at h
      omega
    exact ⟨[], by rw [List.append_nil, List.append_nil], rfl⟩

/-- No character of the text reaches over byte `n`, which is at most its end. -/
def Text.IsBoundary (cs : List Char) (n : Nat) : Prop :=
  ∃ as bs, cs = as ++ bs ∧ Text.width as = n

namespace Text.IsBoundary

variable {cs : List Char} {n : Nat}

lemma width_append (as bs : List Char) : IsBoundary (as ++ bs) (width as) := ⟨as, bs, rfl, rfl⟩

lemma append (h : IsBoundary cs n) (ds : List Char) : IsBoundary (cs ++ ds) n := by
  obtain ⟨as, bs, rfl, rfl⟩ := h
  rw [List.append_assoc]
  exact width_append as _

lemma le_width (h : IsBoundary cs n) : n ≤ width cs := by
  obtain ⟨as, bs, rfl, rfl⟩ := h
  rw [Text.width_append]
  exact Nat.le_add_right _ _

end Text.IsBoundary

/-- The range lies in the text and cuts no character. -/
structure Span.Fits (s : Span) (cs : List Char) : Prop where
  start : Text.IsBoundary cs s.start
  stop : Text.IsBoundary cs s.stop
  le : s.start ≤ s.stop

namespace Span.Fits

variable {s : Span} {cs : List Char}

lemma of_parts (as bs cs : List Char) :
    Span.Fits ⟨Text.width as, Text.width as + Text.width bs⟩ (as ++ (bs ++ cs)) := by
  refine ⟨.width_append as _, ?_, Nat.le_add_right _ _⟩
  rw [← Text.width_append, ← List.append_assoc]
  exact .width_append (as ++ bs) cs

lemma append (h : s.Fits cs) (ds : List Char) : s.Fits (cs ++ ds) :=
  ⟨h.start.append ds, h.stop.append ds, h.le⟩

lemma stop_le (h : s.Fits cs) : s.stop ≤ Text.width cs := h.stop.le_width

/-- The text falls apart around the range. -/
lemma exists_parts (h : s.Fits cs) : ∃ as bs ds, cs = as ++ (bs ++ ds) ∧
    s = ⟨Text.width as, Text.width as + Text.width bs⟩ := by
  obtain ⟨start, stop⟩ := s
  obtain ⟨⟨as, xs, rfl, rfl⟩, ⟨bs, ys, e, rfl⟩, hle⟩ := h
  obtain ⟨zs, rfl, rfl⟩ := Text.exists_append_of_width_le e hle
  exact ⟨as, zs, ys, rfl, by rw [Text.width_append]⟩

/-- What stands in the range does not depend on what follows the text. -/
lemma slice_append (h : s.Fits cs) (ds : List Char) :
    Text.slice s.start s.stop (cs ++ ds) = Text.slice s.start s.stop cs := by
  obtain ⟨as, bs, xs, rfl, rfl⟩ := h.exists_parts
  rw [List.append_assoc, List.append_assoc, Text.slice_append, Text.slice_append]

end Span.Fits

/-! ### The range of a token -/

/-- The bytes of the token. -/
def Token.span (u : Token) : Span := ⟨u.start, u.stop⟩

namespace Lexeme

variable {ls : List Lexeme} {u v : Token}

/-- A token is a part of the text of its lexemes. -/
lemma exists_parts_of_mem_tokens (h : u ∈ tokens 0 ls) :
    ∃ as bs, textOf ls = as ++ (u.text ++ bs) ∧ u.start = Text.width as := by
  obtain ⟨xs, ys, e⟩ := List.append_of_mem h
  obtain ⟨as, l, bs, rfl, -, hl, -⟩ := exists_split e
  obtain ⟨hstart, htext, -⟩ := start_of_tokenAt hl
  refine ⟨textOf as, textOf bs, ?_, by rw [hstart, Nat.zero_add]⟩
  rw [textOf_append, textOf_cons, htext]

lemma fits_of_mem_tokens (h : u ∈ tokens 0 ls) : u.span.Fits (textOf ls) := by
  obtain ⟨as, bs, e, hstart⟩ := exists_parts_of_mem_tokens h
  rw [Token.span, Token.stop, hstart, e]
  exact .of_parts as u.text bs

/-- A range reaches from a token to another. -/
lemma fits_between (hu : u ∈ tokens 0 ls) (hv : v ∈ tokens 0 ls) (hle : u.start ≤ v.start) :
    Span.Fits ⟨u.start, v.stop⟩ (textOf ls) :=
  ⟨(fits_of_mem_tokens hu).start, (fits_of_mem_tokens hv).stop,
    hle.trans (fits_of_mem_tokens hv).le⟩

lemma start_le_of_spans {l : ParenList} (h : l.Spans (tokens 0 ls)) :
    l.opening ∈ tokens 0 ls ∧ l.closing ∈ tokens 0 ls ∧ l.opening.start ≤ l.closing.start := by
  obtain ⟨pre, mid, post, e, -, -⟩ := h
  have hp := pairwise_start_tokens 0 ls
  rw [e, List.pairwise_append, List.pairwise_cons] at hp
  rw [e]
  exact ⟨by simp, by simp, hp.2.1.1 l.closing (by simp)⟩

/-- A list reaches from its opening to its closing parenthesis. -/
lemma fits_of_spans {l : ParenList} (h : l.Spans (tokens 0 ls)) : l.span.Fits (textOf ls) := by
  obtain ⟨ho, hc, hle⟩ := start_le_of_spans h
  exact fits_between ho hc hle

/-- An item reaches from its first token to its last. -/
lemma fits_of_stands {i : ListItem} (h : ParenList.Stands (tokens 0 ls) i) {s : Span}
    (hs : i.span? = some s) : s.Fits (textOf ls) := by
  obtain ⟨pre, o, post, c, e, -, -⟩ := h
  have hmem : ∀ u ∈ i.tokens, u ∈ tokens 0 ls := fun u hu => by
    rw [e]
    simp [hu]
  have hsub : i.tokens.Sublist (tokens 0 ls) := by
    rw [e]
    exact (List.sublist_append_left _ _).trans
      ((List.sublist_cons_self o _).trans (List.sublist_append_right pre _))
  have hp := (pairwise_start_tokens 0 ls).sublist hsub
  unfold ListItem.span? at hs
  split at hs
  · next first last hf hl =>
    obtain rfl := Option.some.inj hs
    obtain ⟨us, hus⟩ := List.head?_eq_some_iff.1 hf
    have hlast := List.mem_of_getLast? hl
    refine fits_between (hmem first (List.mem_of_mem_head? hf)) (hmem last hlast) ?_
    rw [hus] at hp hlast
    rcases List.mem_cons.1 hlast with rfl | hlast
    · exact Nat.le_refl _
    · exact (List.pairwise_cons.1 hp).1 last hlast
  · cases hs

end Lexeme

namespace SqlText

variable {t : SqlText} {u v : Token}

lemma pairwise_stop_tokens (t : SqlText) : t.tokens.Pairwise fun a b => a.stop ≤ b.start := by
  obtain ⟨ls, h⟩ := t.exists_readAs
  rw [h.tokens]
  exact Lexeme.pairwise_stop_tokens 0 ls

lemma start_lt_stop (hu : u ∈ t.tokens) : u.start < u.stop := by
  obtain ⟨ls, h⟩ := t.exists_readAs
  rw [h.tokens] at hu
  exact (Lexeme.stop_of_mem_tokens (fun l hl => h.reading.ne_nil_of_mem hl) hu).1

/-- Tokens begin one behind the other. -/
lemma pairwise_lt_tokens (t : SqlText) : t.tokens.Pairwise fun a b => a.start < b.start :=
  t.pairwise_stop_tokens.imp_of_mem fun hu _ hstop => (start_lt_stop hu).trans_le hstop

/-- A token that starts behind the start of another starts behind its end. -/
lemma stop_le_start (hu : u ∈ t.tokens) (hv : v ∈ t.tokens) (h : u.start < v.start) :
    u.stop ≤ v.start := by
  have hle : ∀ w : Token, w.start ≤ w.stop := fun w => Nat.le_add_right _ _
  obtain ⟨xs, ys, e⟩ := List.append_of_mem hu
  have hp := t.pairwise_stop_tokens
  rw [e, List.pairwise_append, List.pairwise_cons] at hp
  rw [e] at hv
  rcases List.mem_append.1 hv with hv | hv
  · have := hp.2.2 v hv u List.mem_cons_self
    have := hle v
    omega
  · rcases List.mem_cons.1 hv with rfl | hv
    · exact absurd h (Nat.lt_irrefl _)
    · exact hp.2.1.1 v hv

/-- The text may be cut in front of a token and behind it. -/
lemma fits_span (hu : u ∈ t.tokens) : u.span.Fits t.chars := by
  obtain ⟨ls, h⟩ := t.exists_readAs
  rw [h.tokens] at hu
  rw [h.chars]
  exact Lexeme.fits_of_mem_tokens hu

/-- What stands in the range of a token is the token. -/
lemma slice_span (hu : u ∈ t.tokens) : t.slice u.span.start u.span.stop = u.text := by
  obtain ⟨ls, h⟩ := t.exists_readAs
  rw [h.tokens] at hu
  obtain ⟨as, bs, e, hstart⟩ := Lexeme.exists_parts_of_mem_tokens hu
  rw [Token.span, Token.stop, hstart, slice, h.chars, e]
  exact Text.slice_append as u.text bs

/-! ### The range of a placeholder -/

/-- A placeholder reaches as far as the token that it is. -/
lemma span_style (hu : u ∈ t.tokens) (hk : u.kind = .placeholder) (n : Nat) :
    Placeholder.span ⟨Token.style u.text, n, u.start⟩ = u.span := by
  rw [Placeholder.span, text_style hu hk]
  rfl

/-- **Tokens and placeholders agree**: the ranges of the tokens that are placeholders are, in order,
the ranges of the placeholders. -/
theorem map_span_placeholders (t : SqlText) :
    (t.tokens.filter Token.isHolder).map Token.span = t.placeholders.map Placeholder.span := by
  have hspans : t.placeholders.map Placeholder.span = (t.tokens.filterMap Token.placeholder?).map
      fun x => Placeholder.span ⟨x.1, 0, x.2⟩ := by
    rw [← map_style_offset, List.map_map]
    rfl
  rw [hspans, Token.filterMap_placeholder?, List.map_map]
  refine List.map_congr_left fun u hu => ?_
  obtain ⟨hu, hh⟩ := List.mem_filter.1 hu
  exact (span_style hu (beq_iff_eq.1 hh) 0).symm

/-- What stands in the range of a placeholder is the placeholder as it is written. -/
lemma slice_span_placeholder {p : Placeholder} (h : p ∈ t.placeholders) :
    ∃ u ∈ t.tokens, p.span = u.span ∧ t.slice p.span.start p.span.stop = p.text.toList := by
  obtain ⟨u, hu, hk, hstyle, hoffset⟩ := exists_token_of_mem_placeholders h
  have hspan : p.span = u.span := by
    rw [← span_style hu hk 0, ← hstyle, ← hoffset]
    rfl
  refine ⟨u, hu, hspan, ?_⟩
  have htext := text_style hu hk 0 0
  rw [← hstyle] at htext
  rw [hspan, slice_span hu, ← htext]
  rfl

end SqlText

end QueryGuard
