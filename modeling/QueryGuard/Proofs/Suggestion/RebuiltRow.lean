import QueryGuard.Proofs.Guard.Origin
import QueryGuard.Proofs.Sql.Cut

/-!
A row that is rebuilt. The placeholders around the row stay, and in its place there is one for each
column. So the text has as many as there are columns only where no placeholder stands around the
row.
-/

namespace QueryGuard

/-- The byte lies in the range. -/
def Span.Covers (s : Span) (pos : Nat) : Prop := s.start ≤ pos ∧ pos < s.stop

instance (s : Span) (pos : Nat) : Decidable (s.Covers pos) :=
  inferInstanceAs (Decidable (_ ∧ _))

/-- The byte lies in the range of the finding. -/
def Finding.Covers (f : Finding) (pos : Nat) : Prop := ∃ span, f.span = some span ∧ span.Covers pos

lemma Finding.covers_iff {f : Finding} {span : Span} (h : f.span = some span) (pos : Nat) :
    f.Covers pos ↔ span.Covers pos := by
  rw [Covers, h]
  constructor
  · rintro ⟨_, ⟨⟩, hc⟩
    exact hc
  · exact fun hc => ⟨span, rfl, hc⟩

/-- A placeholder of some lexemes is one of their tokens. -/
lemma Lexeme.mem_styles_iff (pos : Nat) {ls : List Lexeme} {s : Placeholder.Style} :
    s ∈ styles ls ↔ ∃ u ∈ tokens pos ls, u.kind = .placeholder ∧ Token.style u.text = s := by
  rw [← styles_tokens pos ls, List.mem_map]
  constructor
  · rintro ⟨x, hx, rfl⟩
    obtain ⟨u, hu, hux⟩ := List.mem_filterMap.1 hx
    obtain ⟨hk, rfl⟩ := Token.placeholder?_eq_some_iff.1 hux
    exact ⟨u, hu, hk, rfl⟩
  · rintro ⟨u, hu, hk, rfl⟩
    exact ⟨_, List.mem_filterMap.2 ⟨u, hu, Token.placeholder?_eq_some_iff.2 ⟨hk, rfl⟩⟩, rfl⟩

namespace SqlText

variable {t : SqlText} {span : Span} {as bs cs : List Lexeme}

/-! ### Around a range -/

/-- The tokens of the lexemes around a range start outside of it, and those of the others inside. -/
lemma Cut.covers (h : t.Cut span as bs cs) :
    (∀ u ∈ Lexeme.tokens 0 as, ¬ span.Covers u.start) ∧
      (∀ u ∈ Lexeme.tokens span.start bs, span.Covers u.start) ∧
        ∀ u ∈ Lexeme.tokens span.stop cs, ¬ span.Covers u.start := by
  obtain ⟨hfront, hin, hback⟩ := h.places
  refine ⟨fun u hu hc => ?_, hin, fun u hu hc => ?_⟩
  · exact Nat.lt_irrefl _ ((hfront u hu).trans_le hc.1)
  · exact Nat.lt_irrefl _ ((hback u hu).trans_lt hc.2)

/-- The placeholders around a range are those of the lexemes around it. -/
lemma Cut.exists_outside (h : t.Cut span as bs cs) (p : Placeholder.Style → Prop) :
    (∃ x ∈ t.placeholders, p x.style ∧ ¬ span.Covers x.offset) ↔
      ∃ s ∈ Lexeme.styles as ++ Lexeme.styles cs, p s := by
  obtain ⟨hfront, hin, hback⟩ := h.covers
  constructor
  · rintro ⟨x, hx, hp, hout⟩
    -- no placeholder of the range itself starts outside of it
    obtain ⟨u, hu, hk, hs, ho⟩ := exists_token_of_mem_placeholders hx
    rw [hs] at hp
    rw [ho] at hout
    rw [h.tokens_eq] at hu
    rcases List.mem_append.1 hu with hu | hu
    · exact ⟨_, List.mem_append_left _ ((Lexeme.mem_styles_iff _).2 ⟨u, hu, hk, rfl⟩), hp⟩
    · rcases List.mem_append.1 hu with hu | hu
      · exact absurd (hin u hu) hout
      · exact ⟨_, List.mem_append_right _ ((Lexeme.mem_styles_iff _).2 ⟨u, hu, hk, rfl⟩), hp⟩
  · rintro ⟨s, hs, hp⟩
    obtain ⟨u, hu, hk, rfl, hout⟩ : ∃ u ∈ t.tokens, u.kind = .placeholder ∧
        Token.style u.text = s ∧ ¬ span.Covers u.start := by
      rw [h.tokens_eq]
      rcases List.mem_append.1 hs with hs | hs
      · obtain ⟨u, hu, hk, e⟩ := (Lexeme.mem_styles_iff 0).1 hs
        exact ⟨u, List.mem_append_left _ hu, hk, e, hfront u hu⟩
      · obtain ⟨u, hu, hk, e⟩ := (Lexeme.mem_styles_iff span.stop).1 hs
        exact ⟨u, List.mem_append_right _ (List.mem_append_right _ hu), hk, e, hback u hu⟩
    have hmem : (Token.style u.text, u.start) ∈
        t.placeholders.map fun x => (x.style, x.offset) := by
      rw [map_style_offset]
      exact List.mem_filterMap.2 ⟨u, hu, Token.placeholder?_eq_some_iff.2 ⟨hk, rfl⟩⟩
    obtain ⟨x, hx, e⟩ := List.mem_map.1 hmem
    obtain ⟨e, e'⟩ := Prod.mk.inj e
    exact ⟨x, hx, e ▸ hp, e' ▸ hout⟩

/-- No placeholder is kept around a range exactly when none is among the lexemes around it. -/
lemma Cut.forall_kept_iff (h : t.Cut span as bs cs) :
    (∀ u ∈ t.kept Token.isHolder, span.Covers u.start) ↔ Lexeme.loose false as = 0 ∧
      Lexeme.loose (Lexeme.barsAfter (Lexeme.barsAfter false as) bs) cs = 0 := by
  obtain ⟨hfront, hin, hback⟩ := h.covers
  obtain ⟨-, hread⟩ := Lexeme.reading_append.1 h.readAs.reading
  have hreadcs := (Lexeme.reading_append.1 hread).2
  have has := (Lexeme.reading_append.1 h.readAs.reading).1
  have hkept : t.kept Token.isHolder = Lexeme.kept Token.isHolder false 0 as ++
      (Lexeme.kept Token.isHolder (Lexeme.barsAfter false as) span.start bs ++
        Lexeme.kept Token.isHolder (Lexeme.barsAfter (Lexeme.barsAfter false as) bs) span.stop
          cs) := by
    rw [h.readAs.kept, Lexeme.kept_append h.readAs.reading, Lexeme.kept_append hread, h.start,
      h.stop, Nat.zero_add]
  rw [← Lexeme.length_kept has false 0, ← Lexeme.length_kept hreadcs _ span.stop,
    List.length_eq_zero_iff, List.length_eq_zero_iff, hkept, List.forall_mem_append,
    List.forall_mem_append]
  constructor
  · rintro ⟨h1, -, h3⟩
    refine ⟨List.eq_nil_iff_forall_not_mem.2 fun u hu => ?_,
      List.eq_nil_iff_forall_not_mem.2 fun u hu => ?_⟩
    · exact hfront u (Lexeme.mem_tokens_of_mem_kept hu) (h1 u hu)
    · exact hback u (Lexeme.mem_tokens_of_mem_kept hu) (h3 u hu)
  · rintro ⟨h1, h3⟩
    rw [h1, h3]
    exact ⟨nofun, fun u hu => hin u (Lexeme.mem_tokens_of_mem_kept hu), nofun⟩

end SqlText

/-! ### The rebuilt row -/

namespace Analysis

variable {a : Analysis} {f : Finding}

/-- The columns that an `INSERT` lists. -/
def columns (a : Analysis) : List String := a.statement.columns.getD []

/-- **A rebuilt row** has a placeholder for each column, and what stands around it stays. -/
theorem rebuilds_fieldCount (hs : a.statement = a.text.statement)
    (h : ∃ r ∈ a.statement.valueRows, f.span = some r.span) :
    ∃ span as bs cs, f.span = some span ∧ a.text.Cut span as bs cs ∧
      Lexeme.barsAfter (Lexeme.barsAfter false as) bs = false ∧
        SqlText.ReadAs ⟨a.text.dialect, (a.fieldCount f).chars⟩
          (as ++ (Lexeme.row a.columns.length ++ cs)) := by
  obtain ⟨r, hr, hspan⟩ := h
  rw [hs] at hr
  obtain ⟨l, hl, e⟩ := SqlText.spans_of_mem_valueRows hr
  rw [e] at hspan
  obtain ⟨as, mid, cs, hcut⟩ := SqlText.exists_cut_of_spans hl
  refine ⟨l.span, as, _, cs, hspan, hcut, Lexeme.barsAfter_parens _ _, ?_⟩
  have hchars : (a.fieldCount f).chars =
      Lexeme.textOf (as ++ (Lexeme.row a.columns.length ++ cs)) := by
    rw [fieldCount, hspan, Lexeme.textOf_append, Lexeme.textOf_append, ← Lexeme.textOf_row]
    exact hcut.apply_replace _
  rw [hchars]
  exact hcut.readAs_row _

end Analysis

end QueryGuard
