import QueryGuard.Proofs.Guard.Origin
import QueryGuard.Proofs.Sql.FirstStatement
import QueryGuard.Proofs.Sql.LiteralContent
import QueryGuard.Proofs.Sql.Star

/-!
The offsets that are handed out for a text. Main statement: the text may be cut at each of them,
those of the first statement do not pass its end, and the rows of an `INSERT` stand one behind the
other.
-/

namespace QueryGuard

/-! ### Rows one behind the other -/

namespace Statement

variable {lists : List ParenList} {ts : List DeepToken}

lemma lt_of_mem_dropWhile {n : Nat} {u : DeepToken}
    (hts : ts.Pairwise fun a b => a.token.start ≤ b.token.start)
    (hu : u ∈ ts.dropWhile (·.token.start ≤ n)) : n < u.token.start := by
  have hhead := List.head?_dropWhile_not (fun v : DeepToken => decide (v.token.start ≤ n)) ts
  have hp := hts.sublist (List.dropWhile_sublist fun v : DeepToken => decide (v.token.start ≤ n))
  cases hd : ts.dropWhile (·.token.start ≤ n) with
  | nil =>
    rw [hd] at hu
    exact absurd hu List.not_mem_nil
  | cons v vs =>
    rw [hd] at hu hp hhead
    have hv : n < v.token.start := by simpa using hhead
    rcases List.mem_cons.1 hu with rfl | hu
    · exact hv
    · exact hv.trans_le ((List.pairwise_cons.1 hp).1 u hu)

/-- Rows stand one behind the other where no token begins inside another. -/
lemma pairwise_rowsFrom (hts : ts.Pairwise fun a b => a.token.start ≤ b.token.start)
    (hl : ∀ l ∈ lists, ∀ u ∈ ts, l.closing.start < u.token.start →
      l.closing.stop ≤ u.token.start) :
    (rowsFrom lists ts).Pairwise fun r s => r.span.stop ≤ s.span.start := by
  fun_induction rowsFrom lists ts with
  | case1 => exact .nil
  | case2 => exact .nil
  | case3 t ts hk l hfind ih =>
    have htail := (List.pairwise_cons.1 hts).2
    have hdrop := List.dropWhile_sublist (l := ts) (·.token.start ≤ l.closing.start)
    refine List.pairwise_cons.2 ⟨fun s hs => ?_, ih (htail.sublist hdrop) fun k hk u hu =>
      hl k hk u (List.mem_cons_of_mem t (hdrop.subset hu))⟩
    obtain ⟨_, -, e, u, hu, hstart⟩ := exists_list_of_mem_rowsFrom hs
    rw [e, ParenList.span, ParenList.span, hstart]
    exact hl l (List.mem_of_find?_eq_some hfind) u (List.mem_cons_of_mem t (hdrop.subset hu))
      (lt_of_mem_dropWhile htail hu)
  | case4 t ts hk ih =>
    exact ih (List.pairwise_cons.1 hts).2 fun l hlist u hu =>
      hl l hlist u (List.mem_cons_of_mem t hu)
  | case5 => exact .nil

end Statement

/-! ### The offsets of the first statement -/

namespace SqlText

variable {t : SqlText} {s : Span}

/-- The range lies in the first statement and cuts no character. -/
def FitsStatement (t : SqlText) (s : Span) : Prop := s.Fits t.chars ∧ s.stop ≤ t.statement.stop

namespace FirstStatement

variable {as cs : List Lexeme}

lemma fitsStatement (h : t.FirstStatement as cs) (hs : s.Fits (Lexeme.textOf as)) :
    t.FitsStatement s := by
  refine ⟨?_, ?_⟩
  · rw [h.chars]
    exact hs.append _
  · rw [stop_statement, h.stop]
    exact hs.stop_le

lemma isBoundary_stop (h : t.FirstStatement as cs) :
    Text.IsBoundary t.chars t.statement.stop := by
  rw [stop_statement, h.stop, h.chars]
  exact .width_append _ _

end FirstStatement

lemma fitsStatement_of_mem_valueRows {r : ValueRow} (h : r ∈ t.statement.valueRows) :
    t.FitsStatement r.span := by
  obtain ⟨as, cs, hfirst⟩ := t.exists_firstStatement
  obtain ⟨l, hl, e⟩ := exists_list_of_mem_valueRows h
  rw [e]
  exact hfirst.fitsStatement (hfirst.fits_of_mem_parenLists hl)

lemma start_lt_stop_of_mem_valueRows {r : ValueRow} (h : r ∈ t.statement.valueRows) :
    r.span.start < r.span.stop := by
  obtain ⟨ls, hls⟩ := t.exists_readAs
  obtain ⟨l, hl, e⟩ := spans_of_mem_valueRows h
  rw [hls.tokens] at hl
  obtain ⟨-, hc, hle⟩ := Lexeme.start_le_of_spans hl
  rw [e]
  exact hle.trans_lt (Lexeme.stop_of_mem_tokens (fun _ hm => hls.reading.ne_nil_of_mem hm) hc).1

/-- **The rows of an `INSERT` stand one behind the other.** -/
theorem pairwise_valueRows (t : SqlText) : t.statement.valueRows.Pairwise fun r s =>
    r.span.start < s.span.start ∧ r.span.stop ≤ s.span.start := by
  obtain ⟨us, hus, -⟩ := t.tokens_eq_append
  have hsub : t.statementTokens.map (·.token) <+: t.tokens := ⟨us, hus.symm⟩
  have hle : t.statementTokens.Pairwise fun a b => a.token.start ≤ b.token.start := by
    have hp := t.pairwise_stop_tokens.sublist hsub.sublist
    exact (List.pairwise_map.1 hp).imp fun hab => (Nat.le_add_right _ _).trans hab
  have hafter : ∀ p, (Statement.after p t.statementTokens).Sublist t.statementTokens :=
    fun p => (List.drop_sublist _ _).trans (List.dropWhile_sublist _)
  have hrows : t.statement.valueRows.Pairwise fun r s => r.span.stop ≤ s.span.start := by
    rw [valueRows_statement]
    split
    · refine Statement.pairwise_rowsFrom (hle.sublist (hafter _)) fun l hl u hu hlt => ?_
      have hu := hsub.subset (List.mem_map_of_mem ((hafter _).subset hu))
      obtain ⟨pre, mid, post, e, -, -⟩ := spans_of_mem_parenLists hl
      exact stop_le_start (by rw [e]; simp) hu hlt
    · exact .nil
  refine hrows.imp_of_mem fun hr _ hrs => ⟨?_, hrs⟩
  exact (start_lt_stop_of_mem_valueRows hr).trans_le hrs

lemma fitsStatement_star (h : t.statement.star = some s) :
    t.FitsStatement s ∧ t.slice s.start s.stop = ['*'] := by
  obtain ⟨as, cs, hcut⟩ := exists_starCut h
  have e := hcut.span
  have hchars : t.chars = Lexeme.textOf as ++ (['*'] ++ Lexeme.textOf cs) := by
    rw [hcut.readAs.chars, Lexeme.textOf_append, Lexeme.textOf_cons]
    rfl
  refine ⟨⟨?_, ?_⟩, ?_⟩
  · rw [e, hchars]
    exact .of_parts _ _ _
  · -- the star is read from the characters of the statement
    obtain ⟨pos, hpos, rfl⟩ := span_star h
    obtain ⟨front, rest, hhead, rfl, -⟩ := Head.star?_eq_some hpos
    obtain ⟨_, _, hfirst⟩ := t.exists_firstStatement
    have hwidth := congrArg Text.width (hfirst.head.symm.trans hhead)
    rw [Lexeme.width_maskOf, ← hfirst.stop, Text.width_append, Text.width_cons,
      ← Nat.add_assoc] at hwidth
    rw [stop_statement, hwidth]
    exact Nat.le_add_right _ _
  · rw [e, slice, hchars]
    exact Text.slice_append _ _ _

lemma isBoundary_whereAnchor (t : SqlText) : Text.IsBoundary t.chars t.statement.whereAnchor ∧
    t.statement.whereAnchor ≤ t.statement.stop := by
  obtain ⟨as, cs, h⟩ := t.exists_anchorSplit
  rw [h.anchor, stop_statement]
  refine ⟨?_, width_le_statementStop as cs h.readAs h.within⟩
  rw [h.readAs.chars, Lexeme.textOf_append]
  exact .width_append _ _

/-! ### The offsets of findings -/

lemma fitsStatement_of_mem_review {f : Finding} (h : f ∈ t.review) (hs : f.span = some s) :
    t.FitsStatement s := by
  rcases List.mem_append.1 h with h | h
  · rcases List.mem_append.1 h with h | h
    · obtain ⟨⟨message, rfl⟩, -⟩ := Statement.eq_of_mem_whereFinding? (Option.mem_toList.1 h)
      cases hs
    · obtain ⟨star, hstar, rfl⟩ := Option.map_eq_some_iff.1 (Option.mem_toList.1 h)
      obtain rfl : star = s := Option.some.inj hs
      exact (fitsStatement_star hstar).1
  · obtain ⟨span, hm, rfl⟩ := List.mem_map.1 h
    obtain rfl : span = s := Option.some.inj hs
    obtain ⟨l, hl, hspan⟩ := List.mem_flatMap.1 hm
    obtain ⟨as, cs, hfirst⟩ := t.exists_firstStatement
    exact hfirst.fitsStatement
      (hfirst.fits_of_mem_hardcoded ((List.mergeSort_perm _ _).mem_iff.1 hl) hspan)

/-- A finding of the comparison stands at a row, if anywhere. -/
lemma exists_row_of_mem_reconcile {ps : List Placeholder} {supplied : Supplied} {st : Statement}
    {f : Finding} (h : f ∈ reconcile ps supplied st) (hs : f.span = some s) :
    ∃ r ∈ st.valueRows, s = r.span := by
  rcases List.mem_append.1 h with h | h
  · rcases List.mem_append.1 h with h | h
    · obtain ⟨message, rfl⟩ := Placeholder.eq_of_mem_mixedFinding? (Option.mem_toList.1 h)
      cases hs
    · obtain ⟨code, message, rfl, -⟩ := Reconciliation.eq_of_mem_bindings h
      cases hs
  · obtain ⟨-, -, _, -, r, hr, e⟩ := Reconciliation.mem_of_mem_rows h
    exact ⟨r, hr, Option.some.inj (hs.symm.trans e)⟩

/-! ### Every offset -/

lemma fits_of_mem_segments {g : Segment} (h : g ∈ t.segments) :
    Span.Fits ⟨g.start, g.stop⟩ t.chars := by
  obtain ⟨ps, hps⟩ := t.exists_cutInto
  obtain ⟨pre, post, rfl, hstart⟩ := exists_append_of_mem_place (hps.segments ▸ h)
  rw [Segment.stop, hstart, Nat.zero_add, hps.chars, Grammar.textOf_append, Grammar.textOf_cons]
  exact .of_parts _ g.text _

/-- The text may be cut at every offset that is handed out for it. -/
structure OffsetsFit (t : SqlText) : Prop where
  segments : ∀ g ∈ t.segments, Span.Fits ⟨g.start, g.stop⟩ t.chars
  placeholders : ∀ p ∈ t.placeholders, p.span.Fits t.chars ∧
    t.slice p.span.start p.span.stop = p.text.toList
  rows : ∀ r ∈ t.statement.valueRows, t.FitsStatement r.span
  /-- The rows stand one behind the other. -/
  inOrder : t.statement.valueRows.Pairwise fun r s =>
    r.span.start < s.span.start ∧ r.span.stop ≤ s.span.start
  star : ∀ s, t.statement.star = some s →
    t.FitsStatement s ∧ t.slice s.start s.stop = ['*']
  whereAnchor : Text.IsBoundary t.chars t.statement.whereAnchor ∧
    t.statement.whereAnchor ≤ t.statement.stop
  stop : Text.IsBoundary t.chars t.statement.stop
  review : ∀ f ∈ t.review, ∀ s, f.span = some s → t.FitsStatement s
  reconcile : ∀ ps supplied, ∀ f ∈ reconcile ps supplied t.statement, ∀ s, f.span = some s →
    s.Fits t.chars

/-- **Every text may be cut at every offset that is handed out for it.** -/
theorem offsetsFit (t : SqlText) : t.OffsetsFit where
  segments _ := fits_of_mem_segments
  placeholders p hp := by
    obtain ⟨u, hu, hspan, hslice⟩ := slice_span_placeholder hp
    exact ⟨hspan ▸ fits_span hu, hslice⟩
  rows _ := fitsStatement_of_mem_valueRows
  inOrder := t.pairwise_valueRows
  star _ := fitsStatement_star
  whereAnchor := t.isBoundary_whereAnchor
  stop := by
    obtain ⟨as, cs, h⟩ := t.exists_firstStatement
    exact h.isBoundary_stop
  review _ h _ := fitsStatement_of_mem_review h
  reconcile _ _ _ h _ hs := by
    obtain ⟨r, hr, rfl⟩ := exists_row_of_mem_reconcile h hs
    exact (fitsStatement_of_mem_valueRows hr).1

end SqlText

end QueryGuard
