import QueryGuard.Proofs.Sql.Clause
import QueryGuard.Proofs.Sql.LiteralContent

/-!
A literal that is not closed. It reaches to the end of the text, and what is written behind it
becomes part of it: no placeholder comes or goes.
-/

namespace QueryGuard

open Grammar

variable {d : Dialect}

/-- The character neither closes a literal nor escapes the next one. -/
def Quote.goesOn (c : Char) : Bool := (ofChar? c).isNone && c != '\\'

lemma Quote.body_of_goesOn {cs : List Char} (h : ∀ c ∈ cs, goesOn c) (q : Quote) :
    Body id d q cs := by
  induction cs with
  | nil => exact .nil
  | cons c cs ih =>
    have hc := h c List.mem_cons_self
    simp only [goesOn, Bool.and_eq_true, Option.isNone_iff_eq_none, bne_iff_ne] at hc
    have hq : c ≠ q.char := by
      rintro rfl
      rw [ofChar?_char] at hc
      cases hc.1
    exact .cons (.plain c hq fun e => hc.2 e.1) (ih fun x hx => h x (List.mem_cons_of_mem c hx))

/-- What is written behind a literal that is not closed is part of it. -/
lemma Grammar.Spells.literal_append {text cs : List Char} (h : Spells id d .literal text none)
    (ho : ¬ ∃ q body, Body id d q body ∧ text = q.char :: (body ++ [q.char]))
    (hcs : ∀ c ∈ cs, Quote.goesOn c) : Spells id d .literal (text ++ cs) none := by
  cases h with
  | @closedLiteral q body _ hb _ => exact absurd ⟨q, body, hb, rfl⟩ ho
  | openLiteral hb => exact .openLiteral (hb.append (Quote.body_of_goesOn hcs _))
  | @openEscape q body he hb =>
    cases cs with
    | nil =>
      rw [List.append_nil]
      exact .openEscape he hb
    | cons c cs =>
      -- the backslash escapes the first character
      have hall : ∀ x ∈ cs, Quote.goesOn x := fun x hx => hcs x (List.mem_cons_of_mem c hx)
      have hbody : Body id d q (['\\', c] ++ cs) :=
        .cons (.escaped c he) (Quote.body_of_goesOn hall q)
      have happ := hb.append hbody
      have e : q.char :: (body ++ (['\\', c] ++ cs)) =
          (id q.char :: (body ++ [id '\\'])) ++ c :: cs := by simp
      rw [← e]
      exact .openLiteral happ

namespace SqlText

variable {t : SqlText}

/-- **Behind a literal that is not closed there are no placeholders.** -/
theorem placeholders_append_of_open (h : ¬ t.ClosesLiterals) {cs : List Char}
    (hcs : ∀ c ∈ cs, Quote.goesOn c) :
    SqlText.placeholders ⟨t.dialect, t.chars ++ cs⟩ = t.placeholders := by
  obtain ⟨s, hs, hk, hopen⟩ : ∃ s ∈ t.segments, s.kind = .literal ∧
      ¬ ∃ q body, Body id t.dialect q body ∧ s.text = q.char :: (body ++ [q.char]) := by
    simpa only [ClosesLiterals, not_forall, exists_prop] using h
  obtain ⟨ps, hps⟩ := t.exists_cutInto
  obtain ⟨pre, post, rfl, -⟩ := exists_append_of_mem_place (hps.segments ▸ hs)
  have hlex := hps.lexes.of_append
  have hsp : Spells id t.dialect .literal s.text (textOf post).head? := by
    rw [← hk]
    exact hlex.1
  -- nothing stands behind it
  obtain rfl : post = [] := by
    cases post with
    | nil => rfl
    | cons p post =>
      obtain ⟨c, r, hp⟩ := List.exists_cons_of_ne_nil (hlex.2.text_ne_nil p List.mem_cons_self)
      rw [textOf_cons, hp] at hsp
      exact absurd hsp.closed_of_some hopen
  obtain ⟨c, r, hc⟩ := List.exists_cons_of_ne_nil hsp.ne_nil
  have hnew : SqlText.CutInto ⟨t.dialect, t.chars ++ cs⟩ (pre ++ [⟨.literal, s.text ++ cs⟩]) := {
    lexes := hps.lexes.replace (hsp.literal_append hopen hcs) (by rw [Segment.piece, hc]; rfl)
    separated := separated_replace hps.separated hk.symm
    chars := by rw [hps.chars]; simp [Segment.piece] }
  rw [placeholders_eq, placeholders_eq, hps.segments, hnew.segments, Segment.place_append,
    Segment.place_append, List.flatMap_append, List.flatMap_append]
  congr 2
  simp [Placeholder.inSegment, Segment.piece, hk]

end SqlText

end QueryGuard
