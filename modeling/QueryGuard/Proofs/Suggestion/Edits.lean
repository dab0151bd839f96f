import QueryGuard.Proofs.Sql.Ranges

/-!
Edits of a text. The text falls apart to parts that stay and parts that other texts take the place
of, and the edits are read off the latter. Main statement: for ranges that cut no character the text
with the edits made is put together from such parts. Where no two ranges overlap, they show all the
edits, in whatever order these are given; otherwise they show those that are left when each edit is
skipped that starts in the last one kept.
-/

namespace QueryGuard

namespace Edit

/-! ### Parts of a text -/

/-- A part of a text that stays, or one that another text takes the place of. -/
inductive Part where
  | kept (text : List Char)
  | replaced (old new : List Char)

/-- The part before the edits are made. -/
def Part.before : Part → List Char
  | kept text => text
  | replaced old _ => old

/-- The part after the edits are made. -/
def Part.after : Part → List Char
  | kept text => text
  | replaced _ new => new

/-- The edits that are made in parts of which the first starts at byte `pos`. -/
def ofParts (pos : Nat) : List Part → List Edit
  | [] => []
  | .kept text :: ps => ofParts (pos + Text.width text) ps
  | .replaced old new :: ps =>
    ⟨⟨pos, pos + Text.width old⟩, new⟩ :: ofParts (pos + Text.width old) ps

/-- The text `out` is `cs` with the range of every edit replaced and nothing else changed. The edits
stand in the order of their ranges. -/
def Turns (cs : List Char) (es : List Edit) (out : List Char) : Prop :=
  ∃ ps : List Part, ps.flatMap Part.before = cs ∧ ofParts 0 ps = es ∧ ps.flatMap Part.after = out

/-! ### Which edits are made -/

/-- The ranges of the edits start at two places and do not overlap. A range that is empty overlaps
with another if it lies inside of it; it may stand at its end. -/
def Apart (a b : Edit) : Prop :=
  a.span.start ≠ b.span.start ∧ (a.span.stop ≤ b.span.start ∨ b.span.stop ≤ a.span.start)

/-- The edits of `es` in the order of their starts, where those with equal starts stay in order. -/
structure InStartOrder (es ordered : List Edit) : Prop where
  sorted : ordered.Pairwise fun a b => a.span.start ≤ b.span.start
  stable : ∀ n, (ordered.filter fun e => e.span.start = n) = es.filter fun e => e.span.start = n

/-- The edits that are left when each is skipped that starts before the end of the last one kept,
which is `stop`. -/
def kept (stop : Nat) : List Edit → List Edit
  | [] => []
  | e :: es => if e.span.start < stop then kept stop es else e :: kept e.span.stop es

variable {cs : List Char} {es : List Edit} {stop : Nat}

lemma Apart.symm {a b : Edit} (h : Apart a b) : Apart b a := ⟨h.1.symm, h.2.symm⟩

lemma kept_sublist (stop : Nat) (es : List Edit) : (kept stop es).Sublist es := by
  fun_induction kept stop es with
  | case1 => exact .slnil
  | case2 stop e es _ ih => exact ih.cons e
  | case3 stop e es _ ih => exact ih.cons_cons e

/-- Edits one behind the other are all kept. -/
lemma kept_eq_self (hes : es.Pairwise fun a b => a.span.stop ≤ b.span.start)
    (hstop : ∀ e ∈ es, stop ≤ e.span.start) : kept stop es = es := by
  induction es generalizing stop with
  | nil => rfl
  | cons e es ih =>
    obtain ⟨he, hes⟩ := List.pairwise_cons.1 hes
    rw [kept, if_neg (Nat.not_lt.2 (hstop e List.mem_cons_self)), ih hes he]

/-! ### The order of the edits -/

lemma le_start_trans (a b c : Edit) (hab : decide (a.span.start ≤ b.span.start))
    (hbc : decide (b.span.start ≤ c.span.start)) : decide (a.span.start ≤ c.span.start) :=
  decide_eq_true ((of_decide_eq_true hab).trans (of_decide_eq_true hbc))

lemma le_start_total (a b : Edit) :
    decide (a.span.start ≤ b.span.start) || decide (b.span.start ≤ a.span.start) := by
  simpa using Nat.le_total a.span.start b.span.start

lemma pairwise_sort (es : List Edit) :
    (sort es).Pairwise fun a b => a.span.start ≤ b.span.start :=
  (List.pairwise_mergeSort le_start_trans le_start_total es).imp of_decide_eq_true

/-- Sorting keeps the order of edits with equal starts. -/
lemma inStartOrder_sort (es : List Edit) : InStartOrder es (sort es) where
  sorted := pairwise_sort es
  stable n := by
    have hequal : (es.filter fun e => e.span.start = n).Pairwise fun a b =>
        decide (a.span.start ≤ b.span.start) := by
      refine List.pairwise_of_forall_mem_list fun a ha b hb => decide_eq_true ?_
      rw [of_decide_eq_true (List.mem_filter.1 ha).2, of_decide_eq_true (List.mem_filter.1 hb).2]
    have hsub : (es.filter fun e => e.span.start = n).Sublist (sort es) :=
      List.sublist_mergeSort le_start_trans le_start_total hequal List.filter_sublist
    have hfilter := hsub.filter fun e => decide (e.span.start = n)
    rw [List.filter_filter] at hfilter
    simp only [Bool.and_self] at hfilter
    exact (hfilter.eq_of_length ((List.mergeSort_perm es _).filter _).length_eq.symm).symm

/-- The ranges of edits that are apart stand one behind the other once they are sorted. -/
lemma pairwise_stop_sort (hle : ∀ e ∈ es, e.span.start ≤ e.span.stop) (h : es.Pairwise Apart) :
    (sort es).Pairwise fun a b => a.span.stop ≤ b.span.start := by
  have hperm : (sort es).Perm es := List.mergeSort_perm es _
  have hapart : (sort es).Pairwise Apart := h.perm hperm.symm Apart.symm
  refine ((pairwise_sort es).and hapart).imp_of_mem fun {a b} _ hb hab => ?_
  obtain ⟨hstart, hne, hstop | hstop⟩ := hab
  · exact hstop
  · have := hle b (hperm.mem_iff.1 hb)
    omega

/-- Edits with different starts are sorted in one way. -/
lemma sort_eq_of_perm {es' : List Edit} (h : es.Pairwise Apart) (hperm : es'.Perm es) :
    sort es' = sort es := by
  have hsort : (sort es').Perm (sort es) :=
    (List.mergeSort_perm es' _).trans (hperm.trans (List.mergeSort_perm es _).symm)
  have hne : (sort es).Pairwise fun a b => a.span.start ≠ b.span.start :=
    (h.perm (List.mergeSort_perm es _).symm Apart.symm).imp And.left
  have hne' : (sort es').Pairwise fun a b => a.span.start ≠ b.span.start :=
    hne.perm hsort.symm Ne.symm
  have hlt : (sort es).Pairwise fun a b => a.span.start < b.span.start :=
    ((pairwise_sort es).and hne).imp fun hab => Nat.lt_of_le_of_ne hab.1 hab.2
  have hlt' : (sort es').Pairwise fun a b => a.span.start < b.span.start :=
    ((pairwise_sort es').and hne').imp fun hab => Nat.lt_of_le_of_ne hab.1 hab.2
  exact hsort.eq_of_pairwise (fun a b _ _ hab hba => absurd hab (Nat.lt_asymm hba)) hlt' hlt

/-! ### The text with the edits made -/

/-- The edits that are skipped have no part in the result. -/
lemma splice_kept (pos : Nat) (cs : List Char) (es : List Edit) :
    splice pos cs (kept pos es) = splice pos cs es := by
  induction es generalizing pos cs with
  | nil => rfl
  | cons e es ih =>
    by_cases hlt : e.span.start < pos
    · rw [kept, if_pos hlt, splice, if_pos hlt, ih]
    · rw [kept, if_neg hlt, splice, splice, if_neg hlt, if_neg hlt, ih]

/-- **The edits that are kept are made**, and what stands outside their ranges stays, in the rest
of a text of which `front` has been passed over. -/
theorem exists_parts_splice (front cs : List Char) (es : List Edit)
    (h : ∀ e ∈ es, e.span.Fits (front ++ cs)) : ∃ ps : List Part, ps.flatMap Part.before = cs ∧
      ofParts (Text.width front) ps = kept (Text.width front) es ∧
        ps.flatMap Part.after = splice (Text.width front) cs es := by
  induction es generalizing front cs with
  | nil => exact ⟨[.kept cs], by simp [Part.before], rfl, by simp [Part.after, splice]⟩
  | cons e es ih =>
    obtain ⟨he, hes⟩ := List.forall_mem_cons.1 h
    obtain ⟨span, text⟩ := e
    rw [kept, splice]
    -- an edit that starts in what has been passed over is left out
    by_cases hlt : span.start < Text.width front
    · rw [if_pos hlt, if_pos hlt]
      exact ih front cs hes
    · rw [if_neg hlt, if_neg hlt]
      -- else the text is kept up to its start, and the rest goes on behind its end
      obtain ⟨as, bs, ds, e, rfl⟩ := he.exists_parts
      obtain ⟨ks, rfl, rfl⟩ := Text.exists_append_of_width_le e (Nat.not_lt.1 hlt)
      have htake : Text.takeBytes (Text.width (front ++ ks) - Text.width front)
          (ks ++ (bs ++ ds)) = ks := by
        rw [Text.width_append, Nat.add_sub_cancel_left, Text.takeBytes_width_append]
      have hdrop : Text.dropBytes (Text.width (front ++ ks) + Text.width bs - Text.width front)
          (ks ++ (bs ++ ds)) = ds := by
        rw [Text.width_append, Nat.add_assoc, Nat.add_sub_cancel_left, ← Text.width_append,
          ← List.append_assoc, Text.dropBytes_width_append]
      obtain ⟨ps, hbefore, hparts, hafter⟩ := ih (front ++ (ks ++ bs)) ds fun x hx => by
        simpa using hes x hx
      have hwidth : Text.width (front ++ (ks ++ bs)) =
          Text.width (front ++ ks) + Text.width bs := by
        rw [← List.append_assoc, Text.width_append]
      rw [hwidth] at hparts hafter
      refine ⟨.kept ks :: .replaced bs text :: ps, ?_, ?_, ?_⟩
      · rw [List.flatMap_cons, List.flatMap_cons, hbefore]
        rfl
      · rw [ofParts, ofParts, ← Text.width_append, hparts]
      · rw [List.flatMap_cons, List.flatMap_cons, hafter, htake, hdrop, List.append_assoc]
        rfl

/-- **The text with the edits made**, where no range cuts a character. Edits whose ranges are apart
give one result in every order, which is the text with every range replaced and all else kept. Of
edits that may overlap those are made that are left when they are gone through in the order of their
starts and each is skipped that starts in the last one kept. -/
theorem apply_exact (cs : List Char) (es : List Edit) (h : ∀ e ∈ es, e.span.Fits cs) :
    (es.Pairwise Apart → (∀ es', es'.Perm es → apply cs es' = apply cs es) ∧
      ∃ ordered, ordered.Perm es ∧ Turns cs ordered (apply cs es)) ∧
    ∃ ordered, InStartOrder es ordered ∧ Turns cs (kept 0 ordered) (apply cs es) ∧
      apply cs (kept 0 ordered) = apply cs es := by
  have hperm : (sort es).Perm es := List.mergeSort_perm es _
  have hturns : Turns cs (kept 0 (sort es)) (apply cs es) :=
    exists_parts_splice [] cs (sort es) fun e he => h e (hperm.mem_iff.1 he)
  refine ⟨fun hapart => ⟨fun es' hes' => ?_, sort es, hperm, ?_⟩,
    sort es, inStartOrder_sort es, hturns, ?_⟩
  · rw [apply, sort_eq_of_perm hapart hes', ← apply]
  · have hstop := pairwise_stop_sort (fun e he => (h e he).le) hapart
    rwa [kept_eq_self hstop fun e _ => Nat.zero_le _] at hturns
  · rw [apply, sort_of_pairwise ((pairwise_sort es).sublist (kept_sublist 0 _)), splice_kept,
      ← apply]

/-- The middle one of three characters is replaced, and something is inserted at its end, where the
third one begins. -/
theorem apply_exact_touching :
    (∀ e ∈ [insert 3 "x", replace ⟨2, 3⟩ "yz"], e.span.Fits ['é', '?', 'b']) ∧
    [insert 3 "x", replace ⟨2, 3⟩ "yz"].Pairwise Apart ∧
    ∀ es', es'.Perm [insert 3 "x", replace ⟨2, 3⟩ "yz"] →
      apply ['é', '?', 'b'] es' = ['é', 'y', 'z', 'x', 'b'] := by
  have hfits : ∀ e ∈ [insert 3 "x", replace ⟨2, 3⟩ "yz"], e.span.Fits ['é', '?', 'b'] := by
    simp only [List.forall_mem_cons, List.not_mem_nil, false_imp_iff, implies_true, and_true]
    exact ⟨.of_parts ['é', '?'] [] ['b'], .of_parts ['é'] ['?'] ['b']⟩
  have hapart : [insert 3 "x", replace ⟨2, 3⟩ "yz"].Pairwise Apart := by
    simp [Apart, insert, replace]
  have hall := ((apply_exact _ _ hfits).1 hapart).1
  refine ⟨hfits, hapart, fun es' hes' => ?_⟩
  rw [hall es' hes', ← hall _ (List.Perm.swap _ _ _), apply, sort_of_pairwise]
  · rfl
  · simp [insert, replace]

end Edit

end QueryGuard
