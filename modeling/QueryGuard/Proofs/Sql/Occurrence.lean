import QueryGuard.Proofs.Sql.Ranges

/-!
Where the placeholders of a text stand. Whether one starts at a character is decided by what stands
right beside it in its bare stretch. Main statement: the placeholders of a text are exactly those
that start so, numbered from one in the order of the text; they do not overlap, and none of them
reaches into a literal or a comment.
-/

namespace QueryGuard

namespace Placeholder

variable {t : SqlText} {style : Style} {n pos : Nat} {before : Option Char} {cs : List Char}

/-- A placeholder starts at byte `n` of the text. -/
inductive Occurs (t : SqlText) : Style → Nat → Prop where
  /-- A `?` with neither a `?` nor a `:` right in front of it. -/
  | positional {s : Segment} {pre post : List Char} : s ∈ t.segments → s.kind = .bare →
      s.text = pre ++ '?' :: post → pre.getLast? ≠ some '?' → pre.getLast? ≠ some ':' →
      Occurs t .positional (s.start + Text.width pre)
  /-- A `:` with no `:` right in front of it and with a name behind it, which is as long as it can
  be. -/
  | named {s : Segment} {pre name post : List Char} : s ∈ t.segments → s.kind = .bare →
      s.text = pre ++ ':' :: (name ++ post) → pre.getLast? ≠ some ':' →
      (∃ c ∈ name.head?, Text.isAlphabetic c ∨ c = '_') →
      (∀ c ∈ name, Text.isAlphanumeric c ∨ c = '_') →
      (∀ c ∈ post.head?, ¬ (Text.isAlphanumeric c ∨ c = '_')) →
      Occurs t (.named (String.ofList name)) (s.start + Text.width pre)

/-! ### A bare stretch -/

lemma beginsName_iff {c : Char} : beginsName c ↔ Text.isAlphabetic c ∨ c = '_' := by
  simp [beginsName]

lemma continuesName_iff {c : Char} : continuesName c ↔ Text.isAlphanumeric c ∨ c = '_' := by
  simp [continuesName]

/-- **The placeholders of a stretch** are those that start at one of its characters. -/
theorem mem_inStretch_iff : (style, n) ∈ inStretch pos before cs ↔
    ∃ pre c post, cs = pre ++ c :: post ∧ n = pos + Text.width pre ∧
      at? (pre.getLast?.or before) c post = some style := by
  induction cs generalizing pos before with
  | nil => simp [inStretch]
  | cons c cs ih =>
    -- a placeholder starts at the first character, or it is one of the rest
    have hmem : (style, n) ∈ inStretch pos before (c :: cs) ↔
        (at? before c cs = some style ∧ n = pos) ∨
          (style, n) ∈ inStretch (pos + c.utf8Size) (some c) cs := by
      rw [inStretch]
      cases at? before c cs with
      | none => simp
      | some other => simp [eq_comm]
    have hlast : ∀ pre : List Char,
        (c :: pre).getLast?.or before = pre.getLast?.or (some c) := fun pre => by
      rw [List.getLast?_cons, Option.some_or, Option.or_some]
    rw [hmem, ih]
    constructor
    · rintro (⟨hat, rfl⟩ | ⟨pre, e, post, rfl, rfl, hat⟩)
      · exact ⟨[], c, cs, rfl, rfl, hat⟩
      · exact ⟨c :: pre, e, post, rfl, by rw [Text.width_cons, Nat.add_assoc], by rwa [hlast]⟩
    · rintro ⟨pre, e, post, hcs, rfl, hat⟩
      cases pre with
      | nil =>
        obtain ⟨rfl, rfl⟩ := List.cons.inj hcs
        exact .inl ⟨hat, rfl⟩
      | cons x pre =>
        obtain ⟨rfl, rfl⟩ := List.cons.inj hcs
        rw [hlast] at hat
        exact .inr ⟨pre, e, post, rfl, by rw [Text.width_cons, Nat.add_assoc], hat⟩

/-! ### A text -/

lemma exists_placeholder_iff : (∃ p ∈ t.placeholders, p.style = style ∧ p.offset = n) ↔
    ∃ s ∈ t.segments, s.kind = .bare ∧ (style, n) ∈ inStretch s.start none s.text := by
  have hmap : (∃ p ∈ t.placeholders, p.style = style ∧ p.offset = n) ↔
      (style, n) ∈ t.placeholders.map fun p => (p.style, p.offset) := by simp
  rw [hmap, SqlText.map_style_offset, SqlText.filterMap_placeholder?_tokens, List.mem_flatMap]
  refine exists_congr fun s => and_congr_right fun _ => ?_
  unfold inSegment
  by_cases hk : s.kind = .bare
  · simp [hk]
  · simp [hk]

/-- **A placeholder is listed exactly where one starts.** -/
theorem occurs_iff : Occurs t style n ↔ ∃ p ∈ t.placeholders, p.style = style ∧ p.offset = n := by
  rw [exists_placeholder_iff]
  constructor
  · intro h
    cases h with
    | @positional s pre post hs hk e hq hc =>
      refine ⟨s, hs, hk, mem_inStretch_iff.2 ⟨pre, '?', post, e, rfl, ?_⟩⟩
      rw [Option.or_none]
      exact Token.at?_eq_positional_iff.2 ⟨rfl, hq, hc⟩
    | @named s pre name post hs hk e hc hfirst hname hpost =>
      refine ⟨s, hs, hk, mem_inStretch_iff.2 ⟨pre, ':', name ++ post, e, rfl, ?_⟩⟩
      -- the name takes all that can go on with it
      have htake : (name ++ post).takeWhile continuesName = name := by
        refine Text.takeWhile_append_of_forall (fun c hc => continuesName_iff.2 (hname c hc))
          fun c hc => ?_
        rw [← Bool.not_eq_true, continuesName_iff]
        exact hpost c hc
      obtain ⟨c, hmem, hfirst⟩ := hfirst
      obtain ⟨cs, rfl⟩ := List.head?_eq_some_iff.1 hmem
      rw [Option.or_none]
      exact Token.at?_eq_named_iff.2 ⟨⟨rfl, hc, beginsName_iff.2 hfirst⟩, by rw [htake]⟩
  · rintro ⟨s, hs, hk, hm⟩
    obtain ⟨pre, c, post, e, rfl, hat⟩ := mem_inStretch_iff.1 hm
    rw [Option.or_none] at hat
    cases style with
    | positional =>
      obtain ⟨rfl, hq, hc⟩ := Token.at?_eq_positional_iff.1 hat
      exact .positional hs hk e hq hc
    | named name =>
      obtain ⟨⟨rfl, hc, hany⟩, rfl⟩ := Token.at?_eq_named_iff.1 hat
      have htext : s.text = pre ++ ':' ::
          (post.takeWhile continuesName ++ post.dropWhile continuesName) := by
        rw [e, List.takeWhile_append_dropWhile]
      refine .named hs hk htext hc ?_ (fun x hx => ?_) fun x hx => ?_
      -- the other way round the name is what was taken, up to where it stops
      · obtain ⟨x, hx, hb⟩ := (Option.any_eq_true _ _).1 hany
        obtain ⟨post, rfl⟩ := List.head?_eq_some_iff.1 hx
        rw [List.takeWhile_cons_of_pos (continuesName_of_beginsName hb)]
        exact ⟨x, rfl, beginsName_iff.1 hb⟩
      · exact continuesName_iff.1 (List.mem_takeWhile_imp hx)
      · have hstop := List.head?_dropWhile_not continuesName post
        rw [Option.mem_def.1 hx] at hstop
        rw [← continuesName_iff, hstop]
        exact Bool.false_ne_true

/-! ### Ranges -/

lemma width_text_pos (p : Placeholder) : 0 < Text.width p.text.toList := by
  refine Text.width_pos ?_
  unfold text
  split
  · decide
  · simp

/-- A placeholder lies in a bare stretch. -/
lemma Occurs.exists_segment (h : Occurs t style n) (ordinal offset : Nat) :
    ∃ s ∈ t.segments, s.kind = .bare ∧ s.start ≤ n ∧
      n + Text.width (Placeholder.text ⟨style, ordinal, offset⟩).toList ≤ s.stop := by
  cases h with
  | @positional s pre post hs hk e =>
    have hw : Text.width (Placeholder.text ⟨.positional, ordinal, offset⟩).toList =
        '?'.utf8Size := by simp [text]
    refine ⟨s, hs, hk, Nat.le_add_right _ _, ?_⟩
    rw [hw, Segment.stop, e, Text.width_append, Text.width_cons]
    omega
  | @named s pre name post hs hk e =>
    have hw : Text.width (Placeholder.text ⟨.named (String.ofList name), ordinal, offset⟩).toList =
        ':'.utf8Size + Text.width name := by simp [text]
    refine ⟨s, hs, hk, Nat.le_add_right _ _, ?_⟩
    rw [hw, Segment.stop, e, Text.width_append, Text.width_cons, Text.width_append]
    omega

end Placeholder

/-- Segments stand one behind the other. -/
lemma Segment.pairwise_place (start : Nat) (ps : List (Grammar.Piece Char)) :
    (place start ps).Pairwise (fun a b => a.stop ≤ b.start) ∧
      ∀ s ∈ place start ps, start ≤ s.start := by
  induction ps generalizing start with
  | nil => exact ⟨.nil, nofun⟩
  | cons p ps ih =>
    obtain ⟨hp, hle⟩ := ih (start + Text.width p.text)
    rw [place_cons]
    refine ⟨List.pairwise_cons.2 ⟨hle, hp⟩, List.forall_mem_cons.2 ⟨Nat.le_refl _, fun s hs => ?_⟩⟩
    exact (Nat.le_add_right _ _).trans (hle s hs)

namespace SqlText

variable {t : SqlText}

/-- Two segments have no byte in common. -/
lemma stop_le_or_of_mem_segments {a b : Segment} (ha : a ∈ t.segments) (hb : b ∈ t.segments)
    (hne : a ≠ b) : a.stop ≤ b.start ∨ b.stop ≤ a.start := by
  obtain ⟨ps, h⟩ := t.exists_cutInto
  have hp := (Segment.pairwise_place 0 ps).1
  rw [← h.segments] at hp
  have hsymm : (t.segments).Pairwise fun a b => a.stop ≤ b.start ∨ b.stop ≤ a.start :=
    hp.imp .inl
  have : Std.Symm fun a b : Segment => a.stop ≤ b.start ∨ b.stop ≤ a.start := ⟨fun _ _ => Or.symm⟩
  exact hsymm.forall ha hb hne

/-- Placeholders stand one behind the other. -/
lemma pairwise_placeholders (t : SqlText) :
    t.placeholders.Pairwise fun p q => p.span.stop ≤ q.span.start := by
  have hmap : (t.placeholders.map fun p => (p.style, p.offset)).Pairwise fun a b =>
      (Placeholder.span ⟨a.1, 0, a.2⟩).stop ≤ b.2 := by
    rw [map_style_offset, List.pairwise_filterMap]
    refine t.pairwise_stop_tokens.imp_of_mem fun {u v} hu _ hle a ha b hb => ?_
    obtain ⟨hk, rfl⟩ := Token.placeholder?_eq_some_iff.1 ha
    obtain ⟨-, rfl⟩ := Token.placeholder?_eq_some_iff.1 hb
    rw [span_style hu hk 0]
    exact hle
  exact List.pairwise_map.1 hmap

/-- **The placeholders of a text** are exactly those that occur in it. They are numbered from one,
stand one behind the other, and have no byte in common with a literal or a comment. -/
theorem placeholders_exact (t : SqlText) :
    (∀ style n, Placeholder.Occurs t style n ↔
      ∃ p ∈ t.placeholders, p.style = style ∧ p.offset = n) ∧
    t.placeholders.map (·.ordinal) = List.range' 1 t.placeholders.length ∧
    t.placeholders.Pairwise (fun p q => p.offset < q.offset ∧ p.span.stop ≤ q.span.start) ∧
    ∀ p ∈ t.placeholders, ∀ s ∈ t.segments, s.kind ≠ .bare →
      p.span.stop ≤ s.start ∨ s.stop ≤ p.span.start := by
  refine ⟨fun _ _ => Placeholder.occurs_iff, ?_, ?_, fun p hp s hs hk => ?_⟩
  · unfold placeholders
    exact List.ext_getElem (by simp) fun i _ _ => by simp [Nat.add_comm]
  · refine t.pairwise_placeholders.imp fun {p q} hle => ⟨?_, hle⟩
    have hpos := p.width_text_pos
    have hle : p.offset + Text.width p.text.toList ≤ q.offset := hle
    omega
  · obtain ⟨b, hb, hkb, hstart, hstop⟩ :=
      (Placeholder.occurs_iff.2 ⟨p, hp, rfl, rfl⟩).exists_segment p.ordinal p.offset
    have hne : b ≠ s := by
      rintro rfl
      exact hk hkb
    rcases stop_le_or_of_mem_segments hb hs hne with h | h
    · exact .inl (hstop.trans h)
    · exact .inr (h.trans hstart)

end SqlText

end QueryGuard
