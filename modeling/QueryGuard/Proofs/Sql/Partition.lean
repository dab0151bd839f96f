import QueryGuard.Proofs.Sql.Bytes

/-!
The segments of a text as ranges of its bytes. Main statement: they leave no gap, no two bare ones
stand side by side, each of them reads as the grammar says, and no other ranges do all of this.
-/

namespace QueryGuard

open Grammar

/-- A range of the bytes of a text with its kind. -/
structure SegmentRange where
  kind : Segment.Kind
  start : Nat
  stop : Nat
  deriving DecidableEq, Repr

/-- The bytes of the segment. -/
def Segment.range (s : Segment) : SegmentRange := ⟨s.kind, s.start, s.stop⟩

namespace SegmentRange

/-- The bytes of the range. -/
def slice (bs : List UInt8) (r : SegmentRange) : List UInt8 :=
  (bs.drop r.start).take (r.stop - r.start)

/-- The ranges stand one after the other from `start` to `stop`, and none is empty. -/
def Tile (start stop : Nat) : List SegmentRange → Prop
  | [] => start = stop
  | r :: rs => r.start = start ∧ r.start < r.stop ∧ Tile r.stop stop rs

/-- **The ranges cut the bytes by the lexical grammar.** -/
structure Cut (d : Dialect) (bs : List UInt8) (rs : List SegmentRange) : Prop where
  tile : Tile 0 bs.length rs
  /-- No two bare ranges stand side by side. -/
  separated : rs.IsChain fun r s => ¬ (r.kind = .bare ∧ s.kind = .bare)
  /-- Each range reads as a segment of its kind. -/
  spells : ∀ r ∈ rs, Spells Text.byte d r.kind (r.slice bs) (bs.drop r.stop).head?
  /-- A bare range goes on to the next opener. -/
  maximal : ∀ r ∈ rs, r.kind = .bare →
    r.stop = bs.length ∨ ∃ o, Opens Text.byte d o (bs.drop r.stop)

/-! ### Ranges of pieces -/

/-- The ranges of pieces that stand one after the other from byte `start`. -/
def ofPieces (start : Nat) : List (Piece UInt8) → List SegmentRange
  | [] => []
  | p :: ps => ⟨p.kind, start, start + p.text.length⟩ :: ofPieces (start + p.text.length) ps

/-- The piece that the range cuts out. -/
def piece (bs : List UInt8) (r : SegmentRange) : Piece UInt8 := ⟨r.kind, r.slice bs⟩

variable {d : Dialect} {bs : List UInt8}

lemma tile_ofPieces {ps : List (Piece UInt8)} (h : Lexes Text.byte d ps) (start : Nat) :
    Tile start (start + (textOf ps).length) (ofPieces start ps) := by
  induction ps generalizing start with
  | nil => rfl
  | cons p ps ih =>
    have hpos := List.length_pos_iff.2 h.1.ne_nil
    refine ⟨rfl, Nat.lt_add_of_pos_right hpos, ?_⟩
    rw [textOf_cons, List.length_append, ← Nat.add_assoc]
    exact ih h.2 _

lemma separated_ofPieces {ps : List (Piece UInt8)} (h : Separated ps) (start : Nat) :
    (ofPieces start ps).IsChain fun r s => ¬ (r.kind = .bare ∧ s.kind = .bare) := by
  induction ps generalizing start with
  | nil => exact .nil
  | cons p ps ih =>
    cases ps with
    | nil => exact .singleton _
    | cons q ps =>
      obtain ⟨hpq, hq⟩ := List.isChain_cons_cons.1 h
      exact List.isChain_cons_cons.2 ⟨hpq, ih hq _⟩

/-- What a range of pieces cuts out is its piece, and what stands behind it are the later ones. -/
lemma exists_piece_of_mem_ofPieces {ps : List (Piece UInt8)} (before : List UInt8)
    {r : SegmentRange} (hr : r ∈ ofPieces before.length ps) :
    ∃ ps₁ p ps₂, ps = ps₁ ++ p :: ps₂ ∧ r.kind = p.kind ∧
      r.slice (before ++ textOf ps) = p.text ∧ (before ++ textOf ps).drop r.stop = textOf ps₂ ∧
      r.stop ≤ before.length + (textOf ps).length := by
  induction ps generalizing before with
  | nil => simp [ofPieces] at hr
  | cons p ps ih =>
    rcases List.mem_cons.1 hr with rfl | hr
    · refine ⟨[], p, ps, rfl, rfl, ?_, ?_, ?_⟩
      · simp [slice]
      · simp [← List.drop_drop]
      · simp only [textOf_cons, List.length_append]
        omega
    · rw [← List.length_append] at hr
      obtain ⟨ps₁, q, ps₂, rfl, hk, hs, ht, hle⟩ := ih _ hr
      refine ⟨p :: ps₁, q, ps₂, rfl, hk, ?_, ?_, ?_⟩
      · rwa [List.append_assoc] at hs
      · rwa [List.append_assoc] at ht
      · rwa [List.length_append, Nat.add_assoc, ← List.length_append] at hle

/-- Pieces that the grammar allows cut their text. -/
theorem cut_ofPieces {ps : List (Piece UInt8)} (h : Lexes Text.byte d ps) (hs : Separated ps) :
    Cut d (textOf ps) (ofPieces 0 ps) := by
  constructor
  · simpa using tile_ofPieces h 0
  · exact separated_ofPieces hs 0
  · intro r hr
    obtain ⟨ps₁, p, ps₂, rfl, hk, hsl, hdr, -⟩ := exists_piece_of_mem_ofPieces [] hr
    simp only [List.nil_append] at hsl hdr
    rw [hk, hsl, hdr]
    exact h.of_append.1
  · intro r hr hb
    obtain ⟨ps₁, p, ps₂, rfl, hk, hsl, hdr, hle⟩ := exists_piece_of_mem_ofPieces [] hr
    simp only [List.nil_append, List.length_nil, Nat.zero_add] at hdr hle
    rw [hdr]
    by_cases hnil : textOf ps₂ = []
    · left
      rw [hnil, List.drop_eq_nil_iff] at hdr
      exact Nat.le_antisymm hle hdr
    · exact .inr (h.of_append.2.opens_of_bare hs.right_of_append (hk ▸ hb) hnil)

/-! ### Pieces of ranges -/

lemma Tile.le {start stop : Nat} {rs : List SegmentRange} (h : Tile start stop rs) :
    start ≤ stop := by
  induction rs generalizing start with
  | nil => exact Nat.le_of_eq h
  | cons r rs ih =>
    obtain ⟨rfl, hlt, h⟩ := h
    exact Nat.le_trans (Nat.le_of_lt hlt) (ih h)

/-- Ranges that stand one after the other cut out pieces that stand one after the other. -/
lemma ofPieces_map_piece {start : Nat} {rs : List SegmentRange} (h : Tile start bs.length rs) :
    textOf (rs.map (piece bs)) = bs.drop start ∧ ofPieces start (rs.map (piece bs)) = rs := by
  induction rs generalizing start with
  | nil => simp [ofPieces, show start = bs.length from h]
  | cons r rs ih =>
    obtain ⟨rfl, hlt, h⟩ := h
    obtain ⟨ht, ho⟩ := ih h
    have hle := h.le
    have hstop : r.start + (r.slice bs).length = r.stop := by
      simp only [slice, List.length_take, List.length_drop]
      omega
    constructor
    · rw [List.map_cons, textOf_cons, ht]
      have hd : bs.drop r.stop = (bs.drop r.start).drop (r.stop - r.start) := by
        rw [List.drop_drop, Nat.add_sub_cancel' (Nat.le_of_lt hlt)]
      rw [hd]
      exact List.take_append_drop _ _
    · simp only [List.map_cons, ofPieces, piece, hstop, ho]

lemma Cut.lexes {start : Nat} {rs : List SegmentRange} (ht : Tile start bs.length rs)
    (hs : ∀ r ∈ rs, Spells Text.byte d r.kind (r.slice bs) (bs.drop r.stop).head?) :
    Lexes Text.byte d (rs.map (piece bs)) := by
  induction rs generalizing start with
  | nil => trivial
  | cons r rs ih =>
    obtain ⟨-, -, ht⟩ := ht
    refine ⟨?_, ih ht fun s hs' => hs s (List.mem_cons_of_mem _ hs')⟩
    rw [(ofPieces_map_piece ht).1]
    exact hs r List.mem_cons_self

lemma separated_map_piece {rs : List SegmentRange}
    (h : rs.IsChain fun r s => ¬ (r.kind = .bare ∧ s.kind = .bare)) :
    Separated (rs.map (piece bs)) := (List.isChain_map _).2 h

/-- Bytes are cut by the grammar in one way only. -/
theorem Cut.unique {rs ss : List SegmentRange} (hr : Cut d bs rs) (hs : Cut d bs ss) : rs = ss := by
  obtain ⟨hrt, hro⟩ := ofPieces_map_piece hr.tile
  obtain ⟨hst, hso⟩ := ofPieces_map_piece hs.tile
  rw [← hro, ← hso, Lexes.unique Text.distinguishes_byte (Cut.lexes hr.tile hr.spells)
    (separated_map_piece hr.separated) (Cut.lexes hs.tile hs.spells)
    (separated_map_piece hs.separated) (hrt.trans hst.symm)]

/-! ### The ranges of segments -/

lemma map_range_place (start : Nat) (ps : List (Piece Char)) :
    (Segment.place start ps).map Segment.range = ofPieces start (ps.map pieceBytes) := by
  induction ps generalizing start with
  | nil => rfl
  | cons p ps ih => simp [ofPieces, Segment.range, Segment.stop, pieceBytes, ih]

lemma cut_segments (t : SqlText) :
    Cut t.dialect (Text.bytes t.chars) (t.segments.map Segment.range) := by
  obtain ⟨ps, h⟩ := t.exists_cutInto
  rw [h.segments, h.chars, map_range_place, ← textOf_map_pieceBytes]
  exact cut_ofPieces (lexes_map_pieceBytes h.lexes) ((List.isChain_map _).2 h.separated)

end SegmentRange

/-- **The segments of a text are the one way to cut its bytes by the lexical grammar.** -/
theorem SqlText.cut_iff_eq_segments (t : SqlText) (rs : List SegmentRange) :
    SegmentRange.Cut t.dialect (Text.bytes t.chars) rs ↔ rs = t.segments.map Segment.range :=
  ⟨fun h => h.unique (SegmentRange.cut_segments t), fun h => h ▸ SegmentRange.cut_segments t⟩

end QueryGuard
