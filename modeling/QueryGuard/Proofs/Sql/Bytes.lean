import QueryGuard.Proofs.Sql.Lexing

/-!
The lexical grammar over bytes. The marks of the grammar are ASCII, and no byte of another character
is an ASCII byte, so what the grammar says of the characters of a text it says of its bytes. Main
statement: the segments of a text are the one way to cut its bytes by the grammar.
-/

namespace QueryGuard

open Grammar

/-! ### The bytes of a text -/

/-- The bytes of a text in UTF-8. -/
def Text.bytes (cs : List Char) : List UInt8 := cs.flatMap String.utf8EncodeChar

/-- The byte of an ASCII character. -/
def Text.byte (c : Char) : UInt8 := UInt8.ofNat c.toNat

namespace Text

@[simp] lemma bytes_nil : bytes [] = [] := rfl

lemma bytes_cons (c : Char) (cs : List Char) :
    bytes (c :: cs) = String.utf8EncodeChar c ++ bytes cs := rfl

@[simp] lemma bytes_append (as bs : List Char) : bytes (as ++ bs) = bytes as ++ bytes bs :=
  List.flatMap_append

@[simp] lemma length_bytes (cs : List Char) : (bytes cs).length = width cs := by
  induction cs with
  | nil => rfl
  | cons c cs ih => simp [bytes_cons, ih]

lemma bytes_injective {as bs : List Char} (h : bytes as = bytes bs) : as = bs := by
  refine String.ofList_inj.1 (String.toByteArray_inj.1 ?_)
  rw [String.toByteArray_ofList, String.toByteArray_ofList]
  exact congrArg List.toByteArray h

lemma distinguishes_byte : Distinguishes byte := by
  intro a b ha hb h
  have h := congrArg UInt8.toNat h
  simp only [byte, UInt8.toNat_ofNat'] at h
  exact Char.toNat_inj.1 (by omega)

lemma utf8EncodeChar_of_lt {c : Char} (h : c.toNat < 0x80) : String.utf8EncodeChar c = [byte c] :=
  if_pos (Nat.le_of_lt_succ h)

/-- No byte of a character outside ASCII is an ASCII byte. -/
lemma not_lt_of_mem_utf8EncodeChar {c : Char} (h : ¬ c.toNat < 0x80) {b : UInt8}
    (hb : b ∈ String.utf8EncodeChar c) : ¬ b.toNat < 0x80 := by
  have h : ¬ c.val.toNat ≤ 0x7f := fun hc => h (Nat.lt_succ_of_le hc)
  simp only [String.utf8EncodeChar, if_neg h] at hb
  split at hb
  · simp only [List.mem_cons, List.not_mem_nil, or_false] at hb
    rcases hb with rfl | rfl <;> simp only [UInt8.toNat_ofNat'] <;> omega
  · split at hb
    · simp only [List.mem_cons, List.not_mem_nil, or_false] at hb
      rcases hb with rfl | rfl | rfl <;> simp only [UInt8.toNat_ofNat'] <;> omega
    · simp only [List.mem_cons, List.not_mem_nil, or_false] at hb
      rcases hb with rfl | rfl | rfl | rfl <;> simp only [UInt8.toNat_ofNat'] <;> omega

lemma toNat_byte {c : Char} (h : c.toNat < 0x80) : (byte c).toNat = c.toNat := by
  simp only [byte, UInt8.toNat_ofNat']
  omega

/-- **An ASCII byte in the bytes of a text is an ASCII character of the text.** -/
lemma exists_of_bytes_eq {cs : List Char} {xs ys : List UInt8} {c : Char} (hc : c.toNat < 0x80)
    (h : bytes cs = xs ++ byte c :: ys) :
    ∃ as bs, cs = as ++ c :: bs ∧ bytes as = xs ∧ bytes bs = ys := by
  induction cs generalizing xs with
  | nil => simp at h
  | cons e cs ih =>
    rw [bytes_cons] at h
    by_cases he : e.toNat < 0x80
    · rw [utf8EncodeChar_of_lt he] at h
      cases xs with
      | nil =>
        obtain ⟨hb, rfl⟩ := List.cons.inj h
        obtain rfl := distinguishes_byte e c he hc hb
        exact ⟨[], cs, rfl, rfl, rfl⟩
      | cons x xs =>
        obtain ⟨rfl, ht⟩ := List.cons.inj h
        obtain ⟨as, bs, rfl, rfl, rfl⟩ := ih ht
        exact ⟨e :: as, bs, rfl, by rw [bytes_cons, utf8EncodeChar_of_lt he]; rfl, rfl⟩
    -- a character of several bytes ends in front of the byte, as it has no byte of ASCII
    · rcases List.append_eq_append_iff.1 h with ⟨zs, rfl, ht⟩ | ⟨zs, hz, ht⟩
      · obtain ⟨as, bs, rfl, rfl, rfl⟩ := ih ht
        exact ⟨e :: as, bs, rfl, rfl, rfl⟩
      · cases zs with
        | nil =>
          have ht : bytes cs = [] ++ byte c :: ys := ht.symm
          obtain ⟨as, bs, rfl, ha, rfl⟩ := ih ht
          refine ⟨e :: as, bs, rfl, ?_, rfl⟩
          rw [bytes_cons, ha, hz, List.append_nil, List.append_nil]
        | cons z zs =>
          obtain ⟨rfl, -⟩ := List.cons.inj ht
          have hm : byte c ∈ String.utf8EncodeChar e := by rw [hz]; simp
          exact absurd (toNat_byte hc ▸ hc) (not_lt_of_mem_utf8EncodeChar he hm)

lemma bytes_cons_of_lt {c : Char} (hc : c.toNat < 0x80) (cs : List Char) :
    bytes (c :: cs) = byte c :: bytes cs := by
  rw [bytes_cons, utf8EncodeChar_of_lt hc]
  rfl

/-- An ASCII byte at the beginning of the bytes is an ASCII character at the beginning. -/
lemma exists_of_bytes_eq_cons {cs : List Char} {ys : List UInt8} {c : Char} (hc : c.toNat < 0x80)
    (h : bytes cs = byte c :: ys) : ∃ bs, cs = c :: bs ∧ bytes bs = ys := by
  have h : bytes cs = [] ++ byte c :: ys := h
  obtain ⟨as, bs, rfl, ha, hb⟩ := exists_of_bytes_eq hc h
  cases as with
  | nil => exact ⟨bs, rfl, hb⟩
  | cons a as =>
    have := congrArg List.length ha
    simp only [length_bytes, width_cons, List.length_nil] at this
    have := a.utf8Size_pos
    omega

end Text

/-! ### The grammar of characters is that of bytes -/

variable {d : Dialect}

lemma opens_bytes {o : Opener} {cs : List Char} :
    Opens Text.byte d o (Text.bytes cs) ↔ Opens id d o cs := by
  constructor
  · intro h
    generalize hb : Text.bytes cs = bs at h
    cases h with
    | quote q rest =>
      -- an opener is made of characters of ASCII, so its bytes come from these
      obtain ⟨cs, rfl, -⟩ := Text.exists_of_bytes_eq_cons (toNat_quote_lt q) hb
      exact .quote q cs
    | dashes rest =>
      obtain ⟨cs, rfl, hb'⟩ := Text.exists_of_bytes_eq_cons (by decide) hb
      obtain ⟨cs, rfl, -⟩ := Text.exists_of_bytes_eq_cons (by decide) hb'
      exact .dashes cs
    | hash rest hd =>
      obtain ⟨cs, rfl, -⟩ := Text.exists_of_bytes_eq_cons (by decide) hb
      exact .hash cs hd
    | block rest =>
      obtain ⟨cs, rfl, hb'⟩ := Text.exists_of_bytes_eq_cons (by decide) hb
      obtain ⟨cs, rfl, -⟩ := Text.exists_of_bytes_eq_cons (by decide) hb'
      exact .block cs
  · intro h
    cases h with
    | quote q rest =>
      rw [id, Text.bytes_cons_of_lt (toNat_quote_lt q)]
      exact .quote q _
    | dashes rest => exact .dashes _
    | hash rest hd => exact .hash _ hd
    | block rest => exact .block _

/-- Bytes outside ASCII may stand anywhere in the body of a literal. -/
lemma body_of_forall_not_lt {q : Quote} {bs : List UInt8} (h : ∀ b ∈ bs, ¬ b.toNat < 0x80) :
    Body Text.byte d q bs := by
  induction bs with
  | nil => exact .nil
  | cons b bs ih =>
    have hne : ∀ c : Char, c.toNat < 0x80 → b ≠ Text.byte c := by
      rintro c hc rfl
      exact h _ List.mem_cons_self (Text.toNat_byte hc ▸ hc)
    refine .cons (.plain b (hne _ (toNat_quote_lt q)) fun hb => hne '\\' (by decide) hb.1) ?_
    exact ih fun x hx => h x (List.mem_cons_of_mem _ hx)

lemma bodyUnit_bytes {q : Quote} {cs : List Char} (h : BodyUnit id d q cs) :
    Body Text.byte d q (Text.bytes cs) := by
  cases h with
  | escaped c hd =>
    rw [id, Text.bytes_cons_of_lt (by decide), Text.bytes_cons, Text.bytes_nil, List.append_nil]
    by_cases hc : c.toNat < 0x80
    · rw [Text.utf8EncodeChar_of_lt hc]
      exact .cons (.escaped _ hd) .nil
    · have hb := fun b => Text.not_lt_of_mem_utf8EncodeChar (b := b) hc
      -- the backslash escapes the first byte, and the others are no mark
      cases he : String.utf8EncodeChar c with
      | nil => exact absurd (congrArg List.length he) (by simp [c.utf8Size_pos.ne'])
      | cons x bs =>
        refine .cons (.escaped x hd) (body_of_forall_not_lt fun b hx => hb b ?_)
        rw [he]
        exact List.mem_cons_of_mem _ hx
  | doubled =>
    rw [id, Text.bytes_cons_of_lt (toNat_quote_lt q), Text.bytes_cons_of_lt (toNat_quote_lt q)]
    exact .cons .doubled .nil
  | plain c hq he =>
    rw [Text.bytes_cons, Text.bytes_nil, List.append_nil]
    by_cases hc : c.toNat < 0x80
    · rw [Text.utf8EncodeChar_of_lt hc]
      refine .cons (.plain _ ?_ fun h => he ⟨?_, h.2⟩) .nil
      · exact Text.distinguishes_byte.ne hq hc (toNat_quote_lt q)
      · exact Text.distinguishes_byte c '\\' hc (by decide) h.1
    · exact body_of_forall_not_lt fun b => Text.not_lt_of_mem_utf8EncodeChar hc

lemma body_bytes {q : Quote} {cs : List Char} (h : Body id d q cs) :
    Body Text.byte d q (Text.bytes cs) := by
  induction h with
  | nil => exact .nil
  | cons hu _ ih =>
    rw [Text.bytes_append]
    exact (bodyUnit_bytes hu).append ih

lemma infix_of_bytes {cs : List Char} (h : [Text.byte '*', Text.byte '/'] <:+: Text.bytes cs) :
    ['*', '/'] <:+: cs := by
  obtain ⟨xs, ys, h⟩ := h
  rw [List.append_assoc] at h
  obtain ⟨as, bs, rfl, -, hb⟩ := Text.exists_of_bytes_eq (by decide) h.symm
  obtain ⟨bs, rfl, -⟩ := Text.exists_of_bytes_eq_cons (by decide) hb
  exact ⟨as, bs, by simp⟩

lemma bytes_ne_nil {cs : List Char} (h : cs ≠ []) : Text.bytes cs ≠ [] := by
  rw [← List.length_pos_iff, Text.length_bytes]
  exact Text.width_pos h

lemma spells_bare_bytes {text rest : List Char} (h : Spells id d .bare text rest.head?) :
    Spells Text.byte d .bare (Text.bytes text) (Text.bytes rest).head? := by
  refine .bare (bytes_ne_nil h.ne_nil) fun xs ys o e hy => ?_
  rw [opens_append_head hy]
  intro ho
  -- the first byte of the opener is an ASCII byte, so the opener starts at a character
  obtain ⟨c, zs, hc, hz⟩ := ho.exists_mark
  obtain ⟨y, ys, rfl⟩ := List.exists_cons_of_ne_nil hy
  obtain ⟨rfl, -⟩ := List.cons.inj hz
  obtain ⟨as, bs, rfl, -, rfl⟩ := Text.exists_of_bytes_eq hc e
  rw [← Text.bytes_cons_of_lt hc, ← Text.bytes_append] at ho
  exact h.not_opens (by simp) o (opens_bytes.1 ho)

/-- What the grammar says of the characters of a segment it says of its bytes. -/
theorem spells_bytes {kind : Segment.Kind} {text rest : List Char}
    (h : Spells id d kind text rest.head?) :
    Spells Text.byte d kind (Text.bytes text) (Text.bytes rest).head? := by
  -- what stands behind the text begins with the same character of ASCII, if with any
  have hnil : rest.head? = none → (Text.bytes rest).head? = none := fun hr => by
    rw [List.head?_eq_none_iff.1 hr, Text.bytes_nil, List.head?_nil]
  have hhead : ∀ c : Char, c.toNat < 0x80 →
      ((Text.bytes rest).head? = some (Text.byte c) ↔ rest.head? = some c) := by
    intro c hc
    constructor <;> intro hr <;> obtain ⟨r, hr⟩ := List.head?_eq_some_iff.1 hr
    · obtain ⟨cs, rfl, -⟩ := Text.exists_of_bytes_eq_cons hc hr
      rfl
    · rw [hr, Text.bytes_cons_of_lt hc, List.head?_cons]
  generalize hn : rest.head? = next at h
  cases h with
  | bare hne hno => exact spells_bare_bytes (hn ▸ .bare hne hno)
  | @closedLiteral q body _ hb hq =>
    rw [id, Text.bytes_cons_of_lt (toNat_quote_lt q), Text.bytes_append,
      Text.bytes_cons_of_lt (toNat_quote_lt q), Text.bytes_nil]
    refine .closedLiteral (body_bytes hb) ?_
    rw [Ne, hhead _ (toNat_quote_lt q), hn]
    exact hq
  | @openLiteral q body hb =>
    rw [hnil hn, id, Text.bytes_cons_of_lt (toNat_quote_lt q)]
    exact .openLiteral (body_bytes hb)
  | @openEscape q body hd hb =>
    rw [hnil hn, id, Text.bytes_cons_of_lt (toNat_quote_lt q), Text.bytes_append]
    exact .openEscape hd (body_bytes hb)
  | line ho hl hx =>
    refine .line (opens_bytes.2 ho) (fun hm => ?_) fun b hb => ?_
    -- a line feed among the bytes is one among the characters
    · obtain ⟨xs, ys, e⟩ := List.append_of_mem hm
      obtain ⟨as, bs, rfl, -, -⟩ := Text.exists_of_bytes_eq (by decide) e
      exact hl (by simp)
    · cases next with
      | none => simp [hnil hn] at hb
      | some c =>
        obtain rfl := hx c rfl
        rw [(hhead '\n' (by decide)).2 hn] at hb
        exact (Option.some.inj hb).symm
  | @closedBlock body _ hb =>
    rw [id, id, Text.bytes_cons_of_lt (by decide), Text.bytes_cons_of_lt (by decide),
      Text.bytes_append]
    exact .closedBlock fun hi => hb (infix_of_bytes hi)
  | @openBlock body hb =>
    rw [hnil hn, id, id, Text.bytes_cons_of_lt (by decide), Text.bytes_cons_of_lt (by decide)]
    exact .openBlock fun hi => hb (infix_of_bytes hi)

/-- The piece in bytes. -/
def pieceBytes (p : Piece Char) : Piece UInt8 := ⟨p.kind, Text.bytes p.text⟩

lemma textOf_map_pieceBytes (ps : List (Piece Char)) :
    textOf (ps.map pieceBytes) = Text.bytes (textOf ps) := by
  induction ps with
  | nil => rfl
  | cons p ps ih => simp [ih, pieceBytes]

lemma lexes_map_pieceBytes {ps : List (Piece Char)} (h : Lexes id d ps) :
    Lexes Text.byte d (ps.map pieceBytes) := by
  induction ps with
  | nil => trivial
  | cons p ps ih =>
    refine ⟨?_, ih h.2⟩
    rw [textOf_map_pieceBytes]
    exact spells_bytes h.1

end QueryGuard
