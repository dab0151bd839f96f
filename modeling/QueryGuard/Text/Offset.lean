/-!
Positions in a text are counted in the bytes of its UTF-8 form. Main statements: widths add up, and
taking and dropping the bytes of a part that is there gives back the two parts.
-/

namespace QueryGuard.Text

/-- The number of bytes of a text. -/
def width : List Char → Nat
  | [] => 0
  | c :: cs => c.utf8Size + width cs

/-- The characters that begin in the first `n` bytes. -/
def takeBytes : Nat → List Char → List Char
  | 0, _ => []
  | _ + 1, [] => []
  | n + 1, c :: cs => c :: takeBytes (n + 1 - c.utf8Size) cs

/-- The characters that do not begin in the first `n` bytes. -/
def dropBytes : Nat → List Char → List Char
  | 0, cs => cs
  | _ + 1, [] => []
  | n + 1, c :: cs => dropBytes (n + 1 - c.utf8Size) cs

/-- The characters that begin in the bytes from `start` up to `stop`. -/
def slice (start stop : Nat) (cs : List Char) : List Char :=
  takeBytes (stop - start) (dropBytes start cs)

/-! ### Widths -/

@[simp] theorem width_nil : width [] = 0 := rfl

@[simp] theorem width_cons (c : Char) (cs : List Char) :
    width (c :: cs) = c.utf8Size + width cs := rfl

@[simp] theorem width_append (as bs : List Char) : width (as ++ bs) = width as + width bs := by
  induction as with
  | nil => simp
  | cons c cs ih => simp [ih, Nat.add_assoc]

theorem width_pos {cs : List Char} (h : cs ≠ []) : 0 < width cs := by
  cases cs with
  | nil => exact absurd rfl h
  | cons c cs => exact Nat.lt_of_lt_of_le c.utf8Size_pos (Nat.le_add_right _ _)

/-! ### Taking and dropping -/

@[simp] theorem takeBytes_zero (cs : List Char) : takeBytes 0 cs = [] := by
  cases cs <;> rfl

@[simp] theorem dropBytes_zero (cs : List Char) : dropBytes 0 cs = cs := by
  cases cs <;> rfl

theorem takeBytes_append_dropBytes (n : Nat) (cs : List Char) :
    takeBytes n cs ++ dropBytes n cs = cs := by
  induction cs generalizing n with
  | nil => cases n <;> rfl
  | cons c cs ih =>
    cases n with
    | zero => simp
    | succ n => simp [takeBytes, dropBytes, ih]

theorem takeBytes_width_append (as bs : List Char) : takeBytes (width as) (as ++ bs) = as := by
  induction as with
  | nil => simp
  | cons c cs ih =>
    obtain ⟨n, hn⟩ : ∃ n, c.utf8Size + width cs = n + 1 :=
      ⟨c.utf8Size + width cs - 1, by have := c.utf8Size_pos; omega⟩
    have hsub : n + 1 - c.utf8Size = width cs := by omega
    simp [hn, takeBytes, hsub, ih]

theorem dropBytes_width_append (as bs : List Char) : dropBytes (width as) (as ++ bs) = bs := by
  induction as with
  | nil => simp
  | cons c cs ih =>
    obtain ⟨n, hn⟩ : ∃ n, c.utf8Size + width cs = n + 1 :=
      ⟨c.utf8Size + width cs - 1, by have := c.utf8Size_pos; omega⟩
    have hsub : n + 1 - c.utf8Size = width cs := by omega
    simp [hn, dropBytes, hsub, ih]

theorem takeBytes_append_of_le {n : Nat} {as : List Char} (h : n ≤ width as)
    (bs : List Char) : takeBytes n (as ++ bs) = takeBytes n as := by
  induction as generalizing n with
  | nil =>
    obtain rfl := Nat.le_zero.1 h
    rw [takeBytes_zero, takeBytes_zero]
  | cons c as ih =>
    cases n with
    | zero => rw [takeBytes_zero, takeBytes_zero]
    | succ n =>
      rw [width_cons] at h
      rw [List.cons_append, takeBytes, takeBytes, ih (by omega)]

theorem takeBytes_append_of_ge {n : Nat} {as : List Char} (h : width as ≤ n)
    (bs : List Char) : takeBytes n (as ++ bs) = as ++ takeBytes (n - width as) bs := by
  induction as generalizing n with
  | nil => rfl
  | cons c as ih =>
    have hc := c.utf8Size_pos
    rw [width_cons] at h
    obtain ⟨m, rfl⟩ := Nat.exists_eq_succ_of_ne_zero (n := n) (by omega)
    rw [List.cons_append, takeBytes, ih (by omega), width_cons, Nat.sub_sub]
    rfl

theorem dropBytes_append_of_ge {n : Nat} {as : List Char} (h : width as ≤ n)
    (bs : List Char) : dropBytes n (as ++ bs) = dropBytes (n - width as) bs := by
  induction as generalizing n with
  | nil => rfl
  | cons c as ih =>
    have hc := c.utf8Size_pos
    rw [width_cons] at h
    obtain ⟨m, rfl⟩ := Nat.exists_eq_succ_of_ne_zero (n := n) (by omega)
    rw [List.cons_append, dropBytes, ih (by omega), width_cons, Nat.sub_sub]

/-- The slice of a part is that part. -/
theorem slice_append (as bs cs : List Char) :
    slice (width as) (width as + width bs) (as ++ (bs ++ cs)) = bs := by
  simp [slice, dropBytes_width_append, takeBytes_width_append]

end QueryGuard.Text
