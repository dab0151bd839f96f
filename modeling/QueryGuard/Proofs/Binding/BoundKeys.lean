import Mathlib.Data.List.Nodup
import Mathlib.Data.List.Perm.Subperm
import Mathlib.Tactic.Lemma
import QueryGuard.Proofs.Binding.Resolution

/-!
The keys that parameters are bound under. A name is bound without the colons in front of it, and a
position under the number of positions that are supplied below it. Main statements: the value of a
parameter is found under its bound key, supplying the parameters under these keys binds the same,
and a key is its own bound key exactly when no colon stands in front of it, or when every position
below it is supplied.
-/

namespace QueryGuard

/-! ### Ranks -/

/-- In a list with increasing keys an element stands behind those with smaller keys. -/
lemma getElem?_countP_lt {α : Type*} {key : α → Nat} {xs : List α}
    (h : xs.Pairwise fun x y => key x < key y) {x : α} (hx : x ∈ xs) :
    xs[xs.countP (key · < key x)]? = some x := by
  induction xs with
  | nil => cases hx
  | cons a xs ih =>
    obtain ⟨ha, hxs⟩ := List.pairwise_cons.1 h
    rcases List.mem_cons.1 hx with rfl | hx
    · have hnone : (x :: xs).countP (key · < key x) = 0 := by
        refine List.countP_eq_zero.2 fun y hy => ?_
        rcases List.mem_cons.1 hy with rfl | hy
        · simp
        · simpa using Nat.le_of_lt (ha y hy)
      rw [hnone]
      rfl
    · have hsucc : (a :: xs).countP (key · < key x) = xs.countP (key · < key x) + 1 :=
        List.countP_cons_of_pos (by simpa using ha x hx)
      rw [hsucc, List.getElem?_cons_succ]
      exact ih hxs hx

/-- As many distinct numbers below `n` as there are make up all of these. -/
lemma countP_lt_eq_iff {is : List Nat} (h : is.Nodup) (n : Nat) :
    is.countP (· < n) = n ↔ ∀ j < n, j ∈ is := by
  have hnodup : (is.filter (· < n)).Nodup := h.filter _
  have hsub : is.filter (· < n) ⊆ List.range n := fun j hj =>
    List.mem_range.2 (of_decide_eq_true (List.mem_filter.1 hj).2)
  rw [List.countP_eq_length_filter]
  constructor
  · intro hlen j hj
    have hperm := (List.subperm_of_subset hnodup hsub).perm_of_length_le
      (Nat.le_of_eq (by rw [hlen, List.length_range]))
    exact (List.mem_filter.1 (hperm.mem_iff.2 (List.mem_range.2 hj))).1
  · intro hall
    have hrange : List.range n ⊆ is.filter (· < n) := fun j hj =>
      List.mem_filter.2 ⟨hall j (List.mem_range.1 hj), decide_eq_true (List.mem_range.1 hj)⟩
    have hle := (List.subperm_of_subset hnodup hsub).length_le
    have hge := (List.subperm_of_subset List.nodup_range hrange).length_le
    rw [List.length_range] at hle hge
    exact Nat.le_antisymm hle hge

lemma head?_dropWhile_colon (cs : List Char) :
    (cs.dropWhile (· == ':')).head? ≠ some ':' := by
  intro h
  have hnot := List.head?_dropWhile_not (· == ':') cs
  rw [h] at hnot
  exact absurd hnot (by decide)

lemma bareName_eq_self_iff {n : String} : bareName n = n ↔ n.toList.head? ≠ some ':' := by
  rw [bareName, ← String.toList_inj, String.toList_ofList]
  constructor
  · intro h
    rw [← h]
    exact head?_dropWhile_colon _
  · intro h
    cases hn : n.toList with
    | nil => rfl
    | cons c cs =>
      rw [hn, List.head?_cons] at h
      exact List.dropWhile_cons_of_neg (by simpa using h)

lemma bareName_bareName (n : String) : bareName (bareName n) = bareName n := by
  rw [bareName_eq_self_iff, bareName, String.toList_ofList]
  exact head?_dropWhile_colon _

/-! ### Bound keys -/

/-- The value that bindings have under a key. -/
def Bindings.get? (b : Bindings) : ParamKey → Option Value
  | .index i => b.getPositional? i
  | .name n => b.getNamed? n

namespace Params

/-- The number of positions that are supplied below `i`. -/
def rank (p : Params) (i : Nat) : Nat := (p.indexed.map (·.1)).countP (· < i)

/-- The key that a parameter is bound under. -/
def boundKey (p : Params) : ParamKey → ParamKey
  | .index i => .index (p.rank i)
  | .name n => .name (bareName n)

/-- The key is the one that a parameter is bound under: the positions below it are supplied, or no
colon stands in front of it. -/
def Binds (p : Params) : ParamKey → Prop
  | .index i => ∀ j < i, j ∈ p.indexed.map (·.1)
  | .name n => n.toList.head? ≠ some ':'

/-- The parameters under the keys that they are bound under. -/
def underBoundKeys (p : Params) : Params := ⟨p.entries.map fun e => (p.boundKey e.1, e.2)⟩

variable {p : Params} {b : Bindings}

lemma nodup_indexed (h : p.resolve = .ok b) : (p.indexed.map (·.1)).Nodup := by
  rcases ok_cases h with ⟨hi, -⟩ | ⟨-, hnodup, -⟩
  · rw [hi]
    exact List.nodup_nil
  · exact hnodup

lemma boundKey_eq_self_iff (h : p.resolve = .ok b) (key : ParamKey) :
    p.boundKey key = key ↔ p.Binds key := by
  cases key with
  | index i =>
    rw [boundKey, ParamKey.index.injEq]
    exact countP_lt_eq_iff (nodup_indexed h) i
  | name n =>
    rw [boundKey, ParamKey.name.injEq]
    exact bareName_eq_self_iff

lemma pairwise_lt_inOrder (hnodup : (p.indexed.map (·.1)).Nodup) :
    p.inOrder.Pairwise fun x y => x.1 < y.1 := by
  have hne : p.inOrder.Pairwise fun x y => x.1 ≠ y.1 :=
    List.pairwise_map.1 ((p.perm_inOrder.map _).nodup_iff.2 hnodup)
  exact (p.pairwise_inOrder.and hne).imp fun h => Nat.lt_of_le_of_ne h.1 h.2

/-- Positions are bound in their order. -/
lemma getElem?_inOrder_rank (hnodup : (p.indexed.map (·.1)).Nodup) {x : Nat × Value}
    (hx : x ∈ p.indexed) : p.inOrder[p.rank x.1]? = some x := by
  have hrank : p.rank x.1 = p.inOrder.countP (·.1 < x.1) := by
    rw [rank, p.perm_inOrder.countP_eq, List.countP_map]
    rfl
  rw [hrank]
  exact getElem?_countP_lt (pairwise_lt_inOrder hnodup) (p.perm_inOrder.mem_iff.2 hx)

lemma rank_inj (hnodup : (p.indexed.map (·.1)).Nodup) {x y : Nat × Value} (hx : x ∈ p.indexed)
    (hy : y ∈ p.indexed) (h : p.rank x.1 = p.rank y.1) : x = y := by
  have hget := getElem?_inOrder_rank hnodup hx
  rw [h, getElem?_inOrder_rank hnodup hy] at hget
  exact (Option.some.inj hget).symm

lemma rank_mono (p : Params) {i j : Nat} (h : i ≤ j) : p.rank i ≤ p.rank j :=
  List.countP_mono_left fun _ _ hk => decide_eq_true (Nat.lt_of_lt_of_le (of_decide_eq_true hk) h)

lemma rank_le_rank_iff (hnodup : (p.indexed.map (·.1)).Nodup) {x y : Nat × Value}
    (hx : x ∈ p.indexed) (hy : y ∈ p.indexed) : p.rank x.1 ≤ p.rank y.1 ↔ x.1 ≤ y.1 := by
  refine ⟨fun h => Nat.le_of_not_lt fun hlt => ?_, p.rank_mono⟩
  have heq := Nat.le_antisymm h (p.rank_mono (Nat.le_of_lt hlt))
  rw [rank_inj hnodup hx hy heq] at hlt
  exact Nat.lt_irrefl _ hlt

/-- **A parameter is bound under its bound key.** -/
theorem get?_boundKey (h : p.resolve = .ok b) {e : ParamKey × Value} (he : e ∈ p.entries) :
    b.get? (p.boundKey e.1) = some e.2 := by
  rcases e with ⟨key, v⟩
  rcases ok_cases h with ⟨hi, -, hnodup, rfl⟩ | ⟨hn, hnodup, rfl⟩
  · obtain ⟨n, rfl⟩ := exists_name_of_indexed hi he
    exact (Bindings.getNamed?_eq_some_iff hnodup).2 (List.mem_filterMap.2 ⟨_, he, rfl⟩)
  · obtain ⟨i, rfl⟩ := exists_index_of_withNames hn he
    have hmem : (i, v) ∈ p.indexed := List.mem_filterMap.2 ⟨_, he, rfl⟩
    show (p.inOrder.map (·.2))[p.rank i]? = some v
    rw [List.getElem?_map, getElem?_inOrder_rank hnodup hmem]
    rfl

lemma withNames_underBoundKeys (p : Params) : p.underBoundKeys.withNames = p.withNames := by
  simp only [withNames, underBoundKeys, List.filterMap_map]
  refine List.filterMap_congr fun e _ => ?_
  rcases e with ⟨i | n, v⟩
  · rfl
  · simp [boundKey, ParamKey.name?, bareName_bareName]

lemma indexed_underBoundKeys (p : Params) :
    p.underBoundKeys.indexed = p.indexed.map fun x => (p.rank x.1, x.2) := by
  simp only [indexed, underBoundKeys, List.filterMap_map, List.map_filterMap]
  refine List.filterMap_congr fun e _ => ?_
  rcases e with ⟨i | n, v⟩ <;> rfl

lemma inOrder_underBoundKeys (hnodup : (p.indexed.map (·.1)).Nodup) :
    p.underBoundKeys.inOrder = p.inOrder.map fun x => (p.rank x.1, x.2) := by
  rw [inOrder, inOrder, indexed_underBoundKeys]
  refine (List.map_mergeSort fun x hx y hy => ?_).symm
  rw [decide_eq_decide, rank_le_rank_iff hnodup hx hy]

/-- **Under the bound keys the same is bound.** -/
theorem resolve_underBoundKeys (h : p.resolve = .ok b) : p.underBoundKeys.resolve = .ok b := by
  have hnames := p.withNames_underBoundKeys
  have hindexed := p.indexed_underBoundKeys
  rcases ok_cases h with ⟨hi, hne, hnodup, rfl⟩ | ⟨hn, hnodup, rfl⟩
  · rw [hi, List.map_nil] at hindexed
    rw [← hnames] at hne hnodup
    rw [resolve_of_nodup_names hindexed hne hnodup, hnames]
  · rw [hn] at hnames
    have hnodup' : (p.underBoundKeys.indexed.map (·.1)).Nodup := by
      rw [hindexed, List.map_map]
      exact (List.Nodup.of_map _ hnodup).map_on fun x hx y hy hxy => rank_inj hnodup hx hy hxy
    rw [resolve_of_nodup_indexes hnames hnodup', inOrder_underBoundKeys hnodup, List.map_map]
    rfl

end Params

end QueryGuard
