import Mathlib.Data.List.Nodup
import Mathlib.Tactic.Lemma
import QueryGuard.Binding.Bindings

/-!
How parameters resolve. Main statement: what comes of parameters is told by which kinds of keys
there are and whether one of them occurs twice. From it: the keys of parameters that resolve are
distinct, the values take no part in resolving, and the order of supply shows only in the order of
the named bindings.
-/

namespace QueryGuard

/-! ### Repetitions -/

lemma firstRepeated?_eq_none_iff {seen xs : List String} :
    firstRepeated? seen xs = none ↔ xs.Nodup ∧ ∀ x ∈ xs, x ∉ seen := by
  induction xs generalizing seen with
  | nil => simp [firstRepeated?]
  | cons x xs ih =>
    rw [firstRepeated?]
    split
    · next h =>
      refine iff_of_false (Option.some_ne_none x) fun ⟨_, hseen⟩ => ?_
      exact hseen x List.mem_cons_self (List.contains_iff_mem.1 h)
    · next h =>
      have hx : x ∉ seen := mt List.contains_iff_mem.2 h
      rw [ih, List.nodup_cons]
      constructor
      · rintro ⟨hnodup, hseen⟩
        refine ⟨⟨fun hmem => hseen x hmem List.mem_cons_self, hnodup⟩, fun y hy => ?_⟩
        rcases List.mem_cons.1 hy with rfl | hy
        · exact hx
        · exact fun hmem => hseen y hy (List.mem_cons_of_mem x hmem)
      · rintro ⟨⟨hmem, hnodup⟩, hseen⟩
        refine ⟨hnodup, fun y hy hcons => ?_⟩
        rcases List.mem_cons.1 hcons with rfl | hyseen
        · exact hmem hy
        · exact hseen y (List.mem_cons_of_mem x hy) hyseen

/-- In a list in order, what occurs twice stands side by side. -/
lemma firstDoubled?_eq_none_iff {is : List Nat} (h : is.Pairwise (· ≤ ·)) :
    firstDoubled? is = none ↔ is.Nodup := by
  fun_induction firstDoubled? is with
  | case1 i is => simp
  | case2 i j is hne ih =>
    obtain ⟨hle, htail⟩ := List.pairwise_cons.1 h
    rw [ih htail, List.nodup_cons (a := i)]
    refine ⟨fun hnodup => ⟨fun hmem => ?_, hnodup⟩, And.right⟩
    -- the first is below the second, and the second is at most what follows it
    have hlt : i < j := Nat.lt_of_le_of_ne (hle j List.mem_cons_self) hne
    rcases List.mem_cons.1 hmem with rfl | hmem
    · exact Nat.lt_irrefl _ hlt
    · exact Nat.not_lt.2 ((List.pairwise_cons.1 htail).1 i hmem) hlt
  | case3 is hne =>
    rcases is with _ | ⟨i, _ | ⟨j, is⟩⟩
    · simp
    · simp
    · exact absurd rfl (hne i j is)

/-! ### What comes of parameters -/

namespace Params

variable {p p' : Params} {b : Bindings}

lemma perm_inOrder (p : Params) : p.inOrder.Perm p.indexed := List.mergeSort_perm _ _

lemma pairwise_inOrder (p : Params) : p.inOrder.Pairwise fun x y => x.1 ≤ y.1 := by
  have h : p.inOrder.Pairwise fun x y => decide (x.1 ≤ y.1) = true :=
    List.pairwise_mergeSort
      (fun x y z hxy hyz => by
        simp only [decide_eq_true_eq] at hxy hyz ⊢
        exact Nat.le_trans hxy hyz)
      (fun x y => by simpa using Nat.le_total x.1 y.1) p.indexed
  exact h.imp fun hxy => of_decide_eq_true hxy

lemma firstDoubled?_inOrder_eq_none_iff (p : Params) :
    firstDoubled? (p.inOrder.map (·.1)) = none ↔ (p.indexed.map (·.1)).Nodup :=
  (firstDoubled?_eq_none_iff (List.pairwise_map.2 p.pairwise_inOrder)).trans
    (p.perm_inOrder.map _).nodup_iff

lemma resolve_of_both {i : Nat} {n : String} {v w : Value} {xs : List (Nat × Value)}
    {ws : List (String × Value)} (hi : p.indexed = (i, v) :: xs)
    (hn : p.withNames = (n, w) :: ws) : p.resolve = .error (.mixedKeys i n) := by
  unfold resolve
  rw [hi, hn]

lemma resolve_of_names (hi : p.indexed = []) (hn : p.withNames ≠ []) :
    p.resolve = match firstRepeated? [] (p.withNames.map (·.1)) with
      | some n => .error (.repeatedName n)
      | none => .ok (.named p.withNames) := by
  unfold resolve
  rw [hi]
  cases hw : p.withNames with
  | nil => exact absurd hw hn
  | cons w ws => rfl

lemma resolve_of_indexes (hn : p.withNames = []) :
    p.resolve = match firstDoubled? (p.inOrder.map (·.1)) with
      | some i => .error (.repeatedIndex i)
      | none => .ok (.positional (p.inOrder.map (·.2))) := by
  unfold resolve
  rw [hn]
  cases p.indexed <;> rfl

lemma firstRepeated?_names_eq_none_iff (p : Params) :
    firstRepeated? [] (p.withNames.map (·.1)) = none ↔ (p.withNames.map (·.1)).Nodup := by
  simp [firstRepeated?_eq_none_iff]

lemma resolve_of_nodup_names (hi : p.indexed = []) (hn : p.withNames ≠ [])
    (hnodup : (p.withNames.map (·.1)).Nodup) : p.resolve = .ok (.named p.withNames) := by
  rw [resolve_of_names hi hn, p.firstRepeated?_names_eq_none_iff.2 hnodup]

lemma resolve_of_nodup_indexes (hn : p.withNames = []) (hnodup : (p.indexed.map (·.1)).Nodup) :
    p.resolve = .ok (.positional (p.inOrder.map (·.2))) := by
  rw [resolve_of_indexes hn, p.firstDoubled?_inOrder_eq_none_iff.2 hnodup]

/-- **What comes of parameters**: positions and names do not go together, and neither a position
nor a name may occur twice. -/
theorem resolve_cases (p : Params) :
    (p.indexed ≠ [] ∧ p.withNames ≠ [] ∧ ∃ i n, p.resolve = .error (.mixedKeys i n)) ∨
    (p.indexed = [] ∧ p.withNames ≠ [] ∧ ¬ (p.withNames.map (·.1)).Nodup ∧
      ∃ n, p.resolve = .error (.repeatedName n)) ∨
    (p.indexed = [] ∧ p.withNames ≠ [] ∧ (p.withNames.map (·.1)).Nodup ∧
      p.resolve = .ok (.named p.withNames)) ∨
    (p.withNames = [] ∧ ¬ (p.indexed.map (·.1)).Nodup ∧
      ∃ i, p.resolve = .error (.repeatedIndex i)) ∨
    (p.withNames = [] ∧ (p.indexed.map (·.1)).Nodup ∧
      p.resolve = .ok (.positional (p.inOrder.map (·.2)))) := by
  rcases eq_or_ne p.withNames [] with hn | hn
  · refine .inr (.inr (.inr ?_))
    by_cases hnodup : (p.indexed.map (·.1)).Nodup
    · exact .inr ⟨hn, hnodup, resolve_of_nodup_indexes hn hnodup⟩
    · obtain ⟨i, hd⟩ := Option.ne_none_iff_exists'.1
        (mt p.firstDoubled?_inOrder_eq_none_iff.1 hnodup)
      exact .inl ⟨hn, hnodup, i, by rw [resolve_of_indexes hn, hd]⟩
  · cases hi : p.indexed with
    | cons x xs =>
      obtain ⟨w, ws, hw⟩ := List.exists_cons_of_ne_nil hn
      exact .inl ⟨List.cons_ne_nil x xs, hn, x.1, w.1, resolve_of_both hi hw⟩
    | nil =>
      refine .inr ?_
      by_cases hnodup : (p.withNames.map (·.1)).Nodup
      · exact .inr (.inl ⟨rfl, hn, hnodup, resolve_of_nodup_names hi hn hnodup⟩)
      · obtain ⟨n, hd⟩ := Option.ne_none_iff_exists'.1
          (mt p.firstRepeated?_names_eq_none_iff.1 hnodup)
        exact .inl ⟨rfl, hn, hnodup, n, by rw [resolve_of_names hi hn, hd]⟩

/-- What resolves does so as positions or as names. -/
lemma ok_cases (h : p.resolve = .ok b) :
    (p.indexed = [] ∧ p.withNames ≠ [] ∧ (p.withNames.map (·.1)).Nodup ∧
      b = .named p.withNames) ∨
    (p.withNames = [] ∧ (p.indexed.map (·.1)).Nodup ∧
      b = .positional (p.inOrder.map (·.2))) := by
  rcases p.resolve_cases with ⟨-, -, i, n, hr⟩ | ⟨-, -, -, n, hr⟩ | ⟨hi, hn, hnodup, hr⟩ |
    ⟨-, -, i, hr⟩ | ⟨hn, hnodup, hr⟩
  · rw [hr] at h
    cases h
  · rw [hr] at h
    cases h
  · rw [hr] at h
    exact .inl ⟨hi, hn, hnodup, (Except.ok.inj h).symm⟩
  · rw [hr] at h
    cases h
  · rw [hr] at h
    exact .inr ⟨hn, hnodup, (Except.ok.inj h).symm⟩

/-- When parameters follow no protocol. -/
lemma exists_error_iff (p : Params) : (∃ m, p.resolve = .error m) ↔
    (p.indexed ≠ [] ∧ p.withNames ≠ []) ∨ ¬ (p.withNames.map (·.1)).Nodup ∨
      ¬ (p.indexed.map (·.1)).Nodup := by
  rcases p.resolve_cases with ⟨hi, hn, i, n, hr⟩ | ⟨-, -, hd, n, hr⟩ | ⟨hi, -, hnodup, hr⟩ |
    ⟨-, hd, i, hr⟩ | ⟨hn, hnodup, hr⟩
  · exact iff_of_true ⟨_, hr⟩ (.inl ⟨hi, hn⟩)
  · exact iff_of_true ⟨_, hr⟩ (.inr (.inl hd))
  · simp [hr, hi, hnodup]
  · exact iff_of_true ⟨_, hr⟩ (.inr (.inr hd))
  · simp [hr, hn, hnodup]

/-! ### Keys -/

lemma exists_name_of_indexed (h : p.indexed = []) {e : ParamKey × Value} (he : e ∈ p.entries) :
    ∃ n, e.1 = .name n := by
  have hnone := List.filterMap_eq_nil_iff.1 h e he
  rcases e with ⟨⟨i⟩ | ⟨n⟩, v⟩
  · cases hnone
  · exact ⟨n, rfl⟩

lemma exists_index_of_withNames (h : p.withNames = []) {e : ParamKey × Value}
    (he : e ∈ p.entries) : ∃ i, e.1 = .index i := by
  have hnone := List.filterMap_eq_nil_iff.1 h e he
  rcases e with ⟨⟨i⟩ | ⟨n⟩, v⟩
  · exact ⟨i, rfl⟩
  · cases hnone

/-- Parameters that resolve have distinct keys. -/
theorem pairwise_key_ne (h : p.resolve = .ok b) : p.entries.Pairwise fun e e' => e.1 ≠ e'.1 := by
  rcases ok_cases h with ⟨hi, -, hnodup, -⟩ | ⟨hn, hnodup, -⟩
  · have hp := List.pairwise_filterMap.1 (List.pairwise_map.1 hnodup)
    refine hp.imp_of_mem fun {e e'} he he' hne heq => ?_
    obtain ⟨n, hname⟩ := exists_name_of_indexed hi he
    exact hne (bareName n, e.2) (by simp [hname, ParamKey.name?]) (bareName n, e'.2)
      (by simp [← heq, hname, ParamKey.name?]) rfl
  · have hp := List.pairwise_filterMap.1 (List.pairwise_map.1 hnodup)
    refine hp.imp_of_mem fun {e e'} he he' hne heq => ?_
    obtain ⟨i, hindex⟩ := exists_index_of_withNames hn he
    exact hne (i, e.2) (by simp [hindex, ParamKey.index?]) (i, e'.2)
      (by simp [← heq, hindex, ParamKey.index?]) rfl

end Params

/-! ### The order of supply -/

/-- Under distinct names each is found. -/
lemma Bindings.getNamed?_eq_some_iff {pairs : List (String × Value)}
    (hnodup : (pairs.map (·.1)).Nodup) {n : String} {v : Value} :
    (named pairs).getNamed? n = some v ↔ (n, v) ∈ pairs := by
  show (pairs.find? (·.1 == n)).map (·.2) = some v ↔ _
  cases hf : pairs.find? (·.1 == n) with
  | none =>
    refine iff_of_false (Option.some_ne_none v).symm fun hmem => ?_
    exact List.find?_eq_none.1 hf _ hmem (beq_self_eq_true n)
  | some x =>
    have hn := List.find?_some hf
    obtain rfl := eq_of_beq hn
    rw [Option.map_some, Option.some_inj]
    refine ⟨fun h => h ▸ List.mem_of_find?_eq_some hf, fun hmem => ?_⟩
    rw [List.inj_on_of_nodup_map hnodup (List.mem_of_find?_eq_some hf) hmem rfl]

/-- Bindings that differ at most in the order of names, which are distinct. -/
inductive Bindings.Rearranges : Bindings → Bindings → Prop
  | positional (values : List Value) : Rearranges (.positional values) (.positional values)
  | named {pairs pairs' : List (String × Value)} (h : pairs.Perm pairs')
    (hnodup : (pairs.map (·.1)).Nodup) : Rearranges (.named pairs) (.named pairs')

namespace Params

variable {p p' : Params} {b : Bindings}

lemma inOrder_eq_of_perm (h : p.indexed.Perm p'.indexed) (hnodup : (p.indexed.map (·.1)).Nodup) :
    p.inOrder = p'.inOrder := by
  have hperm := (p.perm_inOrder.trans h).trans p'.perm_inOrder.symm
  refine hperm.eq_of_pairwise (fun x y hx hy hxy hyx => ?_) p.pairwise_inOrder p'.pairwise_inOrder
  exact List.inj_on_of_nodup_map hnodup (p.perm_inOrder.mem_iff.1 hx)
    (h.mem_iff.2 (p'.perm_inOrder.mem_iff.1 hy)) (Nat.le_antisymm hxy hyx)

/-- **The order of supply** decides neither whether parameters resolve nor what they bind. -/
theorem resolve_of_perm (h : p.entries.Perm p'.entries) :
    (∃ m m', p.resolve = .error m ∧ p'.resolve = .error m') ∨
      ∃ b b', p.resolve = .ok b ∧ p'.resolve = .ok b' ∧ b.Rearranges b' := by
  have hi : p.indexed.Perm p'.indexed := h.filterMap _
  have hn : p.withNames.Perm p'.withNames := h.filterMap _
  have hi0 : p.indexed = [] ↔ p'.indexed = [] := by
    rw [← List.length_eq_zero_iff, hi.length_eq, List.length_eq_zero_iff]
  have hn0 : p.withNames = [] ↔ p'.withNames = [] := by
    rw [← List.length_eq_zero_iff, hn.length_eq, List.length_eq_zero_iff]
  have herror : (∃ m, p.resolve = .error m) ↔ ∃ m, p'.resolve = .error m := by
    rw [exists_error_iff, exists_error_iff, (hi.map _).nodup_iff, (hn.map _).nodup_iff, ne_eq,
      ne_eq, ne_eq, ne_eq, hi0, hn0]
  cases hr : p.resolve with
  | error m =>
    obtain ⟨m', hr'⟩ := herror.1 ⟨m, hr⟩
    exact .inl ⟨m, m', rfl, hr'⟩
  | ok b =>
    cases hr' : p'.resolve with
    | error m' =>
      obtain ⟨m, hm⟩ := herror.2 ⟨m', hr'⟩
      rw [hr] at hm
      cases hm
    | ok b' =>
      refine .inr ⟨b, b', rfl, rfl, ?_⟩
      -- both resolve, and whether to names depends on what names there are, not on their order
      rcases ok_cases hr with ⟨-, hne, hnodup, rfl⟩ | ⟨hnil, hnodup, rfl⟩
      · rcases ok_cases hr' with ⟨-, -, -, rfl⟩ | ⟨hnil', -, rfl⟩
        · exact .named hn hnodup
        · exact absurd (hn0.2 hnil') hne
      · rcases ok_cases hr' with ⟨-, hne', -⟩ | ⟨-, -, rfl⟩
        · exact absurd (hn0.1 hnil) hne'
        · rw [inOrder_eq_of_perm hi hnodup]
          exact .positional _

end Params

/-! ### Keys without values -/

/-- The bindings with `null` for every value. -/
def Bindings.erased : Bindings → Bindings
  | positional values => positional (values.map fun _ => .null)
  | named pairs => named (pairs.map fun x => (x.1, .null))

namespace Params

/-- The parameters with `null` for every value. -/
def erased (p : Params) : Params := ⟨p.entries.map fun e => (e.1, .null)⟩

lemma erased_congr {p p' : Params} (h : p.entries.map (·.1) = p'.entries.map (·.1)) :
    p.erased = p'.erased := by
  have herased : ∀ p : Params, p.erased = ⟨(p.entries.map (·.1)).map fun key => (key, .null)⟩ :=
    fun p => by simp [erased]
  rw [herased, herased, h]

variable (p : Params)

lemma indexed_erased : p.erased.indexed = p.indexed.map fun x => (x.1, .null) := by
  simp only [indexed, erased, List.filterMap_map, List.map_filterMap]
  congr
  funext e
  rw [Option.map_map]
  rfl

lemma withNames_erased : p.erased.withNames = p.withNames.map fun x => (x.1, .null) := by
  simp only [withNames, erased, List.filterMap_map, List.map_filterMap]
  congr
  funext e
  rw [Option.map_map]
  rfl

lemma inOrder_erased : p.erased.inOrder = p.inOrder.map fun x => (x.1, .null) := by
  rw [inOrder, inOrder, indexed_erased]
  refine (List.map_mergeSort ?_).symm
  exact fun _ _ _ _ => rfl

/-- **Values take no part in resolving.** -/
theorem resolve_erased : p.erased.resolve = p.resolve.map Bindings.erased := by
  have hi := p.indexed_erased
  have hn := p.withNames_erased
  have hkeys : ∀ {κ : Type} (xs : List (κ × Value)),
      (xs.map fun x => (x.1, Value.null)).map (·.1) = xs.map (·.1) := by
    intro κ xs
    rw [List.map_map]
    rfl
  rcases eq_or_ne p.withNames [] with hn0 | hn0
  · rw [hn0] at hn
    rw [resolve_of_indexes hn0, resolve_of_indexes hn, inOrder_erased, hkeys]
    cases firstDoubled? (p.inOrder.map (·.1)) with
    | none => simp [Except.map, Bindings.erased]
    | some i => rfl
  · cases hi0 : p.indexed with
    | nil =>
      rw [hi0] at hi
      rw [resolve_of_names hi0 hn0, resolve_of_names hi (by simpa [hn] using hn0), hn, hkeys]
      cases firstRepeated? [] (p.withNames.map (·.1)) <;> rfl
    | cons x xs =>
      obtain ⟨w, ws, hw⟩ := List.exists_cons_of_ne_nil hn0
      rw [hi0] at hi
      rw [hw] at hn
      rw [resolve_of_both hi0 hw, resolve_of_both hi hn]
      rfl

/-! ### Values under positions -/

lemma resolve_positional (values : List Value) :
    (positional values).resolve = .ok (.positional values) := by
  have hnames : (positional values).withNames = [] := by
    simp only [withNames, positional, List.filterMap_eq_nil_iff, List.mem_mapIdx]
    rintro _ ⟨i, hi, rfl⟩
    rfl
  have hindexed : (positional values).indexed = values.mapIdx fun i v => (i, v) := by
    simp [indexed, positional, List.mapIdx_eq_zipIdx_map, List.filterMap_map, ParamKey.index?]
  have hlt : (values.mapIdx fun i v => (i, v)).Pairwise fun x y => x.1 < y.1 := by
    rw [List.pairwise_iff_getElem]
    intro i j hi hj hij
    simpa using hij
  have horder : (positional values).inOrder = values.mapIdx fun i v => (i, v) := by
    rw [inOrder, hindexed]
    exact List.mergeSort_of_pairwise (hlt.imp fun h => decide_eq_true (Nat.le_of_lt h))
  have hvalues : (positional values).inOrder.map (·.2) = values := by
    rw [horder]
    exact List.ext_getElem (by simp) fun i _ _ => by simp
  have hnodup : ((positional values).indexed.map (·.1)).Nodup := by
    rw [hindexed]
    exact List.pairwise_map.2 (hlt.imp Nat.ne_of_lt)
  rw [resolve_of_nodup_indexes hnames hnodup, hvalues]

end Params

end QueryGuard
