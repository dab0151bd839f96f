import QueryGuard.Proofs.Binding.BoundKeys
import QueryGuard.Proofs.Guard.Message

/-!
The two protocols that parameters may follow. Main statement: parameters resolve exactly when their
keys are distinct positions, or names that are distinct without colons, and then every value is bound
once, in the order of positions or of supply. An object whose fields are the numbers from zero on
resolves as the array of its values.
-/

namespace QueryGuard

namespace Params

/-- Every key is a position, and no position occurs twice. -/
def IsSequence (p : Params) : Prop :=
  ∃ xs : List (Nat × Value), p.entries = xs.map (fun x => (.index x.1, x.2)) ∧
    (xs.map (·.1)).Nodup

/-- Every key is a name, and no name occurs twice, colons in front left out. -/
def IsMap (p : Params) : Prop :=
  ∃ xs : List (String × Value), p.entries = xs.map (fun x => (.name x.1, x.2)) ∧
    (xs.map fun x => bareName x.1).Nodup

/-- The bindings have the values in the order of their positions. -/
def BindsByPosition (p : Params) (b : Bindings) : Prop :=
  ∃ xs : List (Nat × Value), p.entries.Perm (xs.map fun x => (.index x.1, x.2)) ∧
    xs.Pairwise (fun x y => x.1 < y.1) ∧ b = .positional (xs.map (·.2))

/-- The bindings have the values in the order of supply, each under its name without colons in
front. -/
def BindsByName (p : Params) (b : Bindings) : Prop :=
  ∃ xs : List (String × Value), xs ≠ [] ∧ p.entries = xs.map (fun x => (.name x.1, x.2)) ∧
    b = .named (xs.map fun x => (bareName x.1, x.2)) ∧
    ∀ x ∈ xs, (bareName x.1).toList.head? ≠ some ':'

variable {p : Params} {b : Bindings}

/-! ### Keys of one kind -/

lemma indexed_of_entries {xs : List (Nat × Value)}
    (h : p.entries = xs.map fun x => (.index x.1, x.2)) : p.indexed = xs ∧ p.withNames = [] := by
  constructor
  · rw [indexed, h, List.filterMap_map]
    exact List.filterMap_some
  · rw [withNames, h, List.filterMap_map]
    exact List.filterMap_eq_nil_iff.2 fun x _ => rfl

lemma withNames_of_entries {xs : List (String × Value)}
    (h : p.entries = xs.map fun x => (.name x.1, x.2)) :
    p.withNames = xs.map (fun x => (bareName x.1, x.2)) ∧ p.indexed = [] := by
  constructor
  · rw [withNames, h, List.filterMap_map]
    show xs.filterMap (some ∘ fun x => (bareName x.1, x.2)) = _
    rw [List.filterMap_eq_map]
  · rw [indexed, h, List.filterMap_map]
    exact List.filterMap_eq_nil_iff.2 fun x _ => rfl

/-- Without names, every key is a position. -/
lemma entries_of_withNames (h : p.withNames = []) :
    p.entries = p.indexed.map fun x => (.index x.1, x.2) := by
  rw [indexed, List.map_filterMap]
  symm
  refine (List.filterMap_congr fun e he => ?_).trans List.filterMap_some
  obtain ⟨i, hi⟩ := exists_index_of_withNames h he
  obtain ⟨key, v⟩ := e
  obtain rfl : key = .index i := hi
  rfl

/-- Without positions, every key is a name. -/
lemma exists_entries_of_indexed (h : p.indexed = []) :
    ∃ xs : List (String × Value), p.entries = xs.map fun x => (.name x.1, x.2) := by
  refine ⟨p.entries.filterMap fun e => e.1.name?.map (·, e.2), ?_⟩
  rw [List.map_filterMap]
  symm
  refine (List.filterMap_congr fun e he => ?_).trans List.filterMap_some
  obtain ⟨n, hn⟩ := exists_name_of_indexed h he
  obtain ⟨key, v⟩ := e
  obtain rfl : key = .name n := hn
  rfl

/-! ### The two protocols -/

lemma bindsByPosition_of_withNames (hn : p.withNames = []) (hnodup : (p.indexed.map (·.1)).Nodup) :
    p.BindsByPosition (.positional (p.inOrder.map (·.2))) := by
  refine ⟨p.inOrder, ?_, pairwise_lt_inOrder hnodup, rfl⟩
  rw [entries_of_withNames hn]
  exact (p.perm_inOrder.symm.map _)

lemma bindsByName_of_indexed (hi : p.indexed = []) (hn : p.withNames ≠ []) :
    p.BindsByName (.named p.withNames) := by
  obtain ⟨xs, hxs⟩ := exists_entries_of_indexed hi
  have hw := (withNames_of_entries hxs).1
  refine ⟨xs, ?_, hxs, congrArg _ hw, fun x _ => ?_⟩
  · rintro rfl
    exact hn hw
  · rw [bareName, String.toList_ofList]
    exact head?_dropWhile_colon _

/-- What parameters resolve to. -/
lemma binds_of_resolve (h : p.resolve = .ok b) : p.BindsByPosition b ∨ p.BindsByName b := by
  rcases ok_cases h with ⟨hi, hn, -, rfl⟩ | ⟨hn, hnodup, rfl⟩
  · exact .inr (bindsByName_of_indexed hi hn)
  · exact .inl (bindsByPosition_of_withNames hn hnodup)

lemma exists_resolve_iff (p : Params) :
    (∃ b, p.resolve = .ok b) ↔ p.IsSequence ∨ p.IsMap := by
  constructor
  · rintro ⟨b, hb⟩
    rcases ok_cases hb with ⟨hi, -, hnodup, -⟩ | ⟨hn, hnodup, -⟩
    · obtain ⟨xs, hxs⟩ := exists_entries_of_indexed hi
      rw [(withNames_of_entries hxs).1, List.map_map] at hnodup
      exact .inr ⟨xs, hxs, hnodup⟩
    · exact .inl ⟨p.indexed, entries_of_withNames hn, hnodup⟩
  · rintro (⟨xs, hxs, hnodup⟩ | ⟨xs, hxs, hnodup⟩)
    · obtain ⟨hi, hn⟩ := indexed_of_entries hxs
      exact ⟨_, resolve_of_nodup_indexes hn (by rwa [hi])⟩
    · obtain ⟨hn, hi⟩ := withNames_of_entries hxs
      rcases eq_or_ne p.withNames [] with hnil | hne
      · exact ⟨_, resolve_of_nodup_indexes hnil (by rw [hi]; exact List.nodup_nil)⟩
      · refine ⟨_, resolve_of_nodup_names hi hne ?_⟩
        rw [hn, List.map_map]
        exact hnodup

end Params

/-! ### Fields that are numbers -/

lemma ParamKey.ofField_toString {i : Nat} (h : i ≤ maxWord) : ofField (toString i) = .index i := by
  have hvalue : Text.decimalValue (Nat.toDigits 10 i) = i := Nat.ofDigitChars_ten_toDigits
  have hdigits : (Nat.toDigits 10 i).all (·.isDigit) = true :=
    List.all_eq_true.2 fun c hc => Nat.isDigit_of_mem_toDigits (by decide) (by decide) hc
  unfold ofField
  rw [Text.toList_toString]
  dsimp only
  rw [hvalue, if_pos ⟨Nat.toDigits_ne_nil, hdigits, h⟩]

namespace Params

/-- An object whose fields are the numbers from zero on, in any order, has the parameters of the
array in that order. -/
lemma perm_fields {items : List Json} {fields : List (String × Json)} (hn : items.length ≤ maxWord)
    (h : fields.Perm (items.mapIdx fun i v => (toString i, v))) :
    (positional (items.map Value.ofJson)).entries.Perm
      (fields.map fun f => (ParamKey.ofField f.1, Value.ofJson f.2)) := by
  have heq : (items.mapIdx fun i v => (toString i, v)).map
      (fun f => (ParamKey.ofField f.1, Value.ofJson f.2)) =
        (positional (items.map Value.ofJson)).entries := by
    refine List.ext_getElem (by simp [positional]) fun i hi _ => ?_
    have hlt : i < items.length := by simpa using hi
    have hkey := ParamKey.ofField_toString (Nat.le_of_lt (Nat.lt_of_lt_of_le hlt hn))
    simp only [positional, List.getElem_map, List.getElem_mapIdx, hkey]
  rw [← heq]
  exact (h.map _).symm

/-- **Parameters resolve exactly when they follow one of the two protocols**, and then each value is
bound once: by position in the order of positions, or by name in the order of supply. Under the
numbers from zero on, values are bound as in an array. -/
theorem resolve_protocol (p : Params) :
    ((∃ b, p.resolve = .ok b) ↔ p.IsSequence ∨ p.IsMap) ∧
    (∀ b, p.resolve = .ok b → p.BindsByPosition b ∨ p.BindsByName b) ∧
    ∀ (items : List Json) (fields : List (String × Json)), items.length ≤ maxWord →
      fields.Perm (items.mapIdx fun i v => (toString i, v)) →
        ∃ ps ps' b, ofJson (.array items) = .ok ps ∧ ofJson (.object fields) = .ok ps' ∧
          ps.resolve = .ok b ∧ ps'.resolve = .ok b := by
  refine ⟨p.exists_resolve_iff, fun b => binds_of_resolve, fun items fields hn h => ?_⟩
  let object : Params := ⟨fields.map fun f => (.ofField f.1, .ofJson f.2)⟩
  have hperm : (positional (items.map Value.ofJson)).entries.Perm object.entries := perm_fields hn h
  have harray := resolve_positional (items.map Value.ofJson)
  refine ⟨_, object, _, rfl, rfl, harray, ?_⟩
  rcases resolve_of_perm hperm with ⟨m, m', hr, -⟩ | ⟨b, b', hr, hr', hb⟩
  · rw [harray] at hr
    cases hr
  · rw [harray] at hr
    obtain rfl := Except.ok.inj hr
    cases hb
    exact hr'

/-- Two names that are distinct without their colons, and two values under the numbers 1 and 0. -/
theorem resolve_protocol_names :
    let p : Params := .named [("::b", .int 1), ("a", .null)]
    p.resolve = .ok (.named [("b", .int 1), ("a", .null)]) ∧ (p.IsSequence ∨ p.IsMap) ∧
      ∃ ps ps' b, ofJson (.array [.null, .bool true]) = .ok ps ∧
        ofJson (.object [("1", .bool true), ("0", .null)]) = .ok ps' ∧
          ps.resolve = .ok b ∧ ps'.resolve = .ok b := by
  intro p
  have h : p.resolve = .ok (.named [("b", .int 1), ("a", .null)]) := by decide +kernel
  obtain ⟨hiff, -, hjson⟩ := p.resolve_protocol
  exact ⟨h, hiff.1 ⟨_, h⟩, hjson [.null, .bool true] _ (by decide) (.swap _ _ _)⟩

end Params

end QueryGuard
