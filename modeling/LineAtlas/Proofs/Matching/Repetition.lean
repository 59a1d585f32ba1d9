import LineAtlas.Proofs.Matching.Candidates

/-!
# First occurrences

Of equal sequences only the first is matched; the others are recorded as its repetitions. A sequence
is placed exactly at its first index, and only if it has rows, so no two indices to be placed have
equal sequences.
-/

namespace LineAtlas.Matching

theorem zipIdx_increases (xs : List α) : xs.zipIdx.Pairwise (·.2 < ·.2) := by
  rw [← List.pairwise_map (f := Prod.snd) (R := (· < ·)), List.zipIdx_map_snd]
  exact List.pairwise_lt_range'

namespace Problem

variable (p : Problem)

structure IsFirst (i : Nat) (q : LineSequence) : Prop where
  getElem? : p.sequences[i]? = some q
  before : ∀ k, p.sequences[k]? = some q → i ≤ k

variable {p} {i j : Nat} {q : LineSequence}

theorem IsFirst.unique (hi : p.IsFirst i q) (hj : p.IsFirst j q) : i = j :=
  Nat.le_antisymm (hi.before j hj.getElem?) (hj.before i hi.getElem?)

theorem findIdx?_eq_some_iff_isFirst :
    p.sequences.findIdx? (· = q) = some j ↔ p.IsFirst j q := by
  rw [List.findIdx?_eq_some_iff_getElem]
  constructor
  · rintro ⟨hlt, heq, hbefore⟩
    refine ⟨List.getElem?_eq_some_iff.2 ⟨hlt, by simpa using heq⟩, ?_⟩
    intro k hk
    obtain ⟨_, rfl⟩ := List.getElem?_eq_some_iff.1 hk
    by_contra hlt'
    exact hbefore k (by omega) (by simp)
  · intro h
    obtain ⟨hlt, heq⟩ := List.getElem?_eq_some_iff.1 h.getElem?
    refine ⟨hlt, by simpa using heq, ?_⟩
    intro k hk hkq
    have hle := h.before k (List.getElem?_eq_some_iff.2 ⟨by omega, by simpa using hkq⟩)
    omega

theorem exists_isFirst (hq : p.sequences[i]? = some q) : ∃ j, p.IsFirst j q := by
  cases hfind : p.sequences.findIdx? (· = q) with
  | some j => exact ⟨j, findIdx?_eq_some_iff_isFirst.1 hfind⟩
  | none =>
      have hnot := List.findIdx?_eq_none_iff.1 hfind q (List.mem_of_getElem? hq)
      simp at hnot

theorem firstEqual?_eq_some_iff : p.firstEqual? i q = some j ↔ p.IsFirst j q ∧ j < i := by
  rw [firstEqual?, Option.filter_eq_some_iff, findIdx?_eq_some_iff_isFirst, decide_eq_true_iff]

theorem mem_duplicates :
    (i, j) ∈ p.duplicates ↔ ∃ q, p.sequences[i]? = some q ∧ p.IsFirst j q ∧ j < i := by
  simp only [duplicates, List.mem_filterMap, Prod.exists, List.mk_mem_zipIdx_iff_getElem?,
    Option.map_eq_some_iff, Prod.mk.injEq]
  constructor
  · rintro ⟨q, i, hq, j, hj, rfl, rfl⟩
    exact ⟨q, hq, firstEqual?_eq_some_iff.1 hj⟩
  · rintro ⟨q, hq, hj⟩
    exact ⟨q, i, hq, j, firstEqual?_eq_some_iff.2 hj, rfl, rfl⟩

theorem nodup_keys_duplicates : (Keyed.keys p.duplicates).Nodup := by
  have hkeys : p.duplicates.Pairwise (·.1 < ·.1) := by
    rw [duplicates, List.pairwise_filterMap]
    apply (zipIdx_increases p.sequences).imp
    rintro ⟨q, i⟩ ⟨r, j⟩ hlt d hd e he
    obtain ⟨_, -, rfl⟩ := Option.map_eq_some_iff.1 hd
    obtain ⟨_, -, rfl⟩ := Option.map_eq_some_iff.1 he
    exact hlt
  rw [Keyed.keys, List.nodup_iff_pairwise_ne, List.pairwise_map]
  exact hkeys.imp Nat.ne_of_lt

theorem get?_duplicates_eq_some_iff :
    Keyed.get? p.duplicates i = some j ↔
      ∃ q, p.sequences[i]? = some q ∧ p.IsFirst j q ∧ j < i := by
  rw [Keyed.get?_eq_some_iff nodup_keys_duplicates, mem_duplicates]

theorem get?_duplicates_eq_none (h : p.sequences.length ≤ i) : Keyed.get? p.duplicates i = none := by
  rw [Option.eq_none_iff_forall_ne_some]
  intro j hj
  obtain ⟨q, hq, -⟩ := get?_duplicates_eq_some_iff.1 hj
  have := (List.getElem?_eq_some_iff.1 hq).1
  omega

theorem IsFirst.not_mem_keys_duplicates (h : p.IsFirst i q) : i ∉ Keyed.keys p.duplicates := by
  intro hmem
  obtain ⟨⟨i, j⟩, hdup, rfl⟩ := List.mem_map.1 hmem
  obtain ⟨r, hr, hj, hlt⟩ := mem_duplicates.1 hdup
  obtain rfl : q = r := Option.some.inj (h.getElem?.symm.trans hr)
  have := h.unique hj
  omega

theorem placeable_iff_isFirst : p.Placeable i q ↔ p.IsFirst i q ∧ q.isEmpty = false := by
  constructor
  · intro h
    refine ⟨⟨h.getElem?, ?_⟩, h.notEmpty⟩
    intro k hk
    obtain ⟨j, hj⟩ := exists_isFirst h.getElem?
    by_contra hlt
    have := hj.before k hk
    exact h.notRepeated (List.mem_map.2 ⟨(i, j), mem_duplicates.2 ⟨q, h.getElem?, hj, by omega⟩, rfl⟩)
  · rintro ⟨hfirst, hne⟩
    exact ⟨hfirst.getElem?, hfirst.not_mem_keys_duplicates, hne⟩

theorem Placeable.unique (hi : p.Placeable i q) (hj : p.Placeable j q) : i = j :=
  (placeable_iff_isFirst.1 hi).1.unique (placeable_iff_isFirst.1 hj).1

end Problem

end LineAtlas.Matching
