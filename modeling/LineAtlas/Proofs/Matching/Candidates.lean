import LineAtlas.Matching
import Mathlib.Data.List.Basic

/-!
# Candidates through the filters

What every filter keeps. Candidates are read by the index of a sequence. A filter leaves each sequence
a part of its candidates, in order, and leaves candidates alone that offer no choice. So along a run
only sequences that are neither empty nor repeated have candidates, and all of these are sections
with code.
-/

namespace LineAtlas.Matching

def candidatesOf (c : Candidates) (i : Nat) : List String :=
  (c)[i]?.getD []

theorem candidatesOf_of_getElem? {c : Candidates} {i : Nat} {cs : List String}
    (h : (c)[i]? = some cs) : candidatesOf c i = cs := by
  rw [candidatesOf, h, Option.getD_some]

theorem getElem?_of_mem_candidatesOf {c : Candidates} {i : Nat} {s : String}
    (h : s ∈ candidatesOf c i) : (c)[i]? = some (candidatesOf c i) := by
  cases hc : (c)[i]? with
  | none => simp [candidatesOf, hc] at h
  | some cs => simp [candidatesOf, hc]

def Unambiguous (c : Candidates) : Prop :=
  ∀ i, (candidatesOf c i).length ≤ 1

theorem unambiguous_iff {c : Candidates} : Unambiguous c ↔ ∀ cs ∈ c, cs.length ≤ 1 := by
  constructor
  · intro h cs hcs
    obtain ⟨i, hi⟩ := List.mem_iff_getElem?.1 hcs
    exact candidatesOf_of_getElem? hi ▸ h i
  · intro h i
    cases hc : (c)[i]? with
    | none => simp [candidatesOf, hc]
    | some cs =>
        rw [candidatesOf_of_getElem? hc]
        exact h cs (List.mem_of_getElem? hc)

/-- Every sequence keeps a part of its candidates, in order. -/
structure Narrows (c d : Candidates) : Prop where
  length_eq : d.length = c.length
  sublist : ∀ i, (candidatesOf d i).Sublist (candidatesOf c i)

namespace Narrows

theorem refl (c : Candidates) : Narrows c c :=
  ⟨rfl, fun _ => .refl _⟩

theorem trans {c d e : Candidates} (h : Narrows c d) (h' : Narrows d e) : Narrows c e :=
  ⟨h'.length_eq.trans h.length_eq, fun i => (h'.sublist i).trans (h.sublist i)⟩

theorem mem {c d : Candidates} (h : Narrows c d) {i : Nat} {s : String}
    (hs : s ∈ candidatesOf d i) : s ∈ candidatesOf c i :=
  (h.sublist i).subset hs

end Narrows

theorem whenAmbiguous_of_le (f : List String → List String) {cs : List String}
    (h : cs.length ≤ 1) : whenAmbiguous f cs = cs :=
  if_pos h

@[simp]
theorem whenAmbiguous_nil (f : List String → List String) : whenAmbiguous f [] = [] := rfl

theorem whenAmbiguous_sublist {f : List String → List String} (hf : ∀ cs, (f cs).Sublist cs)
    (cs : List String) : (whenAmbiguous f cs).Sublist cs := by
  rw [whenAmbiguous]
  split
  · exact .refl _
  · exact hf cs

theorem mem_whenAmbiguous {f : List String → List String} {cs : List String} {s : String}
    (hs : s ∈ cs) (hf : 1 < cs.length → s ∈ f cs) : s ∈ whenAmbiguous f cs := by
  rw [whenAmbiguous]
  split
  · exact hs
  · rename_i hlen
    exact hf (by omega)

namespace Problem

variable (p : Problem)

/-! ## One sequence at a time -/

theorem length_narrow (f : LineSequence → List String → List String) {c : Candidates}
    (hc : c.length = p.sequences.length) : (p.narrow f c).length = c.length := by
  rw [narrow, List.length_zipWith, ← hc, Nat.min_self]

theorem candidatesOf_narrow {f : LineSequence → List String → List String}
    (hf : ∀ q, f q [] = []) (c : Candidates) {i : Nat} {q : LineSequence}
    (hq : p.sequences[i]? = some q) :
    candidatesOf (p.narrow f c) i = f q (candidatesOf c i) := by
  cases hc : (c)[i]? with
  | none => simp [candidatesOf, narrow, List.getElem?_zipWith, hq, hc, hf]
  | some cs => simp [candidatesOf, narrow, List.getElem?_zipWith, hq, hc]

theorem candidatesOf_narrow_eq_nil (f : LineSequence → List String → List String) (c : Candidates)
    {i : Nat} (hq : p.sequences[i]? = none) : candidatesOf (p.narrow f c) i = [] := by
  simp [candidatesOf, narrow, List.getElem?_zipWith, hq]

theorem narrow_narrows {f : LineSequence → List String → List String}
    (hf : ∀ q cs, (f q cs).Sublist cs) {c : Candidates} (hc : c.length = p.sequences.length) :
    Narrows c (p.narrow f c) := by
  refine ⟨p.length_narrow f hc, ?_⟩
  intro i
  cases hq : p.sequences[i]? with
  | none =>
      rw [p.candidatesOf_narrow_eq_nil f c hq]
      exact List.nil_sublist _
  | some q =>
      rw [p.candidatesOf_narrow (fun q => List.sublist_nil.1 (hf q [])) c hq]
      exact hf q _

theorem narrow_eq_self {f : LineSequence → List String → List String} {c : Candidates}
    (hc : c.length = p.sequences.length) (hf : ∀ q, ∀ cs ∈ c, f q cs = cs) : p.narrow f c = c := by
  apply List.ext_getElem (p.length_narrow f hc)
  intro i h₁ h₂
  simp only [narrow, List.getElem_zipWith]
  exact hf _ _ (List.getElem_mem h₂)

/-! ## Where a run begins -/

/-- The sequence at an index is to be placed: it has rows and repeats no earlier one. -/
structure Placeable (i : Nat) (q : LineSequence) : Prop where
  getElem? : p.sequences[i]? = some q
  notRepeated : i ∉ Keyed.keys p.duplicates
  notEmpty : q.isEmpty = false

theorem mem_keys_duplicates {i : Nat} {q : LineSequence} (hq : p.sequences[i]? = some q) :
    i ∈ Keyed.keys p.duplicates ↔ (p.firstEqual? i q).isSome = true := by
  simp only [Keyed.keys, duplicates, List.mem_map, List.mem_filterMap, Prod.exists,
    List.mk_mem_zipIdx_iff_getElem?, Option.map_eq_some_iff, Prod.mk.injEq]
  constructor
  · rintro ⟨i, j, ⟨q', i', hq', j', hj, rfl, rfl⟩, rfl⟩
    obtain rfl : q' = q := Option.some.inj (hq'.symm.trans hq)
    simp [hj]
  · intro hfirst
    obtain ⟨j, hj⟩ := Option.isSome_iff_exists.1 hfirst
    exact ⟨i, j, ⟨q, i, hq, j, hj, rfl, rfl⟩, rfl⟩

theorem placeable_iff {i : Nat} {q : LineSequence} (hq : p.sequences[i]? = some q) :
    p.Placeable i q ↔ ((p.firstEqual? i q).isSome || q.isEmpty) = false := by
  rw [Bool.or_eq_false_iff, ← Bool.not_eq_true, ← p.mem_keys_duplicates hq]
  exact ⟨fun h => ⟨h.notRepeated, h.notEmpty⟩, fun h => ⟨hq, h.1, h.2⟩⟩

theorem length_initial : p.initial.length = p.sequences.length := by
  simp [initial]

theorem mem_candidatesOf_initial {i : Nat} {s : String} :
    s ∈ candidatesOf p.initial i ↔ (∃ q, p.Placeable i q) ∧ s ∈ p.sections := by
  cases hq : p.sequences[i]? with
  | none =>
      have hnot : ¬ ∃ q, p.Placeable i q := by
        rintro ⟨q, h⟩
        have := h.getElem?
        simp [hq] at this
      simp [candidatesOf, initial, hq, hnot]
  | some q =>
      have hat : candidatesOf p.initial i =
          if (p.firstEqual? i q).isSome || q.isEmpty then [] else p.sections := by
        simp [candidatesOf, initial, hq]
      have hplace : (∃ q, p.Placeable i q) ↔ p.Placeable i q := by
        refine ⟨?_, fun h => ⟨q, h⟩⟩
        rintro ⟨q', h⟩
        obtain rfl : q' = q := Option.some.inj (h.getElem?.symm.trans hq)
        exact h
      rw [hat, hplace, p.placeable_iff hq]
      cases (p.firstEqual? i q).isSome || q.isEmpty <;> simp

/-! ## What the filters keep -/

theorem mem_filterBySize {c : Candidates} {i : Nat} {q : LineSequence}
    (hq : p.sequences[i]? = some q) {s : String} :
    s ∈ candidatesOf (p.filterBySize c) i ↔ s ∈ candidatesOf c i ∧ p.fits q s = true := by
  rw [filterBySize, p.candidatesOf_narrow (fun _ => rfl) c hq, List.mem_filter]

theorem keepCorroborated_sublist (q : LineSequence) (cs : List String) :
    (match cs.filter (p.corroborates q) with | [] => cs | kept => kept).Sublist cs := by
  split
  · exact .refl _
  · exact List.filter_sublist

theorem exclude_narrows {c : Candidates} (hc : c.length = p.sequences.length) :
    Narrows c (p.exclude c) :=
  p.narrow_narrows (fun _ => whenAmbiguous_sublist fun _ => List.filter_sublist) hc

theorem settle_induction {P : Candidates → Prop} (hstep : ∀ c, P c → P (p.exclude c)) (n : Nat)
    (c : Candidates) (h : P c) : P (p.settle n c) := by
  induction n generalizing c with
  | zero => exact h
  | succ n ih =>
      rw [settle_succ]
      split
      · exact h
      · exact ih _ (hstep c h)

theorem filterByOverlap_narrows {c : Candidates} (hc : c.length = p.sequences.length) :
    Narrows c (p.filterByOverlap c) := by
  apply p.settle_induction _ _ _ (Narrows.refl c)
  intro d hd
  exact hd.trans (p.exclude_narrows (hd.length_eq.trans hc))

theorem filter_narrows {c : Candidates} (hc : c.length = p.sequences.length) (stage : Stage) :
    Narrows c (p.filter c stage) := by
  cases stage with
  | size => exact p.narrow_narrows (fun _ _ => List.filter_sublist) hc
  | overlap => exact p.filterByOverlap_narrows hc
  | alignment =>
      exact p.narrow_narrows (fun _ => whenAmbiguous_sublist fun _ => List.filter_sublist) hc
  | symbol =>
      exact p.narrow_narrows (fun q => whenAmbiguous_sublist (p.keepCorroborated_sublist q)) hc
  | symbolOverlap => exact p.filterByOverlap_narrows hc
  | bestEffort => exact .refl c

theorem narrow_whenAmbiguous_eq_self (f : LineSequence → List String → List String)
    {c : Candidates} (hc : c.length = p.sequences.length) (h : Unambiguous c) :
    p.narrow (fun q => whenAmbiguous (f q)) c = c :=
  p.narrow_eq_self hc fun q cs hcs => whenAmbiguous_of_le (f q) (unambiguous_iff.1 h cs hcs)

theorem settle_eq_self {c : Candidates} (h : p.exclude c = c) (n : Nat) : p.settle n c = c := by
  cases n with
  | zero => rfl
  | succ n => rw [settle_succ, if_pos h]

/-- Candidates that leave no choice pass every filter but that by size unchanged. -/
theorem filter_eq_self_of_unambiguous {c : Candidates} (hc : c.length = p.sequences.length)
    (h : Unambiguous c) (stage : Stage) (hstage : stage ≠ .size) : p.filter c stage = c := by
  have hoverlap : p.filterByOverlap c = c :=
    p.settle_eq_self (p.narrow_whenAmbiguous_eq_self _ hc h) _
  cases stage with
  | size => exact absurd rfl hstage
  | overlap => exact hoverlap
  | alignment => exact p.narrow_whenAmbiguous_eq_self _ hc h
  | symbol => exact p.narrow_whenAmbiguous_eq_self _ hc h
  | symbolOverlap => exact hoverlap
  | bestEffort => rfl

theorem evidence_eq_nil_of_unambiguous {c : Candidates} (h : Unambiguous c) :
    p.evidence c = .ok [] := by
  have hdistances : p.distances c = [] := by
    rw [distances, List.filterMap_eq_nil_iff]
    rintro ⟨⟨q, cs⟩, i⟩ hmem
    have hcs : cs ∈ c := (List.of_mem_zip (List.fst_mem_of_mem_zipIdx hmem)).2
    simp [unambiguous_iff.1 h cs hcs]
  rw [evidence, hdistances]
  rfl

/-! ## Reservations -/

theorem mem_reservations {c : Candidates} {s : String} {a : Span} : (s, a) ∈ p.reservations c ↔
    ∃ (i : Nat) (q : LineSequence), p.sequences[i]? = some q ∧ (c)[i]? = some [s] ∧ a = q.span := by
  rw [reservations, List.mem_filterMap]
  constructor
  · rintro ⟨⟨q, cs⟩, hmem, h⟩
    obtain ⟨i, hi⟩ := List.mem_iff_getElem?.1 hmem
    obtain ⟨hq, hcs⟩ := List.getElem?_zip_eq_some.1 hi
    dsimp only at h
    split at h
    · cases h
      exact ⟨i, q, hq, hcs, rfl⟩
    · cases h
  · rintro ⟨i, q, hq, hcs, rfl⟩
    have hi : (p.sequences.zip c)[i]? = some (q, [s]) := List.getElem?_zip_eq_some.2 ⟨hq, hcs⟩
    exact ⟨(q, [s]), List.mem_of_getElem? hi, rfl⟩

theorem isFree_reservations_iff {c : Candidates} {q : LineSequence} {s : String} :
    isFree (p.reservations c) q s = true ↔ ∀ (i : Nat) (r : LineSequence),
      p.sequences[i]? = some r → (c)[i]? = some [s] → q.span.overlaps r.span = false := by
  rw [isFree, Bool.not_eq_true', List.any_eq_false]
  constructor
  · intro h i r hr hc
    simpa using h (s, r.span) (p.mem_reservations.2 ⟨i, r, hr, hc, rfl⟩)
  · rintro h ⟨s', a⟩ hmem
    obtain ⟨i, r, hr, hc, rfl⟩ := p.mem_reservations.1 hmem
    by_cases hs : s' = s
    · subst s'
      simp [h i r hr hc]
    · simp [hs]

end Problem

end LineAtlas.Matching
