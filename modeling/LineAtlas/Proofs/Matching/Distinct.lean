import LineAtlas.Proofs.Matching.Binding
import LineAtlas.Proofs.Matching.Renaming
import Mathlib.Data.Nat.Basic
import Mathlib.Order.Monotone.Basic

/-!
# Repeated and empty sequences

Sequences that repeat an earlier one and sequences without rows are transparent: a run goes as if they
were not there. The sequences that are left keep their order, so besides the filters the placement as
well as it goes takes the same steps, under other indices.
-/

namespace LineAtlas.Matching

/-! ## Placing under new indices -/

theorem Interval.renamed_injective {f : Nat → Nat} (hf : Function.Injective f) :
    Function.Injective (Interval.renamed f) := by
  rintro ⟨a, i⟩ ⟨b, j⟩ h
  simp only [Interval.renamed, Interval.mk.injEq] at h
  rw [h.1, hf h.2]

theorem insertByStart_renamed (f : Nat → Nat) (x : Interval) (xs : List Interval) :
    insertByStart (x.renamed f) (xs.map (·.renamed f)) = (insertByStart x xs).map (·.renamed f) := by
  induction xs with
  | nil => rfl
  | cons y rest ih =>
      simp only [List.map_cons, insertByStart, ih, apply_ite (List.map (Interval.renamed f))]
      rfl

theorem makeRoom?_renamed {f : Nat → Nat} (hf : Function.Injective f) (x : Interval)
    (xs : List Interval) : makeRoom? (x.renamed f) (xs.map (·.renamed f)) =
      (makeRoom? x xs).map fun r => (r.1.map (·.renamed f), r.2.map (·.renamed f)) := by
  have hoverlap : (xs.map (·.renamed f)).filter (fun y => (x.renamed f).span.overlaps y.span) =
      (xs.filter fun y => x.span.overlaps y.span).map (·.renamed f) := by
    rw [List.filter_map]
    rfl
  rw [makeRoom?, makeRoom?, hoverlap]
  cases hover : xs.filter fun y => x.span.overlaps y.span with
  | nil => simp [insertByStart_renamed]
  | cons old rest =>
      cases rest with
      | cons z rest => rfl
      | nil =>
          have hothers : (xs.map (·.renamed f)).filter (· ≠ old.renamed f) =
              (xs.filter (· ≠ old)).map (·.renamed f) := by
            rw [List.filter_map]
            congr 1
            apply List.filter_congr
            intro y _
            simp [(Interval.renamed_injective hf).eq_iff]
          simp only [List.map_cons, List.map_nil, hothers, insertByStart_renamed]
          by_cases hshort : old.span.length < x.span.length
          · rw [if_pos hshort, if_pos (by exact hshort)]
            rfl
          · rw [if_neg hshort, if_neg (by exact hshort)]
            rfl

theorem Table.put_renamed (f : Nat → Nat) (t : Table) (s : String) (xs : List Interval) :
    Keyed.put (t.renamed f) s (xs.map (·.renamed f)) = Table.renamed f (Keyed.put t s xs) := by
  induction t with
  | nil => rfl
  | cons e rest ih =>
      obtain ⟨k, ys⟩ := e
      simp only [Keyed.put, Keyed.alter, Table.renamed, List.map_cons] at ih ⊢
      by_cases hk : k = s
      · simp [hk]
      · simp [hk, ih]

namespace Placement

def renamed (f : Nat → Nat) (r : Placement) : Placement :=
  ⟨r.reserved.renamed f,
    r.replacements.map fun x => { x with newIndex := f x.newIndex, oldIndex := f x.oldIndex }⟩

theorem intervals_renamed (f : Nat → Nat) (r : Placement) (s : String) :
    (r.renamed f).intervals s = (r.intervals s).map (·.renamed f) := by
  have hget : Keyed.get? (r.reserved.renamed f) s =
      (Keyed.get? r.reserved s).map (List.map (·.renamed f)) :=
    Keyed.get?_map r.reserved (List.map (·.renamed f)) s
  rw [intervals, renamed, hget, intervals]
  cases Keyed.get? r.reserved s <;> rfl

/-- Under new indices an interval is placed on the same section and replaces the same interval. -/
theorem place_renamed {f : Nat → Nat} (hf : Function.Injective f) (r : Placement) (x : Interval)
    (ss : List String) : (r.renamed f).place (x.renamed f) ss = (r.place x ss).renamed f := by
  induction ss with
  | nil => rfl
  | cons s rest ih =>
      rw [place, place, intervals_renamed, makeRoom?_renamed hf]
      cases hm : makeRoom? x (r.intervals s) with
      | none => exact ih
      | some taken =>
          obtain ⟨ys, old⟩ := taken
          simp only [Option.map_some, renamed, Table.put_renamed]
          cases old <;> simp [Interval.renamed]

end Placement

namespace Problem

variable (p : Problem)

/-- Only contenders are placed. -/
theorem bestEffortPlacement_eq (c : Candidates) : p.bestEffortPlacement c =
    (p.contenders c).foldl (fun r x => r.place ⟨x.1.1.span, x.2⟩ x.1.2) .empty := by
  rw [bestEffortPlacement, places, List.foldl_map, contenders, List.foldl_filter]
  congr 1
  funext r x
  obtain ⟨⟨q, cs⟩, i⟩ := x
  cases cs with
  | nil => rfl
  | cons s cs => simp

end Problem

namespace Renames

open Problem

variable {p : Problem} {qs : List LineSequence} {f : Nat → Nat} {c' c : Candidates}
  (h : Renames p qs f c' c)
include h

/-- Where the new indices have the same order, so have the contenders. -/
theorem contenders_eq (hf : StrictMono f) :
    p.contenders c = ((p.withSequences qs).contenders c').map (·.renamed f) := by
  refine h.contenders.eq_of_pairwise ?_ (p.contenders_increase c) ?_
  · intro x y _ _ hxy hyx
    exact absurd hxy (Nat.lt_asymm hyx)
  · rw [List.pairwise_map]
    exact ((p.withSequences qs).contenders_increase c').imp fun hlt => hf hlt

theorem bestEffort_eq (hf : StrictMono f) :
    p.bestEffort c = ((p.withSequences qs).bestEffort c').renamed f := by
  have hplacement : p.bestEffortPlacement c =
      ((p.withSequences qs).bestEffortPlacement c').renamed f := by
    rw [p.bestEffortPlacement_eq, (p.withSequences qs).bestEffortPlacement_eq, h.contenders_eq hf,
      List.foldl_map]
    have hempty : Placement.empty = Placement.renamed f .empty := rfl
    conv_lhs => rw [hempty]
    apply List.foldl_hom (Placement.renamed f)
    intro r x
    exact r.place_renamed hf.injective ⟨x.1.1.span, x.2⟩ x.1.2
  rw [Problem.bestEffort, hplacement, funext (Placement.intervals_renamed f _), tableOf_renamed]
  rfl

theorem evidence_eq (hf : StrictMono f) :
    p.evidence c =
      ((p.withSequences qs).evidence c').map (List.map fun e => (f e.1, e.2)) := by
  have hdistances : p.distances c =
      ((p.withSequences qs).distances c').map fun e => (f e.1, e.2) := by
    rw [p.distances_eq, (p.withSequences qs).distances_eq, h.contenders_eq hf, List.filterMap_map,
      List.map_filterMap]
    exact List.filterMap_congr fun x _ => p.distancesOf_renamed f x
  rw [evidence, hdistances, Keyed.traverse_map_keys]
  rfl

end Renames

namespace Problem

variable (p : Problem)

/-! ## The sequences that are left -/

/-- The indices, ascending, of the sequences with rows that repeat no earlier one. -/
def kept : List Nat :=
  (List.range p.sequences.length).filter fun i =>
    (p.sequences[i]?).any fun q => !q.isEmpty && !(p.sequences.take i).contains q

def distinct : Problem :=
  p.withSequences (p.kept.filterMap fun i => p.sequences[i]?)

/-- The index in the whole problem of a sequence that is left. Indices beyond go to indices beyond. -/
def keptIndex (j : Nat) : Nat :=
  p.kept[j]?.getD (p.sequences.length + j)

variable {p}

theorem mem_kept {i : Nat} : i ∈ p.kept ↔ ∃ q, p.Placeable i q := by
  have hfirst : ∀ {q}, p.sequences[i]? = some q → (p.IsFirst i q ↔ q ∉ p.sequences.take i) := by
    intro q hq
    rw [List.mem_take_iff_getElem]
    constructor
    · rintro hi ⟨k, hk, hkq⟩
      have := hi.before k (List.getElem?_eq_some_iff.2 ⟨by omega, hkq⟩)
      omega
    · intro hnot
      refine ⟨hq, ?_⟩
      intro k hk
      obtain ⟨hlt, hkq⟩ := List.getElem?_eq_some_iff.1 hk
      by_contra hki
      exact hnot ⟨k, by omega, hkq⟩
  simp only [kept, List.mem_filter, List.mem_range, Option.any_eq_true, Bool.and_eq_true,
    Bool.not_eq_true', List.contains_eq_mem, decide_eq_false_iff_not, placeable_iff_isFirst]
  constructor
  · rintro ⟨-, q, hq, hne, hnew⟩
    exact ⟨q, (hfirst hq).2 hnew, hne⟩
  · rintro ⟨q, hi, hne⟩
    exact ⟨(List.getElem?_eq_some_iff.1 hi.getElem?).1, q, hi.getElem?, hne,
      (hfirst hi.getElem?).1 hi⟩

theorem kept_increases : p.kept.Pairwise (· < ·) :=
  List.pairwise_lt_range.filter _

theorem lt_of_getElem?_kept {i j : Nat} (h : p.kept[j]? = some i) : i < p.sequences.length := by
  obtain ⟨q, hq⟩ := mem_kept.1 (List.mem_of_getElem? h)
  exact (List.getElem?_eq_some_iff.1 hq.getElem?).1

theorem keptIndex_eq {i j : Nat} (h : p.kept[j]? = some i) : p.keptIndex j = i := by
  rw [keptIndex, h, Option.getD_some]

theorem strictMono_keptIndex : StrictMono p.keptIndex := by
  intro j k hlt
  cases hk : p.kept[k]? with
  | some i' =>
      obtain ⟨hk', rfl⟩ := List.getElem?_eq_some_iff.1 hk
      have hj : p.kept[j]? = some p.kept[j] := List.getElem?_eq_getElem (by omega)
      rw [keptIndex_eq hj, keptIndex_eq hk]
      exact List.pairwise_iff_getElem.1 kept_increases j k _ hk' hlt
  | none =>
      rw [keptIndex, keptIndex, hk, Option.getD_none]
      cases hj : p.kept[j]? with
      | some i =>
          have := lt_of_getElem?_kept hj
          rw [Option.getD_some]
          omega
      | none =>
          rw [Option.getD_none]
          omega

theorem getElem?_distinct (j : Nat) :
    p.distinct.sequences[j]? = p.kept[j]?.bind fun i => p.sequences[i]? := by
  have hmap : p.distinct.sequences = p.kept.map fun i => p.sequences[i]?.getD .empty := by
    rw [← List.filterMap_eq_map]
    apply List.filterMap_congr
    intro i hi
    obtain ⟨q, hq⟩ := mem_kept.1 hi
    simp [hq.getElem?]
  rw [hmap, List.getElem?_map]
  cases hj : p.kept[j]? with
  | none => rfl
  | some i =>
      obtain ⟨q, hq⟩ := mem_kept.1 (List.mem_of_getElem? hj)
      simp [hq.getElem?]

/-- All sequences that are left are to be placed. -/
theorem placeable_distinct_iff {j : Nat} {q : LineSequence} :
    p.distinct.Placeable j q ↔ ∃ i, p.kept[j]? = some i ∧ p.Placeable i q := by
  have hat : ∀ {k : Nat} {r : LineSequence}, p.distinct.sequences[k]? = some r →
      ∃ i, p.kept[k]? = some i ∧ p.Placeable i r := by
    intro k r hr
    rw [getElem?_distinct, Option.bind_eq_some_iff] at hr
    obtain ⟨i, hi, hir⟩ := hr
    obtain ⟨r', hr'⟩ := mem_kept.1 (List.mem_of_getElem? hi)
    obtain rfl : r = r' := Option.some.inj (hir.symm.trans hr'.getElem?)
    exact ⟨i, hi, hr'⟩
  constructor
  · exact fun h => hat h.getElem?
  · rintro ⟨i, hi, hplace⟩
    have hj : p.distinct.sequences[j]? = some q := by
      rw [getElem?_distinct, hi, Option.bind_some, hplace.getElem?]
    refine placeable_iff_isFirst.2 ⟨⟨hj, ?_⟩, hplace.notEmpty⟩
    intro k hk
    obtain ⟨i', hi', hplace'⟩ := hat hk
    rw [← hplace.unique hplace'] at hi'
    have heq : p.keptIndex j = p.keptIndex k := by
      rw [keptIndex_eq hi, keptIndex_eq hi']
    exact Nat.le_of_eq (strictMono_keptIndex.injective heq)

theorem renames_distinct : Renames p p.distinct.sequences p.keptIndex p.distinct.initial p.initial := by
  apply renames_initial
  · intro j q hj
    obtain ⟨i, hi, hplace⟩ := placeable_distinct_iff.1 hj
    rwa [keptIndex_eq hi]
  · intro i q hplace
    obtain ⟨j, hj⟩ := List.mem_iff_getElem?.1 (mem_kept.2 ⟨q, hplace⟩)
    exact ⟨j, placeable_distinct_iff.2 ⟨i, hj, hplace⟩⟩

/-! ## The run without the others -/

variable {r r' : Result}

theorem run_distinct_outcome (hr : p.run = .ok r) (hr' : p.distinct.run = .ok r') :
    r.table = r'.table.renamed p.keptIndex ∧
      r.evidence = r'.evidence.map fun e => (p.keptIndex e.1, e.2) := by
  have hall : Renames p p.distinct.sequences p.keptIndex
      (p.distinct.after Stage.filters p.distinct.initial) (p.after Stage.filters p.initial) :=
    renames_distinct.after Stage.filters
  have hbefore : Renames p p.distinct.sequences p.keptIndex
      (p.distinct.after [.size, .overlap, .alignment] p.distinct.initial)
      (p.after [.size, .overlap, .alignment] p.initial) := renames_distinct.after _
  refine ⟨?_, ?_⟩
  · rw [p.run_table_eq_bestEffort hr, p.distinct.run_table_eq_bestEffort hr']
    exact hall.bestEffort_eq strictMono_keptIndex
  · have hevidence : p.evidence (p.after [.size, .overlap, .alignment] p.initial) =
        (p.distinct.evidence (p.distinct.after [.size, .overlap, .alignment] p.distinct.initial)).map
          (List.map fun e => (p.keptIndex e.1, e.2)) := hbefore.evidence_eq strictMono_keptIndex
    rw [p.evidence_of_run hr, p.distinct.evidence_of_run hr'] at hevidence
    exact Except.ok.inj hevidence

theorem placeable_of_lt {j : Nat} (h : j < p.distinct.sequences.length) :
    ∃ q, p.distinct.Placeable j q ∧ p.Placeable (p.keptIndex j) q := by
  have hj := List.getElem?_eq_getElem h
  rw [getElem?_distinct, Option.bind_eq_some_iff] at hj
  obtain ⟨i, hi, -⟩ := hj
  obtain ⟨q, hplace⟩ := mem_kept.1 (List.mem_of_getElem? hi)
  refine ⟨q, placeable_distinct_iff.2 ⟨i, hi, hplace⟩, ?_⟩
  rwa [keptIndex_eq hi]

section

variable (hr : p.run = .ok r) (hr' : p.distinct.run = .ok r')
include hr hr'

theorem mem_bound_run_keptIndex {j : Nat} : p.keptIndex j ∈ r.table.bound ↔ j ∈ r'.table.bound := by
  rw [(run_distinct_outcome hr hr').1]
  simp only [Table.mem_bound, Table.binds_renamed, strictMono_keptIndex.injective.eq_iff,
    exists_eq_left]

theorem mem_unmatched_run_distinct {i : Nat} :
    i ∈ p.unmatched r.table ∧ (p.sequences[i]?).any (!·.isEmpty) = true ↔
      ∃ j ∈ p.distinct.unmatched r'.table, p.keptIndex j = i := by
  constructor
  · rintro ⟨hleft, hrows⟩
    obtain ⟨-, hnew, hbound⟩ := p.mem_unmatched.1 hleft
    obtain ⟨q, hq, hne⟩ := (Option.any_eq_true _ _).1 hrows
    have hplace : p.Placeable i q := ⟨hq, hnew, by simpa using hne⟩
    obtain ⟨j, hj⟩ := List.mem_iff_getElem?.1 (mem_kept.2 ⟨q, hplace⟩)
    obtain rfl := keptIndex_eq hj
    have hplace' := placeable_distinct_iff.2 ⟨_, hj, hplace⟩
    refine ⟨j, p.distinct.mem_unmatched.2 ⟨?_, hplace'.notRepeated, ?_⟩, rfl⟩
    · exact (List.getElem?_eq_some_iff.1 hplace'.getElem?).1
    · exact fun hmem => hbound ((mem_bound_run_keptIndex hr hr').2 hmem)
  · rintro ⟨j, hleft, rfl⟩
    obtain ⟨hlt, -, hbound⟩ := p.distinct.mem_unmatched.1 hleft
    obtain ⟨q, -, hplace⟩ := placeable_of_lt hlt
    refine ⟨p.mem_unmatched.2 ⟨?_, hplace.notRepeated, ?_⟩, ?_⟩
    · exact (List.getElem?_eq_some_iff.1 hplace.getElem?).1
    · exact fun hmem => hbound ((mem_bound_run_keptIndex hr hr').1 hmem)
    · simp [hplace.getElem?, hplace.notEmpty]

/-- What is unmatched with the others left out is unmatched anyway, and nothing else with rows is. -/
theorem unmatched_run_distinct :
    (p.unmatched r.table).filter (fun i => (p.sequences[i]?).any (!·.isEmpty)) =
      (p.distinct.unmatched r'.table).map p.keptIndex := by
  have hleft : ((p.unmatched r.table).filter fun i => (p.sequences[i]?).any (!·.isEmpty)).Pairwise
      (· < ·) := (p.unmatched_increases _).filter _
  have hright : ((p.distinct.unmatched r'.table).map p.keptIndex).Pairwise (· < ·) := by
    rw [List.pairwise_map]
    exact (p.distinct.unmatched_increases _).imp fun hlt => strictMono_keptIndex hlt
  have hnodup : ∀ {is : List Nat}, is.Pairwise (· < ·) → is.Nodup := fun h => h.imp Nat.ne_of_lt
  have hperm : ((p.unmatched r.table).filter fun i => (p.sequences[i]?).any (!·.isEmpty)).Perm
      ((p.distinct.unmatched r'.table).map p.keptIndex) := by
    rw [List.perm_ext_iff_of_nodup (hnodup hleft) (hnodup hright)]
    intro i
    rw [List.mem_filter, List.mem_map]
    exact mem_unmatched_run_distinct hr hr'
  refine hperm.eq_of_pairwise ?_ hleft hright
  intro i j _ _ hij hji
  exact absurd hij (Nat.lt_asymm hji)

end

/-- Repeated sequences and sequences without rows are transparent. Without them the run is at fault
alike or ends at the same stage, with the same table and evidence under the indices that the others
then have, and leaves the same sequences unmatched, those without rows apart. Every repetition is
recorded with the least index that has the same rows. -/
theorem run_distinct (p : Problem) :
    p.run.map Result.stage = p.distinct.run.map Result.stage ∧
      ∀ r r', p.run = .ok r → p.distinct.run = .ok r' →
        r.table = r'.table.renamed p.keptIndex ∧
        r.evidence = r'.evidence.map (fun e => (p.keptIndex e.1, e.2)) ∧
        r.unmatched.filter (fun i => (p.sequences[i]?).any (!·.isEmpty)) =
          r'.unmatched.map p.keptIndex ∧
        ∀ i j, Keyed.get? r.duplicates i = some j ↔
          ∃ q, p.sequences[i]? = some q ∧ p.IsFirst j q ∧ j < i := by
  refine ⟨renames_distinct.run_stage, ?_⟩
  intro r r' hr hr'
  obtain ⟨htable, hevidence⟩ := run_distinct_outcome hr hr'
  refine ⟨htable, hevidence, ?_, ?_⟩
  · rw [p.run_unmatched hr, p.distinct.run_unmatched hr']
    exact unmatched_run_distinct hr hr'
  · intro i j
    rw [p.run_duplicates hr]
    exact get?_duplicates_eq_some_iff

theorem run_distinct_twoSections :
    ∃ r r', twoSections.run = .ok r ∧ twoSections.distinct.run = .ok r' ∧
      twoSections.kept = [0, 1] ∧ r.table = r'.table.renamed twoSections.keptIndex ∧
      r.unmatched = [3] ∧ r'.unmatched = [] ∧ Keyed.get? r.duplicates 2 = some 0 := by
  have hr : twoSections.run = .ok ⟨[(".text", [⟨⟨0, 11⟩, 0⟩]), (".text.startup", [⟨⟨0, 6⟩, 1⟩])],
    .overlap, [(2, 0)], [3], [], []⟩ := by decide
  have hr' : twoSections.distinct.run =
    .ok ⟨[(".text", [⟨⟨0, 11⟩, 0⟩]), (".text.startup", [⟨⟨0, 6⟩, 1⟩])], .overlap, [], [], [], []⟩ := by
    decide
  obtain ⟨-, hall⟩ := run_distinct twoSections
  obtain ⟨htable, -, -, hduplicates⟩ := hall _ _ hr hr'
  refine ⟨_, _, hr, hr', by decide, htable, rfl, rfl, (hduplicates 2 0).2 ?_⟩
  exact ⟨twoSections.sequences[0], rfl, ⟨rfl, fun _ _ => Nat.zero_le _⟩, by decide⟩

end Problem

end LineAtlas.Matching
