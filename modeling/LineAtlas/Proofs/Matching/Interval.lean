import LineAtlas.Matching.Completion
import Mathlib.Data.List.Induction

/-!
# Intervals apart from each other

The intervals of a section as every table has them: closed ranges in order, each of which ends
before the next begins. Sorting by start leads there as soon as no interval overlaps its neighbour,
and making room for one more interval stays there. An address then lies in one interval at most.
-/

namespace LineAtlas.Matching

structure Apart (xs : List Interval) : Prop where
  proper : ∀ x ∈ xs, x.span.start ≤ x.span.stop
  before : xs.Pairwise fun x y => x.span.stop < y.span.start

theorem apart_nil : Apart [] :=
  ⟨by simp, .nil⟩

namespace Apart

variable {xs ys : List Interval}

theorem sublist (h : Apart ys) (hsub : xs.Sublist ys) : Apart xs :=
  ⟨fun x hx => h.proper x (hsub.subset hx), h.before.sublist hsub⟩

theorem starts_increase (h : Apart xs) :
    xs.Pairwise fun x y => x.span.start < y.span.start := by
  apply h.before.imp_of_mem
  intro x y hx _ hlt
  have := h.proper x hx
  omega

theorem not_overlaps (h : Apart xs) : xs.Pairwise fun x y => x.span.overlaps y.span = false := by
  apply h.before.imp
  intro x y hlt
  exact Span.overlaps_eq_false_iff.2 (.inl hlt)

/-- An address lies in one interval at most, counted with repetition. -/
theorem length_filter_contains_le (h : Apart xs) (a : Int) :
    (xs.filter (·.span.contains a)).length ≤ 1 := by
  have hc := h.sublist (List.filter_sublist (p := (·.span.contains a)) (l := xs))
  have hin : ∀ x ∈ xs.filter (·.span.contains a), x.span.contains a = true := fun x hx =>
    (List.mem_filter.1 hx).2
  cases hf : xs.filter (·.span.contains a) with
  | nil => simp
  | cons x rest =>
      cases rest with
      | nil => simp
      | cons y rest =>
          rw [hf] at hc hin
          have hx := Span.contains_iff.1 (hin x (by simp))
          have hy := Span.contains_iff.1 (hin y (by simp))
          have hlt := List.rel_of_pairwise_cons hc.before (List.mem_cons_self (a := y) (l := rest))
          omega

theorem eq_of_contains (h : Apart xs) {x y : Interval} {a : Int} (hx : x ∈ xs) (hy : y ∈ xs)
    (hxa : x.span.contains a = true) (hya : y.span.contains a = true) : x = y := by
  have hx' : x ∈ xs.filter (·.span.contains a) := List.mem_filter.2 ⟨hx, hxa⟩
  have hy' : y ∈ xs.filter (·.span.contains a) := List.mem_filter.2 ⟨hy, hya⟩
  have hlen := h.length_filter_contains_le a
  cases hf : xs.filter (·.span.contains a) with
  | nil => simp [hf] at hx'
  | cons z rest =>
      rw [hf] at hx' hy' hlen
      rw [List.length_cons] at hlen
      obtain rfl : rest = [] := List.eq_nil_of_length_eq_zero (by omega)
      rw [List.mem_singleton.1 hx', List.mem_singleton.1 hy']

end Apart

/-! ## Sorting by start -/

theorem insertByStart_perm (x : Interval) (xs : List Interval) :
    (insertByStart x xs).Perm (x :: xs) := by
  induction xs with
  | nil => exact .refl _
  | cons y rest ih =>
      rw [insertByStart]
      split
      · exact (ih.cons y).trans (.swap x y rest)
      · exact .refl _

@[simp]
theorem mem_insertByStart {x y : Interval} {xs : List Interval} :
    y ∈ insertByStart x xs ↔ y = x ∨ y ∈ xs := by
  rw [(insertByStart_perm x xs).mem_iff, List.mem_cons]

theorem sublist_insertByStart (x : Interval) (xs : List Interval) :
    xs.Sublist (insertByStart x xs) := by
  induction xs with
  | nil => exact List.nil_sublist _
  | cons y rest ih =>
      rw [insertByStart]
      split
      · exact ih.cons_cons y
      · exact List.sublist_cons_self x _

theorem sorted_insertByStart (x : Interval) {xs : List Interval}
    (h : xs.Pairwise fun y z => y.span.start ≤ z.span.start) :
    (insertByStart x xs).Pairwise fun y z => y.span.start ≤ z.span.start := by
  induction xs with
  | nil => simp [insertByStart]
  | cons y rest ih =>
      obtain ⟨hy, hrest⟩ := List.pairwise_cons.1 h
      rw [insertByStart]
      split
      · rename_i hyx
        refine List.pairwise_cons.2 ⟨?_, ih hrest⟩
        intro z hz
        rcases mem_insertByStart.1 hz with rfl | hz
        · exact hyx
        · exact hy z hz
      · rename_i hxy
        refine List.pairwise_cons.2 ⟨?_, h⟩
        intro z hz
        rcases List.mem_cons.1 hz with rfl | hz
        · omega
        · have := hy z hz
          omega

@[simp]
theorem sortByStart_nil : sortByStart [] = [] := rfl

theorem sortByStart_concat (xs : List Interval) (x : Interval) :
    sortByStart (xs ++ [x]) = insertByStart x (sortByStart xs) := by
  simp [sortByStart]

theorem sortByStart_perm (xs : List Interval) : (sortByStart xs).Perm xs := by
  induction xs using List.reverseRecOn with
  | nil => exact .refl _
  | append_singleton xs x ih =>
      rw [sortByStart_concat]
      exact ((insertByStart_perm x _).trans (ih.cons x)).trans
        (List.perm_append_singleton x xs).symm

theorem sortByStart_eq_nil_iff {xs : List Interval} : sortByStart xs = [] ↔ xs = [] := by
  constructor
  · intro h
    exact (h ▸ sortByStart_perm xs).symm.eq_nil
  · rintro rfl
    rfl

@[simp]
theorem mem_sortByStart {x : Interval} {xs : List Interval} : x ∈ sortByStart xs ↔ x ∈ xs :=
  (sortByStart_perm xs).mem_iff

theorem sorted_sortByStart (xs : List Interval) :
    (sortByStart xs).Pairwise fun x y => x.span.start ≤ y.span.start := by
  induction xs using List.reverseRecOn with
  | nil => exact .nil
  | append_singleton xs x ih =>
      rw [sortByStart_concat]
      exact sorted_insertByStart x ih

/-- In order of start, intervals are apart as soon as neighbours are: one that reached over its
neighbour to a later interval would overlap the neighbour as well. -/
theorem apart_of_neighboursApart {xs : List Interval} (hproper : ∀ x ∈ xs, x.span.start ≤ x.span.stop)
    (hsorted : xs.Pairwise fun x y => x.span.start ≤ y.span.start)
    (h : neighboursApart xs = true) : Apart xs := by
  induction xs with
  | nil => exact apart_nil
  | cons x rest ih =>
      refine ⟨hproper, ?_⟩
      cases rest with
      | nil => simp
      | cons y rest =>
          simp only [neighboursApart, Bool.and_eq_true, Bool.not_eq_true'] at h
          obtain ⟨hx, htail⟩ := List.pairwise_cons.1 hsorted
          have hrest := ih (fun z hz => hproper z (List.mem_cons_of_mem _ hz)) htail h.2
          refine List.pairwise_cons.2 ⟨?_, hrest.before⟩
          have hlt : x.span.stop < y.span.start := by
            have hxy := hx y (by simp)
            have hy := hproper y (by simp)
            rcases Span.overlaps_eq_false_iff.1 h.1 with hlt | hlt <;> omega
          intro z hz
          rcases List.mem_cons.1 hz with rfl | hz
          · exact hlt
          · have hyz := List.rel_of_pairwise_cons htail hz
            omega

theorem neighboursApart_of_pairwise {xs : List Interval}
    (h : xs.Pairwise fun x y => x.span.overlaps y.span = false) : neighboursApart xs = true := by
  induction xs with
  | nil => rfl
  | cons x rest ih =>
      obtain ⟨hx, hrest⟩ := List.pairwise_cons.1 h
      cases rest with
      | nil => rfl
      | cons y rest =>
          rw [neighboursApart, hx y List.mem_cons_self, ih hrest]
          rfl

/-- Comparing neighbours in order of start compares all of them. -/
theorem neighboursApart_sortByStart_iff {xs : List Interval}
    (hproper : ∀ x ∈ xs, x.span.start ≤ x.span.stop) :
    neighboursApart (sortByStart xs) = true ↔
      xs.Pairwise fun x y => x.span.overlaps y.span = false := by
  have hsymm : ∀ {x y : Interval}, x.span.overlaps y.span = false → y.span.overlaps x.span = false := by
    intro x y hxy
    rwa [Span.overlaps_comm]
  rw [← (sortByStart_perm xs).pairwise_iff hsymm]
  constructor
  · intro h
    apply Apart.not_overlaps
    exact apart_of_neighboursApart (fun x hx => hproper x (mem_sortByStart.1 hx))
      (sorted_sortByStart xs) h
  · exact neighboursApart_of_pairwise

/-- Intervals apart from each other can be in one order only. -/
theorem Apart.eq_of_perm {xs ys : List Interval} (hxs : Apart xs) (hys : Apart ys)
    (h : xs.Perm ys) : xs = ys := by
  apply h.eq_of_pairwise _ hxs.starts_increase hys.starts_increase
  intro x y _ _ hxy hyx
  omega

/-! ## Making room -/

theorem Apart.insertByStart {x : Interval} {xs : List Interval} (h : Apart xs)
    (hx : x.span.start ≤ x.span.stop) (hfree : ∀ y ∈ xs, x.span.overlaps y.span = false) :
    Apart (insertByStart x xs) := by
  refine ⟨?_, ?_⟩
  · intro y hy
    rcases mem_insertByStart.1 hy with rfl | hy
    · exact hx
    · exact h.proper y hy
  · induction xs with
    | nil => simp [Matching.insertByStart]
    | cons y rest ih =>
        obtain ⟨hbefore, hrest⟩ := List.pairwise_cons.1 h.before
        have hy := h.proper y (by simp)
        have hxy := Span.overlaps_eq_false_iff.1 (hfree y (by simp))
        rw [Matching.insertByStart]
        split
        · rename_i hle
          have htail := ih (h.sublist (List.sublist_cons_self y rest))
            (fun z hz => hfree z (List.mem_cons_of_mem _ hz))
          refine List.pairwise_cons.2 ⟨?_, htail⟩
          intro z hz
          rcases mem_insertByStart.1 hz with rfl | hz
          · omega
          · exact hbefore z hz
        · rename_i hlt
          refine List.pairwise_cons.2 ⟨?_, h.before⟩
          intro z hz
          rcases List.mem_cons.1 hz with rfl | hz
          · omega
          · have := hbefore z hz
            omega

theorem Apart.free_of_insertByStart {x : Interval} {xs : List Interval}
    (h : Apart (Matching.insertByStart x xs)) : ∀ y ∈ xs, x.span.overlaps y.span = false := by
  have hpair := (insertByStart_perm x xs).pairwise h.not_overlaps
    (fun {a b} hab => by rwa [Span.overlaps_comm])
  exact fun y hy => List.rel_of_pairwise_cons hpair hy

theorem makeRoom?_of_free {x : Interval} {xs : List Interval}
    (hfree : ∀ y ∈ xs, x.span.overlaps y.span = false) :
    makeRoom? x xs = some (insertByStart x xs, none) := by
  have hf : (xs.filter fun y => x.span.overlaps y.span) = [] := by
    rw [List.filter_eq_nil_iff]
    intro y hy
    simp [hfree y hy]
  simp [makeRoom?, hf]

/-- The two ways in which an interval is taken among others: it overlaps none of them, or only one
that is shorter and makes room. -/
theorem makeRoom?_cases {x : Interval} {xs ys : List Interval} {old : Option Interval}
    (h : makeRoom? x xs = some (ys, old)) :
    (old = none ∧ (∀ y ∈ xs, x.span.overlaps y.span = false) ∧ ys = insertByStart x xs) ∨
      ∃ z ∈ xs, old = some z ∧ x.span.overlaps z.span = true ∧ z.span.length < x.span.length ∧
        (∀ y ∈ xs, y ≠ z → x.span.overlaps y.span = false) ∧
        ys = insertByStart x (xs.filter (· ≠ z)) := by
  rw [makeRoom?] at h
  split at h
  · rename_i hf
    cases h
    refine .inl ⟨rfl, ?_, rfl⟩
    intro y hy
    simpa using List.filter_eq_nil_iff.1 hf y hy
  · rename_i z hf
    have hz : z ∈ xs ∧ x.span.overlaps z.span = true :=
      List.mem_filter.1 (hf ▸ List.mem_singleton_self z)
    split at h
    · rename_i hshort
      cases h
      refine .inr ⟨z, hz.1, rfl, hz.2, hshort, ?_, rfl⟩
      intro y hy hne
      by_contra ho
      have hmem : y ∈ xs.filter fun y => x.span.overlaps y.span :=
        List.mem_filter.2 ⟨hy, by simpa using ho⟩
      rw [hf] at hmem
      exact hne (List.mem_singleton.1 hmem)
    · cases h
  · cases h

theorem mem_of_makeRoom? {x y : Interval} {xs ys : List Interval} {old : Option Interval}
    (hm : makeRoom? x xs = some (ys, old)) (hy : y ∈ ys) : y = x ∨ y ∈ xs := by
  rcases makeRoom?_cases hm with ⟨-, -, rfl⟩ | ⟨z, -, -, -, -, -, rfl⟩
  · exact mem_insertByStart.1 hy
  · exact (mem_insertByStart.1 hy).imp_right fun hy => (List.mem_filter.1 hy).1

theorem Apart.makeRoom? {x : Interval} {xs ys : List Interval} {old : Option Interval}
    (h : Apart xs) (hx : x.span.start ≤ x.span.stop)
    (hm : makeRoom? x xs = some (ys, old)) : Apart ys := by
  rcases makeRoom?_cases hm with ⟨-, hfree, rfl⟩ | ⟨z, -, -, -, -, hfree, rfl⟩
  · exact h.insertByStart hx hfree
  · apply (h.sublist List.filter_sublist).insertByStart hx
    intro y hy
    obtain ⟨hy, hne⟩ := List.mem_filter.1 hy
    exact hfree y hy (by simpa using hne)

end LineAtlas.Matching
