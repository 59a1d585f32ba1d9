import LineAtlas.Proofs.Lookup
import Mathlib.Data.String.Basic

/-!
# Files that lookups reach

The source files of a snapshot are collected from all rows of the bound sequences, whatever section they
are bound to. No row of such a sequence is hidden behind another, so each of these files is the answer for
some address, and no answer names another file.
-/

namespace LineAtlas.Snapshot

open Matching

/-- A lookup answers with a position in the file. -/
def Reaches (x : Snapshot) (f : String) : Prop :=
  ∃ s a ps, x.resolve? s a = some ps ∧ ∃ p ∈ ps, p.file = some f

variable {x : Snapshot}

theorem mem_boundSequences {q : LineSequence} : q ∈ x.boundSequences ↔
    ∃ i s, x.matching.table.Binds i s ∧ x.sequences[i]? = some q := by
  simp only [boundSequences, List.mem_flatMap, List.mem_filterMap]
  constructor
  · rintro ⟨⟨s, xs⟩, hmem, y, hy, hq⟩
    exact ⟨y.index, s, ⟨xs, hmem, y, hy, rfl⟩, hq⟩
  · rintro ⟨_, s, ⟨xs, hmem, y, hy, rfl⟩, hq⟩
    exact ⟨(s, xs), hmem, y, hy, hq⟩

theorem mem_sourceFiles {f : String} : f ∈ x.sourceFiles ↔
    ∃ q ∈ x.boundSequences, ∃ a ps, q.positionsAt? a = some ps ∧ ∃ p ∈ ps, p.file = some f := by
  simp only [sourceFiles, List.mem_mergeSort, List.mem_eraseDups, List.mem_flatMap, List.mem_filterMap,
    LineSequence.positionsAt?_eq_some_iff, Prod.exists]

/-- Files are listed in increasing order, so none comes twice. -/
theorem sourceFiles_increase (x : Snapshot) : x.sourceFiles.Pairwise (· < ·) := by
  have hsorted : x.sourceFiles.Pairwise fun a b => (!decide (b < a)) = true := by
    apply List.pairwise_mergeSort
    · intro a b c hab hbc
      simp only [Bool.not_eq_true', decide_eq_false_iff_not, not_lt] at hab hbc ⊢
      exact hab.trans hbc
    · intro a b
      simp only [Bool.or_eq_true, Bool.not_eq_true', decide_eq_false_iff_not, not_lt]
      exact le_total a b
  have hnodup : x.sourceFiles.Nodup := by
    rw [sourceFiles, (List.mergeSort_perm _ _).nodup_iff]
    exact nodup_eraseDups _
  apply (hsorted.and hnodup).imp
  rintro a b ⟨hle, hne⟩
  simp only [Bool.not_eq_true', decide_eq_false_iff_not, not_lt] at hle
  exact lt_of_le_of_ne hle hne

theorem Assembled.mem_sourceFiles_iff (hx : x.Assembled) {f : String} :
    f ∈ x.sourceFiles ↔ x.Reaches f := by
  simp only [mem_sourceFiles, mem_boundSequences, Reaches, hx.resolve?_eq_some_iff]
  constructor
  · rintro ⟨q, ⟨i, s, hbinds, hq⟩, a, ps, hps, hp⟩
    exact ⟨s, a, ps, ⟨i, q, hbinds, hq, hps⟩, hp⟩
  · rintro ⟨s, a, ps, ⟨i, q, hbinds, hq, hps⟩, hp⟩
    exact ⟨q, ⟨i, s, hbinds, hq⟩, a, ps, hps, hp⟩

/-- Whatever the parts of a snapshot say, the files that it offers are those that its lookups reach: each
is found at some address of some section, and the file of every position found is among them. -/
theorem sourceFiles_eq_reached {listing : Listing} {symbols : SymbolTable} {nodes : NodeTable}
    {lines : LineProgram} {compilationDirectory path : Option String} {x : Snapshot}
    (h : (assemble listing symbols nodes lines compilationDirectory path).outcome = .ok x) :
    x.sourceFiles.Pairwise (· < ·) ∧ ∀ f, f ∈ x.sourceFiles ↔ x.Reaches f := by
  have hassembled : x.Assembled := (assembled_of_assemble h).1
  exact ⟨x.sourceFiles_increase, fun f => hassembled.mem_sourceFiles_iff⟩

theorem sourceFiles_eq_reached_oneFunction :
    ∃ listing symbols nodes lines x,
      (assemble listing symbols nodes lines none none).outcome = .ok x ∧
        (ofDumps oneFunction none none).outcome = .ok x ∧ x.sourceFiles = ["a.c"] ∧ x.Reaches "a.c" := by
  have hfiles : (ofDumps oneFunction none none).outcome.toOption.map sourceFiles = some ["a.c"] := by
    decide +kernel
  obtain ⟨x, hx, hfiles⟩ := Logged.exists_outcome_eq_ok hfiles
  have hparts := hx
  simp only [ofDumps, Logged.outcome_bind_eq_ok_iff] at hparts
  obtain ⟨listing, -, symbols, -, info, -, lines, -, h⟩ := hparts
  refine ⟨_, _, _, _, x, h, hx, hfiles, ((sourceFiles_eq_reached h).2 "a.c").1 ?_⟩
  rw [hfiles]
  exact List.mem_singleton_self _

end LineAtlas.Snapshot
