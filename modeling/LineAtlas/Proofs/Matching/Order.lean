import LineAtlas.Proofs.Matching.Binding
import LineAtlas.Proofs.Matching.Renaming

/-!
# The order of the sequences

Only placing the sequences as well as they go depends on their order. In another order the filters
leave no choice at the same stage, with the same ranges of addresses bound to the same rows, although
another of several equal sequences may be the first and so the one that is bound.
-/

namespace LineAtlas.Matching

namespace Problem

variable (p : Problem)

/-- What a table binds: for every section the ranges of addresses, each with its sequence. -/
def contents (t : Table) : Keyed String (List (Span × Option LineSequence)) :=
  t.map fun (s, xs) => (s, xs.map fun x => (x.span, p.sequences[x.index]?))

/-- Where the sequence with index `j` of `qs` first occurs in the problem. -/
def firstIndex (qs : List LineSequence) (j : Nat) : Nat :=
  (qs[j]?.bind fun q => p.sequences.findIdx? (· = q)).getD 0

variable {p} {qs : List LineSequence}

theorem IsFirst.firstIndex_eq {i j : Nat} {q : LineSequence} (hi : p.IsFirst i q)
    (hj : qs[j]? = some q) : p.firstIndex qs j = i := by
  rw [firstIndex, hj, Option.bind_some, findIdx?_eq_some_iff_isFirst.2 hi, Option.getD_some]

theorem placeable_firstIndex (h : qs.Perm p.sequences) {j : Nat} {q : LineSequence}
    (hj : (p.withSequences qs).Placeable j q) : p.Placeable (p.firstIndex qs j) q := by
  have hat : qs[j]? = some q := hj.getElem?
  obtain ⟨i, hi⟩ := List.mem_iff_getElem?.1 (h.mem_iff.1 (List.mem_of_getElem? hat))
  obtain ⟨k, hk⟩ := exists_isFirst hi
  rw [hk.firstIndex_eq hat]
  exact placeable_iff_isFirst.2 ⟨hk, hj.notEmpty⟩

theorem exists_placeable (h : qs.Perm p.sequences) {i : Nat} {q : LineSequence}
    (hi : p.Placeable i q) : ∃ j, (p.withSequences qs).Placeable j q := by
  obtain ⟨j, hj⟩ := List.mem_iff_getElem?.1 (h.mem_iff.2 (List.mem_of_getElem? hi.getElem?))
  obtain ⟨k, hk⟩ := exists_isFirst (p := p.withSequences qs) hj
  exact ⟨k, placeable_iff_isFirst.2 ⟨hk, hi.notEmpty⟩⟩

theorem renames_of_perm (h : qs.Perm p.sequences) :
    Renames p qs (p.firstIndex qs) (p.withSequences qs).initial p.initial :=
  renames_initial (fun _ _ => placeable_firstIndex h) (fun _ _ => exists_placeable h)

variable {r r' : Result}

theorem contents_renamed (h : qs.Perm p.sequences) (hr' : (p.withSequences qs).run = .ok r') :
    p.contents (r'.table.renamed (p.firstIndex qs)) = (p.withSequences qs).contents r'.table := by
  rw [contents, contents, Table.renamed, List.map_map]
  apply List.map_congr_left
  rintro ⟨s, xs⟩ hxs
  simp only [Function.comp_apply, List.map_map, Prod.mk.injEq, true_and]
  apply List.map_congr_left
  intro x hx
  obtain ⟨q, hq, -⟩ := (mem_run_table hr' hxs).2.2.2 x hx
  have hat := (placeable_firstIndex h hq).getElem?
  simp only [Function.comp_apply, Interval.renamed, Prod.mk.injEq, true_and]
  rw [hat, hq.getElem?]

theorem sectionOf?_eq_of_renamed (h : qs.Perm p.sequences) (hr : p.run = .ok r)
    (hr' : (p.withSequences qs).run = .ok r')
    (htable : r.table = r'.table.renamed (p.firstIndex qs)) {i j : Nat} {q : LineSequence}
    (hi : p.sequences[i]? = some q) (hj : qs[j]? = some q) : r'.sectionOf? j = r.sectionOf? i := by
  obtain ⟨i₀, hi₀⟩ := exists_isFirst hi
  obtain ⟨j₀, hj₀⟩ := exists_isFirst (p := p.withSequences qs) hj
  apply Option.ext
  intro s
  rw [sectionOf?_run_eq_some_iff hr (p.getD_get?_duplicates hi hi₀),
    sectionOf?_run_eq_some_iff hr' ((p.withSequences qs).getD_get?_duplicates hj hj₀), htable,
    Table.binds_renamed]
  constructor
  · intro hbinds
    exact ⟨j₀, hi₀.firstIndex_eq hj₀.getElem?, hbinds⟩
  · rintro ⟨k, hk, hbinds⟩
    obtain ⟨q', hq'⟩ := placeable_of_binds_run hr' hbinds
    have hat := (placeable_firstIndex h hq').getElem?
    rw [hk, hi₀.getElem?] at hat
    obtain rfl : q = q' := Option.some.inj hat
    rwa [hj₀.unique (placeable_iff_isFirst.1 hq').1]

/-- The order of the sequences matters only to the placement as well as it goes. In any order the run
is at fault alike or ends at the same stage, and when the filters left no choice, every section has the
same ranges with the same rows, and every sequence has the same section, repetitions included. -/
theorem run_perm (h : qs.Perm p.sequences) :
    (p.withSequences qs).run.map Result.stage = p.run.map Result.stage ∧
      ∀ r r', p.run = .ok r → (p.withSequences qs).run = .ok r' → r.stage ≠ .bestEffort →
        (p.withSequences qs).contents r'.table = p.contents r.table ∧
          ∀ i j q, p.sequences[i]? = some q → qs[j]? = some q →
            r'.sectionOf? j = r.sectionOf? i := by
  refine ⟨(renames_of_perm h).run_stage.symm, ?_⟩
  intro r r' hr hr' hstage
  have htable := (renames_of_perm h).run_table hr hr' hstage
  refine ⟨?_, ?_⟩
  · rw [← contents_renamed h hr', ← htable]
  · intro i j q hi hj
    exact sectionOf?_eq_of_renamed h hr hr' htable hi hj

theorem run_perm_reversed :
    let qs := twoSections.sequences.reverse
    ∃ r r', qs.Perm twoSections.sequences ∧ twoSections.run = .ok r ∧
      (twoSections.withSequences qs).run = .ok r' ∧ r'.stage = .overlap ∧
      (twoSections.withSequences qs).contents r'.table = twoSections.contents r.table ∧
      r'.duplicates = [(3, 1)] ∧ r'.sectionOf? 3 = r.sectionOf? 0 := by
  intro qs
  have hperm : qs.Perm twoSections.sequences := List.reverse_perm _
  have hr : twoSections.run = .ok ⟨[(".text", [⟨⟨0, 11⟩, 0⟩]), (".text.startup", [⟨⟨0, 6⟩, 1⟩])],
    .overlap, [(2, 0)], [3], [], []⟩ := by decide
  have hr' : (twoSections.withSequences qs).run =
    .ok ⟨[(".text", [⟨⟨0, 11⟩, 1⟩]), (".text.startup", [⟨⟨0, 6⟩, 2⟩])],
      .overlap, [(3, 1)], [0], [], []⟩ := by decide
  obtain ⟨-, hsame⟩ := run_perm hperm
  obtain ⟨hcontents, hsection⟩ := hsame _ _ hr hr' (by decide)
  exact ⟨_, _, hperm, hr, hr', rfl, hcontents, rfl,
    hsection 0 3 twoSections.sequences[0] (by decide) (by decide)⟩

end Problem

end LineAtlas.Matching
