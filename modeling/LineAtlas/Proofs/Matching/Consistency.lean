import LineAtlas.Proofs.Matching.Run

/-!
# Consistent assignments

An assignment of sections to the sequences is consistent when nothing that the filters look at speaks
against it. No filter ever takes the assigned section away: a section can only be reserved by the
sequences assigned to it, and these do not overlap. So when the filters leave no choice, they leave
the assignment, and there is no other.
-/

namespace LineAtlas.Matching.Problem

variable (p : Problem)

/-- Every sequence to be placed is given a section that it fits into, with its rows at instructions,
apart from the other sequences there, and spoken for by a symbol if any section it fits into is. -/
structure Consistent (t : Nat → String) : Prop where
  listed : ∀ i q, p.Placeable i q → t i ∈ p.sections
  fits : ∀ i q, p.Placeable i q → p.fits q (t i) = true
  aligned : ∀ i q, p.Placeable i q → p.isAligned q (t i) = true
  apart : ∀ i j q r, p.Placeable i q → p.Placeable j r → i ≠ j → t i = t j →
    q.span.overlaps r.span = false
  corroborated : ∀ i q s, p.Placeable i q → s ∈ p.sections → p.fits q s = true →
    p.corroborates q s = true → p.corroborates q (t i) = true

/-- Candidates within the sections that the sequences fit into, the assigned ones still among them. -/
structure Keeps (t : Nat → String) (c : Candidates) : Prop where
  narrowed : Narrows (p.filterBySize p.initial) c
  assigned : ∀ i q, p.Placeable i q → t i ∈ candidatesOf c i

variable {p} {t : Nat → String} {c : Candidates}

theorem length_filterBySize_initial :
    (p.filterBySize p.initial).length = p.sequences.length :=
  p.length_after p.length_initial [.size]

theorem Keeps.length_eq (h : p.Keeps t c) : c.length = p.sequences.length :=
  h.narrowed.length_eq.trans length_filterBySize_initial

theorem Keeps.placeable (h : p.Keeps t c) {i : Nat} {q : LineSequence} {s : String}
    (hq : p.sequences[i]? = some q) (hs : s ∈ candidatesOf c i) :
    p.Placeable i q ∧ s ∈ p.sections ∧ p.fits q s = true := by
  have hsize : s ∈ candidatesOf (p.after [.size] p.initial) i := h.narrowed.mem hs
  have hinit := (p.after_narrows p.length_initial [.size]).mem hsize
  obtain ⟨⟨q', hplace⟩, hlisted⟩ := p.mem_candidatesOf_initial.1 hinit
  obtain rfl : q' = q := Option.some.inj (hplace.getElem?.symm.trans hq)
  exact ⟨hplace, hlisted, p.fits_of_mem_after hq hsize⟩

theorem Keeps.narrow {f : LineSequence → List String → List String} (h : p.Keeps t c)
    (hf : ∀ q cs, (f q cs).Sublist cs)
    (hassigned : ∀ i q, p.Placeable i q → 1 < (candidatesOf c i).length →
      t i ∈ f q (candidatesOf c i)) :
    p.Keeps t (p.narrow (fun q => whenAmbiguous (f q)) c) := by
  refine ⟨h.narrowed.trans (p.narrow_narrows (fun q => whenAmbiguous_sublist (hf q)) h.length_eq), ?_⟩
  intro i q hplace
  rw [p.candidatesOf_narrow (fun _ => whenAmbiguous_nil _) c hplace.getElem?]
  exact mem_whenAmbiguous (h.assigned i q hplace) (hassigned i q hplace)

namespace Consistent

theorem keeps_filterBySize (h : p.Consistent t) : p.Keeps t (p.filterBySize p.initial) := by
  refine ⟨.refl _, ?_⟩
  intro i q hplace
  have hinit := p.mem_candidatesOf_initial.2 ⟨⟨q, hplace⟩, h.listed i q hplace⟩
  exact (p.mem_filterBySize hplace.getElem?).2 ⟨hinit, h.fits i q hplace⟩

/-- A reservation on the section assigned to a sequence is that of a sequence assigned there too. -/
theorem keeps_exclude (h : p.Consistent t) (hc : p.Keeps t c) : p.Keeps t (p.exclude c) := by
  apply hc.narrow (fun _ _ => List.filter_sublist)
  intro i q hplace hseveral
  refine List.mem_filter.2 ⟨hc.assigned i q hplace, ?_⟩
  rw [p.isFree_reservations_iff]
  intro j r hr hsingle
  have hj : candidatesOf c j = [t i] := candidatesOf_of_getElem? hsingle
  obtain ⟨hplace', -, -⟩ := hc.placeable hr (hj ▸ List.mem_singleton_self (t i))
  have hsame : t j = t i := List.mem_singleton.1 (hj ▸ hc.assigned j r hplace')
  have hne : i ≠ j := by
    rintro rfl
    rw [hj, List.length_singleton] at hseveral
    omega
  exact h.apart i j q r hplace hplace' hne hsame.symm

theorem keeps_filterByOverlap (h : p.Consistent t) (hc : p.Keeps t c) :
    p.Keeps t (p.filterByOverlap c) :=
  p.settle_induction (P := p.Keeps t) (fun _ => h.keeps_exclude) _ c hc

theorem keeps_filterByAlignment (h : p.Consistent t) (hc : p.Keeps t c) :
    p.Keeps t (p.filterByAlignment c) := by
  apply hc.narrow (fun _ _ => List.filter_sublist)
  intro i q hplace _
  exact List.mem_filter.2 ⟨hc.assigned i q hplace, h.aligned i q hplace⟩

theorem keeps_filterBySymbol (h : p.Consistent t) (hc : p.Keeps t c) :
    p.Keeps t (p.filterBySymbol c) := by
  apply hc.narrow p.keepCorroborated_sublist
  intro i q hplace _
  have hassigned := hc.assigned i q hplace
  split
  · exact hassigned
  · rename_i hne
    -- Some candidate is spoken for, so the assigned section is as well.
    obtain ⟨s, hs⟩ := List.exists_mem_of_ne_nil _ hne
    obtain ⟨hs, hspoken⟩ := List.mem_filter.1 hs
    obtain ⟨-, hlisted, hfits⟩ := hc.placeable hplace.getElem? hs
    exact List.mem_filter.2 ⟨hassigned, h.corroborated i q s hplace hlisted hfits hspoken⟩

theorem keeps_filter (h : p.Consistent t) (hc : p.Keeps t c) (stage : Stage)
    (hsize : stage ≠ .size) : p.Keeps t (p.filter c stage) := by
  cases stage with
  | size => exact absurd rfl hsize
  | overlap => exact h.keeps_filterByOverlap hc
  | alignment => exact h.keeps_filterByAlignment hc
  | symbol => exact h.keeps_filterBySymbol hc
  | symbolOverlap => exact h.keeps_filterByOverlap hc
  | bestEffort => exact hc

theorem keeps_after (h : p.Consistent t) {stages : List Stage} (hsize : Stage.size ∉ stages)
    (hc : p.Keeps t c) : p.Keeps t (p.after stages c) := by
  induction stages generalizing c with
  | nil => exact hc
  | cons stage rest ih =>
      rw [List.mem_cons, not_or] at hsize
      exact ih hsize.2 (h.keeps_filter hc stage (Ne.symm hsize.1))

theorem mem_candidatesOf_after (h : p.Consistent t) {stages : List Stage}
    (hpre : stages <+: Stage.filters) {i : Nat} {q : LineSequence} (hplace : p.Placeable i q) :
    t i ∈ candidatesOf (p.after stages p.initial) i := by
  cases stages with
  | nil => exact p.mem_candidatesOf_initial.2 ⟨⟨q, hplace⟩, h.listed i q hplace⟩
  | cons stage rest =>
      obtain ⟨rfl, hrest⟩ := List.cons_prefix_cons.1 hpre
      have hsize : Stage.size ∉ rest := fun hmem => by
        have := hrest.subset hmem
        revert this
        decide
      exact (h.keeps_after hsize h.keeps_filterBySize).assigned i q hplace

/-- When the filters leave no choice, they leave the assigned section. -/
theorem binds_iff (h : p.Consistent t) {r : Result} (hr : p.run = .ok r)
    (hstage : r.stage ≠ .bestEffort) {i : Nat} {q : LineSequence} (hplace : p.Placeable i q)
    (s : String) : r.table.Binds i s ↔ s = t i := by
  rcases p.run_cases hr with ⟨front, stage, rest, hfilters, ht, -⟩ | ⟨hbest, -⟩
  · have hpre : front ++ [stage] <+: Stage.filters := ⟨rest, by rw [hfilters]; simp⟩
    obtain ⟨hone, -, htable⟩ := p.complete?_eq_some ht
    have hmem := h.mem_candidatesOf_after hpre hplace
    have hsingle : candidatesOf (p.after (front ++ [stage]) p.initial) i = [t i] := by
      have hlen := hone i
      obtain ⟨s, hs⟩ := List.length_eq_one_iff.1
        (Nat.le_antisymm hlen (List.length_pos_of_mem hmem))
      rw [hs, List.mem_singleton] at hmem
      rw [hs, hmem]
    rw [htable]
    constructor
    · rintro ⟨xs, hxs, x, hx, rfl⟩
      obtain ⟨-, rfl, -⟩ := p.mem_tableOf.1 hxs
      obtain ⟨q', -, hc, -⟩ := p.mem_places.1 (p.mem_settled.1 hx)
      rw [candidatesOf_of_getElem? hc] at hsingle
      exact (List.cons.inj hsingle).1
    · rintro rfl
      have hx : (⟨q.span, i⟩ : Interval) ∈ p.settled (p.after (front ++ [stage]) p.initial) (t i) :=
        p.mem_settled.2 (p.mem_places.2
          ⟨q, hplace.getElem?, hsingle ▸ getElem?_of_mem_candidatesOf hmem, rfl⟩)
      exact ⟨_, p.mem_tableOf.2 ⟨h.listed i q hplace, rfl, List.ne_nil_of_mem hx⟩, _, hx, rfl⟩
  · exact absurd hbest hstage

end Consistent

/-- The filters never eliminate a consistent assignment: after each of them the assigned section is
still a candidate, and a run that ends without placing sequences as well as they go binds every
sequence to its assigned section and no other, which leaves room for one such assignment only. -/
theorem consistent_survives (h : p.Consistent t) :
    (∀ stages, stages <+: Stage.filters → ∀ i q, p.Placeable i q →
      t i ∈ candidatesOf (p.after stages p.initial) i) ∧
    ∀ r, p.run = .ok r → r.stage ≠ .bestEffort →
      (∀ i q, p.Placeable i q → ∀ s, r.table.Binds i s ↔ s = t i) ∧
      ∀ t', p.Consistent t' → ∀ i q, p.Placeable i q → t' i = t i := by
  refine ⟨fun stages hpre i q hplace => h.mem_candidatesOf_after hpre hplace, ?_⟩
  intro r hr hstage
  refine ⟨fun i q hplace s => h.binds_iff hr hstage hplace s, ?_⟩
  intro t' h' i q hplace
  exact (h.binds_iff hr hstage hplace (t' i)).1 ((h'.binds_iff hr hstage hplace (t' i)).2 rfl)

theorem placeable_twoSections {i : Nat} {q : LineSequence} (h : twoSections.Placeable i q) :
    (i = 0 ∨ i = 1) ∧ twoSections.sequences[i]? = some q := by
  have hq := h.getElem?
  refine ⟨?_, hq⟩
  have hlt : i < 4 := (List.getElem?_eq_some_iff.1 hq).1
  have hrepeated : i ≠ 2 := fun hi => h.notRepeated (by subst i; decide)
  have hempty : i ≠ 3 := by
    rintro rfl
    obtain rfl : .empty = q := Option.some.inj hq
    exact absurd h.notEmpty (by decide)
  omega

theorem consistent_twoSections :
    twoSections.Consistent fun i => if i = 0 then ".text" else ".text.startup" := by
  refine ⟨?_, ?_, ?_, ?_, ?_⟩
  · intro i q h
    rcases (placeable_twoSections h).1 with rfl | rfl <;> decide
  · intro i q h
    obtain ⟨rfl | rfl, hq⟩ := placeable_twoSections h <;> obtain rfl := Option.some.inj hq <;> decide
  · intro i q h
    obtain ⟨rfl | rfl, hq⟩ := placeable_twoSections h <;> obtain rfl := Option.some.inj hq <;> decide
  · intro i j q r h h' hne hsame
    rcases (placeable_twoSections h).1 with rfl | rfl <;>
      rcases (placeable_twoSections h').1 with rfl | rfl
    · exact absurd rfl hne
    · exact absurd hsame (by decide)
    · exact absurd hsame (by decide)
    · exact absurd rfl hne
  · intro i q s _ _ _ hspoken
    -- There are no symbols, so none speaks for a section.
    simp [corroborates, symbolDistances, SymbolTable.inSection, twoSections] at hspoken

theorem consistent_survives_twoSections :
    ∃ r, twoSections.run = .ok r ∧ r.stage = .overlap ∧
      twoSections.Placeable 1 twoSections.sequences[1] ∧
      ".text.startup" ∈ candidatesOf (twoSections.after [.size, .overlap] twoSections.initial) 1 ∧
      r.table.Binds 1 ".text.startup" := by
  have hplace : twoSections.Placeable 1 twoSections.sequences[1] := ⟨rfl, by decide, by decide⟩
  have hr : twoSections.run = .ok ⟨[(".text", [⟨⟨0, 11⟩, 0⟩]), (".text.startup", [⟨⟨0, 6⟩, 1⟩])],
    .overlap, [(2, 0)], [3], [], []⟩ := by decide
  obtain ⟨hkept, hbound⟩ := consistent_survives consistent_twoSections
  refine ⟨_, hr, rfl, hplace, ?_, ?_⟩
  · exact hkept [.size, .overlap] (by decide) 1 _ hplace
  · exact ((hbound _ hr (by decide)).1 1 _ hplace ".text.startup").2 rfl

end LineAtlas.Matching.Problem
