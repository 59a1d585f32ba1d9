import LineAtlas.Proofs.Matching.Table
import LineAtlas.Proofs.Traversal

/-!
# Runs of the filters

A run applies the filters one after the other and stops at the first that leaves no choice. That it
stops there never shows in its table or its evidence: the filters it leaves out would change nothing,
and placing the sequences as well as they go would lead to the same table. In every table a run ends
with, the intervals of a section are apart. A run is at fault exactly when finding the evidence is.
-/

namespace LineAtlas.Matching.Problem

variable (p : Problem)

def after (stages : List Stage) (c : Candidates) : Candidates :=
  stages.foldl p.filter c

def evidenceAlong : List Stage → Candidates → Except Fault Evidence
  | [], _ => .ok []
  | stage :: rest, c => do
    return (← p.evidenceAt c stage) ++ (← evidenceAlong rest (p.filter c stage))

@[simp]
theorem after_nil (c : Candidates) : p.after [] c = c := rfl

@[simp]
theorem after_cons (stage : Stage) (rest : List Stage) (c : Candidates) :
    p.after (stage :: rest) c = p.after rest (p.filter c stage) := rfl

theorem after_append (front rest : List Stage) (c : Candidates) :
    p.after (front ++ rest) c = p.after rest (p.after front c) := by
  simp [after]

theorem evidenceAlong_append (front rest : List Stage) (c : Candidates) :
    p.evidenceAlong (front ++ rest) c = do
      return (← p.evidenceAlong front c) ++ (← p.evidenceAlong rest (p.after front c)) := by
  induction front generalizing c with
  | nil =>
      rw [List.nil_append, after_nil]
      cases p.evidenceAlong rest c <;> rfl
  | cons stage front ih =>
      simp only [List.cons_append, evidenceAlong, ih, after_cons]
      cases p.evidenceAt c stage with
      | error f => rfl
      | ok found =>
          cases p.evidenceAlong front (p.filter c stage) with
          | error f => rfl
          | ok more =>
              cases p.evidenceAlong rest (p.after front (p.filter c stage)) with
              | error f => rfl
              | ok last => exact congrArg Except.ok (List.append_assoc _ _ _).symm

theorem after_narrows {c : Candidates} (hc : c.length = p.sequences.length) (stages : List Stage) :
    Narrows c (p.after stages c) := by
  induction stages generalizing c with
  | nil => exact .refl c
  | cons stage rest ih =>
      have h := p.filter_narrows hc stage
      exact h.trans (ih (h.length_eq.trans hc))

theorem length_after {c : Candidates} (hc : c.length = p.sequences.length) (stages : List Stage) :
    (p.after stages c).length = p.sequences.length :=
  (p.after_narrows hc stages).length_eq.trans hc

/-- The two ways in which filters end: one of them is the first to leave no choice, or none of them
does. -/
theorem runFilters_cases (stages : List Stage) (c : Candidates) :
    (∃ front stage rest t, stages = front ++ stage :: rest ∧
      (∀ early last, early ++ [last] <+: front → p.complete? (p.after (early ++ [last]) c) = none) ∧
      p.complete? (p.after (front ++ [stage]) c) = some t ∧
      ∀ found, p.runFilters stages c found = (p.evidenceAlong (front ++ [stage]) c).map fun more =>
        ⟨stage, t, found ++ more, []⟩) ∨
    (∀ early last, early ++ [last] <+: stages → p.complete? (p.after (early ++ [last]) c) = none) ∧
      ∀ found, p.runFilters stages c found = (p.evidenceAlong stages c).map fun more =>
        ⟨.bestEffort, p.bestEffort (p.after stages c), found ++ more,
          (p.bestEffortPlacement (p.after stages c)).replacements⟩ := by
  induction stages generalizing c with
  | nil => exact .inr ⟨by simp, fun found => by simp [runFilters, evidenceAlong, Except.map]⟩
  | cons stage rest ih =>
      cases hc : p.complete? (p.filter c stage) with
      | some t =>
          refine .inl ⟨[], stage, rest, t, rfl, by simp, hc, fun found => ?_⟩
          simp only [runFilters, hc, List.nil_append, evidenceAlong]
          cases p.evidenceAt c stage with
          | error f => rfl
          | ok more => simp [Except.map, bind, Except.bind, pure, Except.pure]
      | none =>
          -- What the later filters find comes behind what the first one does.
          have hfound {stages : List Stage} {o : Evidence → Outcome} {found : Evidence}
              (h : ∀ more, p.runFilters rest (p.filter c stage) (found ++ more) =
                (p.evidenceAlong stages (p.filter c stage)).map fun last => o (more ++ last)) :
              p.runFilters (stage :: rest) c found = (p.evidenceAlong (stage :: stages) c).map o := by
            simp only [runFilters, hc, evidenceAlong]
            cases p.evidenceAt c stage with
            | error f => rfl
            | ok more =>
                refine (h more).trans ?_
                cases p.evidenceAlong stages (p.filter c stage) <;> rfl
          -- An initial part of the longer list is the first filter alone or goes on after it.
          have hearly : ∀ {stages : List Stage},
              (∀ early last, early ++ [last] <+: stages →
                p.complete? (p.after (early ++ [last]) (p.filter c stage)) = none) →
              ∀ early last, early ++ [last] <+: stage :: stages →
                p.complete? (p.after (early ++ [last]) c) = none := by
            intro stages h early last hpre
            cases early with
            | nil =>
                obtain ⟨rfl, -⟩ := List.cons_prefix_cons.1 hpre
                exact hc
            | cons first early =>
                obtain ⟨rfl, htail⟩ := List.cons_prefix_cons.1 hpre
                exact h early last htail
          rcases ih (p.filter c stage) with ⟨front, last, rest, t, rfl, hnone, ht, heq⟩ | ⟨hnone, heq⟩
          · refine .inl ⟨stage :: front, last, rest, t, rfl, hearly hnone, ht, fun found => hfound ?_⟩
            intro more
            simp only [heq, List.append_assoc]
            rfl
          · refine .inr ⟨hearly hnone, fun found => hfound ?_⟩
            intro more
            simp only [heq, List.append_assoc]
            rfl

/-- The two ways in which a run ends. -/
theorem run_cases {r : Result} (h : p.run = .ok r) :
    (∃ front stage rest, Stage.filters = front ++ stage :: rest ∧
      p.complete? (p.after (front ++ [stage]) p.initial) = some r.table ∧ r.stage = stage) ∨
    r.stage = .bestEffort ∧ r.table = p.bestEffort (p.after Stage.filters p.initial) := by
  obtain ⟨o, ho, hr⟩ := Except.bind_eq_ok_iff.1 h
  cases hr
  rcases p.runFilters_cases Stage.filters p.initial with
    ⟨front, stage, rest, t, hfilters, -, ht, heq⟩ | ⟨-, heq⟩
  · rw [heq, Except.map_eq_ok_iff] at ho
    obtain ⟨found, -, rfl⟩ := ho
    exact .inl ⟨front, stage, rest, hfilters, ht, rfl⟩
  · rw [heq, Except.map_eq_ok_iff] at ho
    obtain ⟨found, -, rfl⟩ := ho
    exact .inr ⟨rfl, rfl⟩

theorem run_duplicates {r : Result} (h : p.run = .ok r) : r.duplicates = p.duplicates := by
  obtain ⟨o, -, hr⟩ := Except.bind_eq_ok_iff.1 h
  cases hr
  rfl

theorem run_unmatched {r : Result} (h : p.run = .ok r) : r.unmatched = p.unmatched r.table := by
  obtain ⟨o, -, hr⟩ := Except.bind_eq_ok_iff.1 h
  cases hr
  rfl

/-! ## Stopping early -/

theorem after_eq_self_of_unambiguous {c : Candidates} (hc : c.length = p.sequences.length)
    (h : Unambiguous c) {stages : List Stage} (hsize : Stage.size ∉ stages) :
    p.after stages c = c ∧ p.evidenceAlong stages c = .ok [] := by
  induction stages with
  | nil => exact ⟨rfl, rfl⟩
  | cons stage rest ih =>
      rw [List.mem_cons, not_or] at hsize
      obtain ⟨hstage, hrest⟩ := hsize
      have hself := p.filter_eq_self_of_unambiguous hc h stage (Ne.symm hstage)
      obtain ⟨hafter, hfound⟩ := ih hrest
      have hat : p.evidenceAt c stage = .ok [] := by
        cases stage with
        | symbol => exact p.evidence_eq_nil_of_unambiguous h
        | _ => rfl
      rw [after_cons, evidenceAlong, hself, hat, hfound]
      exact ⟨hafter, rfl⟩

theorem runFilters_eq_bestEffort (stages : List Stage) (hsize : Stage.size ∉ stages.tail)
    {c : Candidates} (hc : c.length = p.sequences.length) (found : Evidence) :
    (p.runFilters stages c found).map (fun o => (o.table, o.evidence)) =
      (p.evidenceAlong stages c).map fun more => (p.bestEffort (p.after stages c), found ++ more) := by
  rcases p.runFilters_cases stages c with ⟨front, stage, rest, t, rfl, -, ht, heq⟩ | ⟨-, heq⟩
  · have hrest : Stage.size ∉ rest := fun hmem => by
      apply hsize
      cases front <;> simp [hmem]
    obtain ⟨hafter, hfound⟩ := p.after_eq_self_of_unambiguous (p.length_after hc (front ++ [stage]))
      (p.complete?_eq_some ht).1 hrest
    have happ : front ++ stage :: rest = (front ++ [stage]) ++ rest := by simp
    rw [heq, happ, p.after_append, p.evidenceAlong_append (front ++ [stage]) rest, hafter, hfound,
      p.bestEffort_eq_of_complete? ht]
    cases p.evidenceAlong (front ++ [stage]) c with
    | error f => rfl
    | ok more => simp [Except.map, bind, Except.bind, pure, Except.pure]
  · rw [heq]
    cases p.evidenceAlong stages c <;> rfl

/-- What a run finds out, without regard to where it stopped. Only the filter by symbols finds
evidence. -/
theorem run_map_eq : p.run.map (fun r => (r.table, r.evidence)) =
    (p.evidence (p.after [.size, .overlap, .alignment] p.initial)).map fun e =>
      (p.bestEffort (p.after Stage.filters p.initial), e) := by
  have hrun : p.run.map (fun r => (r.table, r.evidence)) =
      (p.runFilters Stage.filters p.initial []).map fun o => (o.table, o.evidence) := by
    rw [run]
    cases p.runFilters Stage.filters p.initial [] <;> rfl
  have hfound : p.evidenceAlong Stage.filters p.initial =
      p.evidence (p.after [.size, .overlap, .alignment] p.initial) := by
    simp only [Stage.filters, evidenceAlong, evidenceAt, after, List.foldl_cons, List.foldl_nil]
    cases p.evidence _ <;> simp [bind, Except.bind, pure, Except.pure]
  rw [hrun, p.runFilters_eq_bestEffort Stage.filters (by decide) p.length_initial [], hfound]
  simp only [List.nil_append]

theorem run_table_eq_bestEffort {r : Result} (h : p.run = .ok r) :
    r.table = p.bestEffort (p.after Stage.filters p.initial) := by
  have hmap := p.run_map_eq.symm
  rw [h] at hmap
  obtain ⟨e, -, heq⟩ := Except.map_eq_ok_iff.1 hmap
  exact (congrArg Prod.fst heq).symm

theorem run_evidence_eq :
    p.run.map Result.evidence = p.evidence (p.after [.size, .overlap, .alignment] p.initial) := by
  have hmap := congrArg (Except.map Prod.snd) p.run_map_eq
  revert hmap
  cases p.run <;> cases p.evidence _ <;> exact id

theorem evidence_of_run {r : Result} (h : p.run = .ok r) :
    p.evidence (p.after [.size, .overlap, .alignment] p.initial) = .ok r.evidence := by
  rw [← p.run_evidence_eq, h]
  rfl

/-- Stopping early never changes the answer. The table and the evidence of a run are those of all
five filters with the sequences placed as well as they go after the last of them, since candidates
that make a table pass the later filters unchanged and are placed as that table has them. -/
theorem run_eq_of_all_filters (p : Problem) :
    let aligned := p.filterByAlignment (p.filterByOverlap (p.filterBySize p.initial))
    (∀ r, p.run = .ok r →
      r.table = p.bestEffort (p.filterByOverlap (p.filterBySymbol aligned))) ∧
      p.run.map Result.evidence = p.evidence aligned ∧
      ∀ c t, c.length = p.sequences.length → p.complete? c = some t →
        p.filterByOverlap c = c ∧ p.filterByAlignment c = c ∧ p.filterBySymbol c = c ∧
          p.evidence c = .ok [] ∧ p.bestEffort c = t := by
  intro aligned
  refine ⟨fun r h => p.run_table_eq_bestEffort h, p.run_evidence_eq, ?_⟩
  intro c t hc ht
  have hone := (p.complete?_eq_some ht).1
  exact ⟨p.filter_eq_self_of_unambiguous hc hone .overlap (by decide),
    p.filter_eq_self_of_unambiguous hc hone .alignment (by decide),
    p.filter_eq_self_of_unambiguous hc hone .symbol (by decide),
    p.evidence_eq_nil_of_unambiguous hone, p.bestEffort_eq_of_complete? ht⟩

/-- Two sections at the same addresses, the second shorter, with a sequence for each, a repetition of
the first and a sequence without rows. -/
def twoSections : Problem where
  listed := [".text", ".text.startup"]
  code :=
    [(".text", [("main", [⟨0, "55 48 89 e5", none⟩, ⟨4, "e8 00 00 00 00", none⟩, ⟨9, "5d c3", none⟩])]),
      (".text.startup", [("init", [⟨0, "55 48 89 e5", none⟩, ⟨4, "5d c3", none⟩])])]
  sequences :=
    [.ofList [(0, ⟨some "a.c", 3, 1, true, 0⟩), (4, ⟨some "a.c", 4, 3, true, 0⟩),
        (11, ⟨some "a.c", 5, 1, true, 0⟩)],
      .ofList [(0, ⟨some "b.c", 7, 1, true, 0⟩), (6, ⟨some "b.c", 8, 1, true, 0⟩)],
      .ofList [(0, ⟨some "a.c", 3, 1, true, 0⟩), (4, ⟨some "a.c", 4, 3, true, 0⟩),
        (11, ⟨some "a.c", 5, 1, true, 0⟩)],
      .empty]
  symbols := []
  declarations := []

theorem run_eq_of_all_filters_twoSections :
    let c := [[".text"], [".text.startup"], [], []]
    let t := [(".text", [⟨⟨0, 11⟩, 0⟩]), (".text.startup", [⟨⟨0, 6⟩, 1⟩])]
    (∃ r, twoSections.run = .ok r ∧ r.table = twoSections.bestEffort (twoSections.filterByOverlap
        (twoSections.filterBySymbol (twoSections.after [.size, .overlap, .alignment]
          twoSections.initial)))) ∧
      twoSections.complete? c = some t ∧ twoSections.filterByOverlap c = c ∧
      twoSections.bestEffort c = t := by
  intro c t
  have ht : twoSections.complete? c = some t := by decide
  obtain ⟨hrun, -, hall⟩ := run_eq_of_all_filters twoSections
  obtain ⟨hoverlap, -, -, -, hplaced⟩ := hall c t (by decide) ht
  have hr : twoSections.run = .ok ⟨t, .overlap, [(2, 0)], [3], [], []⟩ := by decide
  exact ⟨⟨_, hr, hrun _ hr⟩, ht, hoverlap, hplaced⟩

/-! ## The table of a run -/

theorem fits_of_mem_after {rest : List Stage} {i : Nat} {q : LineSequence} {s : String}
    (hq : p.sequences[i]? = some q)
    (hs : s ∈ candidatesOf (p.after (.size :: rest) p.initial) i) : p.fits q s = true := by
  have hlen : (p.filter p.initial .size).length = p.sequences.length :=
    p.length_after p.length_initial [.size]
  have hmem := (p.after_narrows hlen rest).mem hs
  exact ((p.mem_filterBySize hq).1 hmem).2

variable {p} {r : Result}

/-- The table of a run goes over the sections with intervals that are apart, each of a sequence for
which the filters left the section. -/
theorem run_table_eq (h : p.run = .ok r) : ∃ rest intervals, .size :: rest <+: Stage.filters ∧
    r.table = p.tableOf intervals ∧
    ∀ s ∈ p.sections, Apart (intervals s) ∧
      ∀ x ∈ intervals s, ∃ cs, (x, cs) ∈ p.places (p.after (.size :: rest) p.initial) ∧ s ∈ cs := by
  refine ⟨_, _, List.prefix_rfl, p.run_table_eq_bestEffort h, ?_⟩
  intro s _
  exact ⟨p.apart_bestEffort _ s, fun x hx => p.mem_bestEffort hx⟩

theorem mem_run_table (hr : p.run = .ok r) {s : String} {xs : List Interval} (h : (s, xs) ∈ r.table) :
    s ∈ p.sections ∧ xs ≠ [] ∧ Apart xs ∧
      ∀ x ∈ xs, ∃ q, p.Placeable x.index q ∧ x.span = q.span ∧ p.fits q s = true := by
  obtain ⟨rest, intervals, -, htable, hall⟩ := run_table_eq hr
  rw [htable] at h
  obtain ⟨hs, rfl, hne⟩ := p.mem_tableOf.1 h
  obtain ⟨hapart, hplaces⟩ := hall s hs
  refine ⟨hs, hne, hapart, ?_⟩
  intro x hx
  obtain ⟨cs, hmem, hcs⟩ := hplaces x hx
  obtain ⟨q, hq, hc, hspan⟩ := p.mem_places.1 hmem
  have hcand : s ∈ candidatesOf (p.after (.size :: rest) p.initial) x.index := by
    rwa [candidatesOf_of_getElem? hc]
  have hinit := (p.after_narrows p.length_initial _).mem hcand
  obtain ⟨⟨q', hplace⟩, -⟩ := p.mem_candidatesOf_initial.1 hinit
  obtain rfl : q' = q := Option.some.inj (hplace.getElem?.symm.trans hq)
  exact ⟨q', hplace, hspan, p.fits_of_mem_after hq hcand⟩

theorem nodup_keys_run_table (h : p.run = .ok r) : (Keyed.keys r.table).Nodup := by
  obtain ⟨rest, intervals, -, htable, -⟩ := run_table_eq h
  rw [htable]
  exact p.nodup_keys_tableOf intervals

/-- However a run ends, its table is in order: the sections in listing order, each with intervals
that are closed ranges with strictly increasing starts of which no two overlap, so that an address of
a section lies in one interval at most. -/
theorem run_table_in_order (h : p.run = .ok r) :
    (Keyed.keys r.table).Sublist p.listed.eraseDups ∧ (Keyed.keys r.table).Nodup ∧
      (∀ s xs, (s, xs) ∈ r.table →
        xs ≠ [] ∧ (∀ x ∈ xs, x.span.start ≤ x.span.stop) ∧
          xs.Pairwise (fun x y => x.span.start < y.span.start) ∧
          xs.Pairwise fun x y => x.span.overlaps y.span = false) ∧
      ∀ s a, (((Keyed.get? r.table s).getD []).filter (·.span.contains a)).length ≤ 1 := by
  refine ⟨?_, nodup_keys_run_table h, ?_, ?_⟩
  · obtain ⟨rest, intervals, -, htable, -⟩ := run_table_eq h
    rw [htable, p.keys_tableOf, sections, eraseDups_filter]
    exact List.filter_sublist.trans List.filter_sublist
  · intro s xs hxs
    obtain ⟨-, hne, hapart, -⟩ := mem_run_table h hxs
    exact ⟨hne, hapart.proper, hapart.starts_increase, hapart.not_overlaps⟩
  · intro s a
    cases hget : Keyed.get? r.table s with
    | none => simp
    | some xs =>
        exact (mem_run_table h (Keyed.mem_of_get? hget)).2.2.1.length_filter_contains_le a

/-- Two sections that no filter can tell apart. The second sequence takes the place of the first, the
third comes behind it, and the fourth has room on the second section only. -/
def crowded : Problem where
  listed := [".a", ".b"]
  code :=
    let run := [⟨0, "48 89 e5 c3", none⟩, ⟨4, "48 89 e5 c3", none⟩, ⟨8, "48 89 e5 c3", none⟩,
      ⟨12, "48 89 e5 c3", none⟩]
    [(".a", [("f", run)]), (".b", [("f", run)])]
  sequences :=
    [.ofList [(0, ⟨some "a.c", 1, 0, true, 0⟩), (4, ⟨some "a.c", 2, 0, true, 0⟩)],
      .ofList [(0, ⟨some "b.c", 1, 0, true, 0⟩), (8, ⟨some "b.c", 2, 0, true, 0⟩)],
      .ofList [(12, ⟨some "c.c", 1, 0, true, 0⟩), (16, ⟨some "c.c", 2, 0, true, 0⟩)],
      .ofList [(4, ⟨some "d.c", 1, 0, true, 0⟩), (12, ⟨some "d.c", 2, 0, true, 0⟩)]]
  symbols := []
  declarations := []

theorem run_table_in_order_crowded :
    let xs := [⟨⟨0, 8⟩, 1⟩, ⟨⟨12, 16⟩, 2⟩]
    ∃ r, crowded.run = .ok r ∧ r.stage = .bestEffort ∧ (".a", xs) ∈ r.table ∧
      xs.Pairwise (fun x y => x.span.overlaps y.span = false) ∧
      (((Keyed.get? r.table ".a").getD []).filter (·.span.contains 8)).length ≤ 1 := by
  intro xs
  have hr : crowded.run =
      .ok ⟨[(".a", xs), (".b", [⟨⟨4, 12⟩, 3⟩])], .bestEffort, [], [0], [], [⟨1, 0, ".a"⟩]⟩ := by decide
  obtain ⟨-, -, hsections, hone⟩ := run_table_in_order hr
  have hmem : (".a", xs) ∈ [(".a", xs), (".b", [⟨⟨4, 12⟩, 3⟩])] := List.mem_cons_self
  exact ⟨_, hr, rfl, hmem, (hsections ".a" xs hmem).2.2.2, hone ".a" 8⟩

end LineAtlas.Matching.Problem
