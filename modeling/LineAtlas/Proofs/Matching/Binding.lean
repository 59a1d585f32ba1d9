import LineAtlas.Proofs.Matching.Repetition
import LineAtlas.Proofs.Matching.Run
import Mathlib.Data.List.Nodup

/-!
# Every sequence is accounted for

An interval is placed on one section only, and a later one can at most take its place. So a run binds
no sequence twice: each is a repetition, or bound by a single interval, or unmatched. The section a
run answers with for a sequence is that of the interval of its first occurrence.
-/

namespace LineAtlas.Matching

def Stage.upTo (stage : Stage) : List Stage :=
  Stage.filters.takeWhile (· ≠ stage) ++ [stage]

def Table.bound (t : Table) : List Nat :=
  t.flatMap fun (_, xs) => xs.map Interval.index

theorem Table.mem_bound {t : Table} {i : Nat} : i ∈ t.bound ↔ ∃ s, t.Binds i s := by
  simp only [Table.bound, Table.Binds, List.mem_flatMap, List.mem_map, Prod.exists]

/-- No two sections have intervals of the same sequence. -/
def BoundOnce (intervals : String → List Interval) : Prop :=
  ∀ s s', ∀ x ∈ intervals s, ∀ y ∈ intervals s', x.index = y.index → s = s'

namespace Placement

theorem mem_intervals_place {r : Placement} {x y : Interval} {ss : List String} {s : String}
    (hy : y ∈ (r.place x ss).intervals s) : y = x ∨ y ∈ r.intervals s := by
  revert y
  apply r.place_preserves (P := fun s xs => ∀ {y}, y ∈ xs → y = x ∨ y ∈ r.intervals s) x ss
  · exact fun _ _ hy => .inr hy
  · intro s _ xs ys old hxs hm y hy
    rcases mem_of_makeRoom? hm hy with rfl | hy
    · exact .inl rfl
    · exact hxs hy

theorem boundOnce_place {r : Placement} {x : Interval} (ss : List String)
    (h : BoundOnce r.intervals) (hnew : ∀ s, ∀ y ∈ r.intervals s, y.index ≠ x.index) :
    BoundOnce (r.place x ss).intervals := by
  rcases r.place_cases x ss with ⟨heq, -⟩ | ⟨before, t, after, ys, old, -, -, hm, heq⟩
  · rwa [heq]
  · have hmem : ∀ s, ∀ y ∈ (r.place x ss).intervals s, y = x ∧ s = t ∨ y ∈ r.intervals s := by
      intro s y hy
      rcases mem_intervals_place hy with rfl | hold
      · rw [heq, intervals_put] at hy
        split at hy
        · rename_i hs
          exact .inl ⟨rfl, hs⟩
        · exact .inr hy
      · exact .inr hold
    intro s s' y hy z hz hindex
    rcases hmem s y hy with ⟨hyx, hs⟩ | hold <;> rcases hmem s' z hz with ⟨hzx, hs'⟩ | hold'
    · rw [hs, hs']
    · exact absurd (hyx ▸ hindex.symm) (hnew s' z hold')
    · exact absurd (hzx ▸ hindex) (hnew s y hold)
    · exact h s s' y hold z hold' hindex

end Placement

/-- Placing one interval after the other, each of another sequence, binds none of them twice. -/
theorem boundOnce_foldl_place {places : List (Interval × List String)}
    (h : (places.map (·.1.index)).Nodup) :
    let r := places.foldl (fun r (x, cs) => r.place x cs) Placement.empty
    (∀ s, ∀ x ∈ r.intervals s, x.index ∈ places.map (·.1.index)) ∧ BoundOnce r.intervals := by
  induction places using List.reverseRecOn with
  | nil =>
      refine ⟨?_, ?_⟩
      · intro s x hx
        cases hx
      · intro s s' x hx
        cases hx
  | append_singleton places y ih =>
      obtain ⟨x, cs⟩ := y
      rw [List.map_append, List.nodup_append] at h
      obtain ⟨hplaces, -, hfresh⟩ := h
      obtain ⟨hindex, honce⟩ := ih hplaces
      rw [List.foldl_concat]
      refine ⟨?_, Placement.boundOnce_place cs honce ?_⟩
      · intro s y hy
        rw [List.map_append, List.mem_append]
        rcases Placement.mem_intervals_place hy with rfl | hy
        · exact .inr (List.mem_singleton_self _)
        · exact .inl (hindex s y hy)
      · intro s y hy
        exact hfresh _ (hindex s y hy) _ (List.mem_singleton_self _)

namespace Problem

variable (p : Problem)

theorem indices_places (c : Candidates) :
    (p.places c).map (·.1.index) = List.range (p.sequences.zip c).length := by
  rw [places, List.map_map, List.range_eq_range', ← List.zipIdx_map_snd]
  rfl

theorem boundOnce_bestEffort (c : Candidates) : BoundOnce (p.bestEffortPlacement c).intervals := by
  refine (boundOnce_foldl_place ?_).2
  rw [p.indices_places]
  exact List.nodup_range

theorem mem_unmatched {t : Table} {i : Nat} : i ∈ p.unmatched t ↔
    i < p.sequences.length ∧ i ∉ Keyed.keys p.duplicates ∧ i ∉ t.bound := by
  simp [unmatched, Table.bound]

theorem unmatched_increases (t : Table) : (p.unmatched t).Pairwise (· < ·) :=
  List.pairwise_lt_range.filter _

variable {p} {r : Result}

theorem eq_of_binds_run (hr : p.run = .ok r) {i : Nat} {s s' : String} (h : r.table.Binds i s)
    (h' : r.table.Binds i s') : s = s' := by
  rw [p.run_table_eq_bestEffort hr] at h h'
  obtain ⟨xs, hxs, x, hx, rfl⟩ := h
  obtain ⟨ys, hys, y, hy, hindex⟩ := h'
  obtain ⟨-, rfl, -⟩ := p.mem_tableOf.1 hxs
  obtain ⟨-, rfl, -⟩ := p.mem_tableOf.1 hys
  exact p.boundOnce_bestEffort _ s s' x hx y hy hindex.symm

theorem placeable_of_binds_run (hr : p.run = .ok r) {i : Nat} {s : String}
    (h : r.table.Binds i s) : ∃ q, p.Placeable i q := by
  obtain ⟨xs, hxs, x, hx, rfl⟩ := h
  obtain ⟨q, hplace, -⟩ := (mem_run_table hr hxs).2.2.2 x hx
  exact ⟨q, hplace⟩

theorem nodup_bound_run (hr : p.run = .ok r) : r.table.bound.Nodup := by
  rw [Table.bound, List.nodup_flatMap]
  refine ⟨?_, ?_⟩
  · rintro ⟨s, xs⟩ hxs
    obtain ⟨-, -, hapart, hplaced⟩ := mem_run_table hr hxs
    rw [List.nodup_iff_pairwise_ne, List.pairwise_map]
    apply hapart.starts_increase.imp_of_mem
    intro x y hx hy hlt hindex
    -- Intervals of one sequence would start at the same address.
    obtain ⟨q, hq, hspan, -⟩ := hplaced x hx
    obtain ⟨q', hq', hspan', -⟩ := hplaced y hy
    have hat : p.sequences[y.index]? = some q := hindex ▸ hq.getElem?
    obtain rfl : q = q' := Option.some.inj (hat.symm.trans hq'.getElem?)
    rw [hspan, hspan'] at hlt
    omega
  · have hkeys := nodup_keys_run_table hr
    rw [Keyed.keys, List.nodup_iff_pairwise_ne, List.pairwise_map] at hkeys
    apply hkeys.imp_of_mem
    rintro ⟨s, xs⟩ ⟨s', ys⟩ hxs hys hne i hi hi'
    obtain ⟨x, hx, hxi⟩ := List.mem_map.1 hi
    obtain ⟨y, hy, hyi⟩ := List.mem_map.1 hi'
    exact hne (eq_of_binds_run hr ⟨xs, hxs, x, hx, hxi⟩ ⟨ys, hys, y, hy, hyi⟩)

theorem count_bound_run (hr : p.run = .ok r) (i : Nat) :
    r.table.bound.count i = if i ∈ r.table.bound then 1 else 0 := by
  split
  · rename_i hmem
    exact List.count_eq_one_of_mem (nodup_bound_run hr) hmem
  · rename_i hnot
    exact List.count_eq_zero_of_not_mem hnot

/-! ## The section of a sequence -/

/-- A sequence is looked up at its first occurrence. -/
theorem getD_get?_duplicates {i j : Nat} {q : LineSequence} (hq : p.sequences[i]? = some q)
    (hj : p.IsFirst j q) : (Keyed.get? p.duplicates i).getD i = j := by
  cases hget : Keyed.get? p.duplicates i with
  | some k =>
      obtain ⟨r, hr, hk, -⟩ := get?_duplicates_eq_some_iff.1 hget
      obtain rfl : q = r := Option.some.inj (hq.symm.trans hr)
      exact hk.unique hj
  | none =>
      have hle := hj.before i hq
      by_contra hne
      have hlt : j < i := Nat.lt_of_le_of_ne hle fun e => hne e.symm
      have hsome := get?_duplicates_eq_some_iff.2 ⟨q, hq, hj, hlt⟩
      rw [hget] at hsome
      cases hsome

theorem sectionOf?_run_eq_some_iff (hr : p.run = .ok r) {i j : Nat}
    (hj : (Keyed.get? p.duplicates i).getD i = j) {s : String} :
    r.sectionOf? i = some s ↔ r.table.Binds j s := by
  have hsection : r.sectionOf? i =
      (r.table.find? fun (_, xs) => xs.any (·.index == j)).map Prod.fst := by
    rw [← hj, ← p.run_duplicates hr]
    rfl
  have hbinds : ∀ e, r.table.find? (fun (_, xs) => xs.any (·.index == j)) = some e →
      r.table.Binds j e.1 := by
    rintro ⟨s, xs⟩ hfind
    have hany := List.find?_some hfind
    obtain ⟨x, hx, hindex⟩ := List.any_eq_true.1 hany
    exact ⟨xs, List.mem_of_find?_eq_some hfind, x, hx, by simpa using hindex⟩
  rw [hsection, Option.map_eq_some_iff]
  constructor
  · rintro ⟨e, hfind, rfl⟩
    exact hbinds e hfind
  · intro h
    cases hfind : r.table.find? fun (_, xs) => xs.any (·.index == j) with
    | some e => exact ⟨e, rfl, eq_of_binds_run hr (hbinds e hfind) h⟩
    | none =>
        obtain ⟨xs, hxs, x, hx, rfl⟩ := h
        have hnot := List.find?_eq_none.1 hfind _ hxs
        exact absurd (List.any_eq_true.2 ⟨x, hx, by simp⟩) hnot

theorem sectionOf?_run_eq_none_iff (hr : p.run = .ok r) {i j : Nat}
    (hj : (Keyed.get? p.duplicates i).getD i = j) : r.sectionOf? i = none ↔ j ∉ r.table.bound := by
  rw [Table.mem_bound, Option.eq_none_iff_forall_ne_some]
  simp only [ne_eq, sectionOf?_run_eq_some_iff hr hj, not_exists]

/-! ## Where a run ends -/

/-- Stopping at a filter, a run has applied the filters up to that one. -/
theorem append_stage_eq_upTo {front rest : List Stage} {stage : Stage}
    (h : Stage.filters = front ++ stage :: rest) : front ++ [stage] = stage.upTo := by
  have hnodup : Stage.filters.Nodup := by decide
  rw [h, List.nodup_append] at hnodup
  have hfront : ∀ early ∈ front, decide (early ≠ stage) = true := by
    intro early hearly
    exact decide_eq_true (hnodup.2.2 early hearly stage List.mem_cons_self)
  rw [Stage.upTo, h, List.takeWhile_append_of_pos hfront, List.takeWhile_cons_of_neg (by simp),
    List.append_nil]

theorem run_table_eq_settled (hr : p.run = .ok r) (h : r.stage ≠ .bestEffort) :
    Unambiguous (p.after r.stage.upTo p.initial) ∧
      r.table = p.tableOf (p.settled (p.after r.stage.upTo p.initial)) := by
  rcases p.run_cases hr with ⟨front, stage, rest, hfilters, ht, hstage⟩ | ⟨hstage, -⟩
  · obtain ⟨hone, -, htable⟩ := p.complete?_eq_some ht
    rw [hstage, ← append_stage_eq_upTo hfilters]
    exact ⟨hone, htable⟩
  · exact absurd hstage h

/-- When the filters leave no choice, exactly the sequences with a candidate are bound. -/
theorem mem_bound_run_iff (hr : p.run = .ok r) (h : r.stage ≠ .bestEffort) (i : Nat) :
    i ∈ r.table.bound ↔ candidatesOf (p.after r.stage.upTo p.initial) i ≠ [] := by
  obtain ⟨hone, htable⟩ := run_table_eq_settled hr h
  generalize hc : p.after r.stage.upTo p.initial = c at hone htable ⊢
  have hlen : c.length = p.sequences.length := by
    rw [← hc]
    exact p.length_after p.length_initial _
  rw [htable, Table.mem_bound]
  constructor
  · rintro ⟨s, xs, hxs, x, hx, rfl⟩ hnil
    obtain ⟨-, rfl, -⟩ := p.mem_tableOf.1 hxs
    obtain ⟨-, -, hcs, -⟩ := p.mem_places.1 (p.mem_settled.1 hx)
    rw [candidatesOf_of_getElem? hcs] at hnil
    cases hnil
  · intro hne
    obtain ⟨s, hs⟩ := List.length_eq_one_iff.1
      (Nat.le_antisymm (hone i) (List.length_pos_iff.2 hne))
    have hmem : s ∈ candidatesOf c i := hs ▸ List.mem_singleton_self s
    have hcs := getElem?_of_mem_candidatesOf hmem
    obtain ⟨hlt, -⟩ := List.getElem?_eq_some_iff.1 hcs
    have hinit := (p.after_narrows p.length_initial r.stage.upTo).mem (hc ▸ hmem)
    have hx : (⟨p.sequences[i].span, i⟩ : Interval) ∈ p.settled c s :=
      p.mem_settled.2 (p.mem_places.2 ⟨p.sequences[i], by simp, hs ▸ hcs, rfl⟩)
    exact ⟨s, _, p.mem_tableOf.2 ⟨(p.mem_candidatesOf_initial.1 hinit).2, rfl,
      List.ne_nil_of_mem hx⟩, _, hx, rfl⟩

/-! ## All of them together -/

/-- The interval reaches from the least to the greatest address of its sequence and stays within the
section. -/
def Reaches (p : Problem) (x : Interval) (s : String) : Prop :=
  ∃ q e, p.sequences[x.index]? = some q ∧ p.extent? s = some e ∧
    x.span.start ∈ q.addresses ∧ x.span.stop ∈ q.addresses ∧
    (∀ a ∈ q.addresses, x.span.start ≤ a ∧ a ≤ x.span.stop) ∧
    e.low ≤ x.span.start ∧ x.span.stop ≤ e.high

theorem reaches_of_mem_run (hr : p.run = .ok r) {s : String} {xs : List Interval}
    (h : (s, xs) ∈ r.table) {x : Interval} (hx : x ∈ xs) : p.Reaches x s := by
  obtain ⟨q, hplace, hspan, hfits⟩ := (mem_run_table hr h).2.2.2 x hx
  obtain ⟨e, he, hcovers⟩ := (Option.any_eq_true _ _).1 hfits
  simp only [Extent.covers, Bool.and_eq_true, decide_eq_true_eq] at hcovers
  obtain ⟨hstart, hstop, hall⟩ := LineSequence.span_bounds hplace.notEmpty
  rw [← hspan] at hstart hstop hall hcovers
  exact ⟨q, e, hplace.getElem?, he, hstart, hstop, hall, hcovers⟩

/-- A sequence is a repetition, or bound by one interval, or unmatched, and only one of these. -/
theorem groups_of_lt (hr : p.run = .ok r) {i : Nat} (h : i < p.sequences.length) :
    i ∈ Keyed.keys r.duplicates ∧ r.table.bound.count i = 0 ∧ i ∉ r.unmatched ∨
      i ∉ Keyed.keys r.duplicates ∧ r.table.bound.count i = 1 ∧ i ∉ r.unmatched ∨
      i ∉ Keyed.keys r.duplicates ∧ r.table.bound.count i = 0 ∧ i ∈ r.unmatched := by
  rw [p.run_duplicates hr, p.run_unmatched hr, count_bound_run hr, p.mem_unmatched]
  by_cases hdup : i ∈ Keyed.keys p.duplicates
  · -- Only first occurrences are placed.
    have hnot : i ∉ r.table.bound := by
      intro hmem
      obtain ⟨s, hbinds⟩ := Table.mem_bound.1 hmem
      obtain ⟨q, hplace⟩ := placeable_of_binds_run hr hbinds
      exact hplace.notRepeated hdup
    exact .inl ⟨hdup, if_neg hnot, fun hmem => hmem.2.1 hdup⟩
  · by_cases hbound : i ∈ r.table.bound
    · exact .inr (.inl ⟨hdup, if_pos hbound, fun hmem => hmem.2.2 hbound⟩)
    · exact .inr (.inr ⟨hdup, if_neg hbound, h, hdup, hbound⟩)

/-- However a run ends, nothing is lost and nothing is bound twice. Every sequence is a repetition, or
bound by exactly one interval, which reaches over all its addresses and stays within its section, or
unmatched. When the filters left no choice, the unmatched are the sequences without a candidate. The
section of a sequence is that of the interval of its first occurrence, and there is none exactly when
that is unmatched. -/
theorem run_accounts (hr : p.run = .ok r) :
    let n := p.sequences.length
    (∀ i < n,
      i ∈ Keyed.keys r.duplicates ∧ r.table.bound.count i = 0 ∧ i ∉ r.unmatched ∨
        i ∉ Keyed.keys r.duplicates ∧ r.table.bound.count i = 1 ∧ i ∉ r.unmatched ∨
        i ∉ Keyed.keys r.duplicates ∧ r.table.bound.count i = 0 ∧ i ∈ r.unmatched) ∧
      r.unmatched.Pairwise (· < ·) ∧
      (∀ s xs, (s, xs) ∈ r.table → ∀ x ∈ xs, p.Reaches x s) ∧
      (r.stage ≠ .bestEffort → ∀ i, i ∈ r.unmatched ↔ i < n ∧ i ∉ Keyed.keys r.duplicates ∧
        candidatesOf (p.after r.stage.upTo p.initial) i = []) ∧
      (∀ i q j, p.sequences[i]? = some q → p.IsFirst j q →
        (∀ s, r.sectionOf? i = some s ↔ r.table.Binds j s) ∧
          (r.sectionOf? i = none ↔ j ∈ r.unmatched)) ∧
      ∀ i, n ≤ i → r.sectionOf? i = none := by
  intro n
  refine ⟨fun i hi => groups_of_lt hr hi, ?_, ?_, ?_, ?_, ?_⟩
  · rw [p.run_unmatched hr]
    exact p.unmatched_increases r.table
  · intro s xs hxs x hx
    exact reaches_of_mem_run hr hxs hx
  · intro hstage i
    have hbound := not_congr (mem_bound_run_iff hr hstage i)
    rw [ne_eq, not_not] at hbound
    rw [← hbound, p.run_unmatched hr, p.run_duplicates hr]
    exact p.mem_unmatched
  · intro i q j hq hj
    have hfirst := p.getD_get?_duplicates hq hj
    refine ⟨fun s => sectionOf?_run_eq_some_iff hr hfirst, ?_⟩
    rw [sectionOf?_run_eq_none_iff hr hfirst, p.run_unmatched hr]
    have hlt : j < n := (List.getElem?_eq_some_iff.1 hj.getElem?).1
    have hnotRepeated : j ∉ Keyed.keys p.duplicates := hj.not_mem_keys_duplicates
    exact ⟨fun hnot => p.mem_unmatched.2 ⟨hlt, hnotRepeated, hnot⟩, fun h => (p.mem_unmatched.1 h).2.2⟩
  · intro i hi
    have hget : (Keyed.get? p.duplicates i).getD i = i := by
      rw [get?_duplicates_eq_none hi, Option.getD_none]
    rw [sectionOf?_run_eq_none_iff hr hget]
    intro hmem
    obtain ⟨s, hbinds⟩ := Table.mem_bound.1 hmem
    obtain ⟨q, hplace⟩ := placeable_of_binds_run hr hbinds
    have := (List.getElem?_eq_some_iff.1 hplace.getElem?).1
    omega

theorem run_accounts_twoSections :
    ∃ r, twoSections.run = .ok r ∧ r.stage ≠ .bestEffort ∧
      twoSections.Reaches ⟨⟨0, 6⟩, 1⟩ ".text.startup" ∧
      r.table.Binds 0 ".text" ∧ r.sectionOf? 2 = some ".text" ∧ 3 ∈ r.unmatched ∧
      r.sectionOf? 3 = none ∧ r.sectionOf? 4 = none := by
  let r : Result := ⟨[(".text", [⟨⟨0, 11⟩, 0⟩]), (".text.startup", [⟨⟨0, 6⟩, 1⟩])], .overlap,
    [(2, 0)], [3], [], []⟩
  have hr : twoSections.run = .ok r := by decide
  have hstage : r.stage ≠ .bestEffort := by decide
  have hbinds : r.table.Binds 0 ".text" := ⟨[⟨⟨0, 11⟩, 0⟩], by decide, ⟨⟨0, 11⟩, 0⟩, by decide⟩
  have hrepeated : twoSections.IsFirst 0 twoSections.sequences[2] :=
    ⟨by decide, fun _ _ => Nat.zero_le _⟩
  have hempty : twoSections.IsFirst 3 .empty := by
    refine ⟨by decide, ?_⟩
    intro k hk
    by_contra hlt
    obtain rfl | rfl | rfl : k = 0 ∨ k = 1 ∨ k = 2 := by omega
    all_goals revert hk; decide
  obtain ⟨-, -, hreaches, hleft, hsection, hnone⟩ := run_accounts hr
  have hunmatched : 3 ∈ r.unmatched := (hleft hstage 3).2 ⟨by decide, by decide, by decide⟩
  refine ⟨r, hr, hstage, hreaches ".text.startup" [⟨⟨0, 6⟩, 1⟩] (by decide) _ (by decide), hbinds, ?_,
    hunmatched, ?_, hnone 4 (by decide)⟩
  · exact ((hsection 2 _ 0 (by decide) hrepeated).1 ".text").2 hbinds
  · exact (hsection 3 _ 3 (by decide) hempty).2.2 hunmatched

end Problem

end LineAtlas.Matching
