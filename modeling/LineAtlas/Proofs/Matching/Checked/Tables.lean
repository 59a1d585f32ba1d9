import LineAtlas.Proofs.Matching.Checked.Filters
import LineAtlas.Proofs.Matching.Table

/-!
# Look-ups of the tables

The ranges of a section are kept by their first addresses, which is enough to tell them apart: they are the
intervals of the section, and no two of these overlap. So every range that stands in the way of another is
found, and so is every range that makes room. Where candidates are as the filters keep them, both ways to a
table have an answer, which is the table that they are meant to lead to.
-/

namespace LineAtlas.Matching.Checked

open Problem

variable {p : Problem} {c : Candidates}

/-! ## Candidates without a choice -/

theorem places_eq (h : p.Sound c) : places p c = some (p.places c) := by
  apply mapM_zipIdx_eq_map h
  intro i q cs hq _
  dsimp only
  rw [hq, spanAt_eq hq]
  rfl

theorem ordered_eq {placed : Keyed String (List Interval)} {f : String → List Interval}
    (h : ∀ s ∈ p.sections, placed.get? s = if f s = [] then none else some (f s)) :
    ordered p placed = p.tableOf f := by
  rw [ordered, tableOf]
  apply List.filterMap_congr
  intro s hs
  rw [h s (List.mem_eraseDups.1 hs)]
  cases f s <;> rfl

theorem gather_concat (places : List (Interval × List String)) (x : Interval) (cs : List String) :
    gather (places ++ [(x, cs)]) =
      match cs with
      | [s] => (gather places).alter s fun xs => xs.getD [] ++ [x]
      | _ => gather places := by
  rw [gather, List.foldl_concat]
  rfl

theorem get?_gather (places : List (Interval × List String)) (s : String) :
    (gather places).get? s = if settledIn places s = [] then none else some (settledIn places s) := by
  induction places using List.reverseRecOn with
  | nil => rfl
  | append_singleton places y ih =>
      obtain ⟨x, cs⟩ := y
      rw [gather_concat, settledIn_concat]
      rcases cs with - | ⟨s', - | ⟨t, rest⟩⟩
      · simpa using ih
      · by_cases hs : s = s'
        · subst hs
          by_cases hnil : settledIn places s = [] <;> simp [Keyed.get?_alter, ih, hnil]
        · simp [Keyed.get?_alter, ih, hs, Ne.symm hs]
      · simpa using ih

theorem nodup_keys_gather (places : List (Interval × List String)) :
    (gather places).keys.Nodup := by
  induction places using List.reverseRecOn with
  | nil => exact .nil
  | append_singleton places y ih =>
      obtain ⟨x, cs⟩ := y
      rw [gather_concat]
      split
      · exact Keyed.nodup_keys_alter ih _ _
      · exact ih

theorem get?_settled (c : Candidates) (s : String) : (settled (p.places c)).get? s =
    if p.settled c s = [] then none else some (p.settled c s) := by
  rw [settled, Keyed.get?_map, get?_gather, Problem.settled_eq]
  by_cases h : settledIn (p.places c) s = []
  · simp [h]
  · simp [h, sortByStart_eq_nil_iff]

theorem nodup_keys_settled (places : List (Interval × List String)) :
    (settled places).keys.Nodup := by
  have hkeys : (settled places).keys = (gather places).keys := by
    simp [settled, Keyed.keys, Function.comp_def]
  rw [hkeys]
  exact nodup_keys_gather places

theorem mem_settled_iff {s : String} {xs : List Interval} :
    (s, xs) ∈ settled (p.places c) ↔ xs = p.settled c s ∧ xs ≠ [] := by
  rw [← Keyed.get?_eq_some_iff (nodup_keys_settled _), get?_settled]
  by_cases h : p.settled c s = []
  · simp [h]
  · rw [if_neg h]
    grind

theorem mem_sections_of_settled (h : p.Sound c) {s : String} (hs : p.settled c s ≠ []) :
    s ∈ p.sections := by
  obtain ⟨x, hx⟩ := List.exists_mem_of_ne_nil _ hs
  obtain ⟨q, -, hcs, -⟩ := p.mem_places.1 (p.mem_settled.1 hx)
  apply h.listed x.index
  rw [candidatesOf_of_getElem? hcs]
  exact List.mem_singleton_self s

/-- All that is placed lies on listed sections, and on the others of these there is nothing to compare. -/
theorem all_settled_eq (h : p.Sound c) :
    ((settled (p.places c)).all fun t => neighboursApart t.2) =
      p.sections.all fun s => neighboursApart (p.settled c s) := by
  rw [Bool.eq_iff_iff, List.all_eq_true, List.all_eq_true]
  constructor
  · intro hall s hs
    by_cases hnil : p.settled c s = []
    · rw [hnil]
      rfl
    · exact hall (s, p.settled c s) (mem_settled_iff.2 ⟨rfl, hnil⟩)
  · rintro hall ⟨s, xs⟩ hmem
    obtain ⟨rfl, hne⟩ := mem_settled_iff.1 hmem
    exact hall s (mem_sections_of_settled h hne)

theorem map_snd_places (h : p.Sound c) : (p.places c).map Prod.snd = c := by
  apply List.ext_getElem (by simp [Problem.places, h.length_eq])
  intro i hi hi'
  simp [Problem.places]

theorem complete_eq (h : p.Sound c) : complete p c = some (p.complete? c) := by
  rw [complete, places_eq h, complete?, Option.bind_eq_bind, Option.bind_some,
    all_settled_eq h, ordered_eq fun s _ => get?_settled c s]
  have hone : ((p.places c).all fun y => y.2.length ≤ 1) = c.all fun cs => cs.length ≤ 1 := by
    conv_rhs => rw [← map_snd_places h, List.all_map]
    rfl
  rw [hone]
  cases c.all fun cs => cs.length ≤ 1 <;> rfl

/-! ## Ranges by their first addresses -/

def interval (t : Int × (Int × Nat)) : Interval :=
  ⟨⟨t.1, t.2.1⟩, t.2.2⟩

/-- Ranges stand for intervals that are apart, in whatever order. -/
structure Represents (ranges : Ranges) (xs : List Interval) : Prop where
  perm : (ranges.map interval).Perm xs
  apart : Apart xs

theorem keys_eq_map_interval (ranges : Ranges) :
    ranges.keys = (ranges.map interval).map (·.span.start) := by
  simp [Keyed.keys, interval, Function.comp_def]

theorem represents_nil : Represents [] [] :=
  ⟨.nil, apart_nil⟩

namespace Represents

variable {ranges : Ranges} {xs : List Interval} {x : Interval}

theorem keys_perm (h : Represents ranges xs) : ranges.keys.Perm (xs.map (·.span.start)) := by
  rw [keys_eq_map_interval]
  exact h.perm.map _

theorem nodup_keys (h : Represents ranges xs) : ranges.keys.Nodup := by
  rw [h.keys_perm.nodup_iff, List.Nodup, List.pairwise_map]
  exact h.apart.starts_increase.imp fun hlt => Int.ne_of_lt hlt

/-- Every interval is found at its first address. -/
theorem get?_start (h : Represents ranges xs) (hx : x ∈ xs) :
    ranges.get? x.span.start = some (x.span.stop, x.index) := by
  rw [Keyed.get?_eq_some_iff h.nodup_keys]
  obtain ⟨t, ht, rfl⟩ := List.mem_map.1 (h.perm.mem_iff.2 hx)
  exact ht

theorem starts_eq (h : Represents ranges xs) : starts ranges = xs.map (·.span.start) := by
  apply mergeSort_eq_of_perm h.keys_perm
  rw [List.pairwise_map]
  exact h.apart.starts_increase

/-- An interval that overlaps no other has a first address of its own. -/
theorem put (h : Represents ranges xs) (hx : x.span.start ≤ x.span.stop)
    (hfree : ∀ y ∈ xs, x.span.overlaps y.span = false) :
    Represents (ranges.put x.span.start (x.span.stop, x.index)) (insertByStart x xs) := by
  have hnew : x.span.start ∉ ranges.keys := by
    intro hmem
    obtain ⟨y, hy, hstart⟩ := List.mem_map.1 (h.keys_perm.mem_iff.1 hmem)
    have hproper := h.apart.proper y hy
    have hoverlaps : x.span.overlaps y.span = true := Span.overlaps_iff.2 (by omega)
    rw [hfree y hy] at hoverlaps
    cases hoverlaps
  refine ⟨?_, h.apart.insertByStart hx hfree⟩
  rw [Keyed.put_of_not_mem hnew, List.map_append]
  exact ((List.perm_append_singleton x _).trans (h.perm.cons x)).trans (insertByStart_perm x xs).symm

theorem takeOut (h : Represents ranges xs) (hx : x ∈ xs) :
    ∃ ranges', Checked.takeOut ranges x.span.start = some ranges' ∧
      Represents ranges' (xs.filter (· ≠ x)) := by
  refine ⟨ranges.filter (·.1 ≠ x.span.start), ?_, ?_, h.apart.sublist List.filter_sublist⟩
  · rw [Checked.takeOut, h.get?_start hx, Option.map_some]
  · have hkept : xs.filter (· ≠ x) = xs.filter (·.span.start ≠ x.span.start) := by
      apply List.filter_congr
      intro y hy
      have hiff : y = x ↔ y.span.start = x.span.start := by
        refine ⟨fun heq => by rw [heq], fun heq => ?_⟩
        have hyx := Span.contains_iff.2 ⟨Int.le_refl _, h.apart.proper y hy⟩
        have hxx := Span.contains_iff.2 ⟨Int.le_refl _, h.apart.proper x hx⟩
        exact h.apart.eq_of_contains hy hx hyx (heq ▸ hxx)
      simp [hiff]
    rw [hkept]
    have hfilter := h.perm.filter (·.span.start ≠ x.span.start)
    rwa [List.filter_map] at hfilter

/-- Room is made among ranges as it is among the intervals that they stand for. -/
theorem makeRoom (h : Represents ranges xs) (hx : x.span.start ≤ x.span.stop) :
    (makeRoom? x xs = none ∧ Checked.makeRoom x ranges = some none) ∨
      ∃ ys old ranges', makeRoom? x xs = some (ys, old) ∧
        Checked.makeRoom x ranges = some (some (ranges', old.map Interval.index)) ∧
        Represents ranges' ys := by
  have hconflicts : (starts ranges).filterM (conflicts x ranges) =
      some ((xs.filter fun y => x.span.overlaps y.span).map (·.span.start)) := by
    rw [h.starts_eq]
    apply filterM_map_eq_some
    intro y hy
    rw [conflicts, h.get?_start hy]
    rfl
  have hfree : ∀ y ∈ xs, y ∉ (xs.filter fun y => x.span.overlaps y.span) →
      x.span.overlaps y.span = false := by
    intro y hy hnot
    simpa [hy] using hnot
  have hin : ∀ y ∈ (xs.filter fun y => x.span.overlaps y.span), y ∈ xs :=
    fun y hy => (List.mem_filter.1 hy).1
  rw [makeRoom?, Checked.makeRoom, hconflicts, Option.bind_eq_bind, Option.bind_some]
  generalize xs.filter (fun y => x.span.overlaps y.span) = found at hfree hin ⊢
  rcases found with - | ⟨old, - | ⟨other, rest⟩⟩
  · refine .inr ⟨_, _, _, rfl, rfl, h.put hx ?_⟩
    intro y hy
    exact hfree y hy List.not_mem_nil
  · have hold : old ∈ xs := hin old List.mem_cons_self
    have hlength : old.span.stop - old.span.start = old.span.length := rfl
    simp only [List.map_cons, List.map_nil, h.get?_start hold, Option.bind_eq_bind, Option.bind_some,
      hlength]
    by_cases hshort : old.span.length < x.span.length
    · obtain ⟨ranges', htakeOut, hrest⟩ := h.takeOut hold
      rw [if_pos hshort, if_pos hshort, htakeOut]
      refine .inr ⟨_, _, _, rfl, rfl, hrest.put hx ?_⟩
      intro y hy
      obtain ⟨hy, hne⟩ := List.mem_filter.1 hy
      exact hfree y hy (mt List.mem_singleton.1 (of_decide_eq_true hne))
    · rw [if_neg hshort, if_neg hshort]
      exact .inl ⟨rfl, rfl⟩
  · exact .inl ⟨rfl, rfl⟩

/-- The ranges of a section are read as the intervals that they stand for. -/
theorem intervals (h : Represents ranges xs)
    (hindex : ∀ x ∈ xs, ∃ q, p.sequences[x.index]? = some q) : Checked.intervals p ranges = some xs := by
  rw [Checked.intervals, h.starts_eq]
  apply mapM_eq_some
  rw [List.forall₂_map_left_iff, List.forall₂_same]
  intro x hx
  obtain ⟨q, hq⟩ := hindex x hx
  rw [h.get?_start hx, Option.bind_eq_bind, Option.bind_some]
  simp only [hq]
  rfl

end Represents

/-! ## One range after the other -/

/-- A placement by first addresses has the same intervals on every section as another, and the same
replacements. -/
structure Follows (r : Placement) (r' : Matching.Placement) : Prop where
  nodup : r.reserved.keys.Nodup
  ranges : ∀ s, Represents ((r.reserved.get? s).getD []) (r'.intervals s)
  replacements : r.replacements = r'.replacements

theorem follows_empty : Follows .empty .empty :=
  ⟨.nil, fun _ => represents_nil, rfl⟩

namespace Follows

variable {r : Placement} {r' : Matching.Placement}

theorem place (h : Follows r r') {x : Interval} (hx : x.span.start ≤ x.span.stop) (ss : List String) :
    ∃ r₁, r.place x ss = some r₁ ∧ Follows r₁ (r'.place x ss) := by
  induction ss with
  | nil => exact ⟨r, rfl, h⟩
  | cons s rest ih =>
      rw [Placement.place, Matching.Placement.place]
      rcases (h.ranges s).makeRoom hx with ⟨hnone, hroom⟩ | ⟨ys, old, ranges, hsome, hroom, hranges⟩
      · rw [hnone, hroom]
        exact ih
      · rw [hsome, hroom]
        refine ⟨_, rfl, Keyed.nodup_keys_alter h.nodup _ _, ?_, ?_⟩
        · intro s'
          rw [Matching.Placement.intervals_put, Keyed.put, Keyed.get?_alter]
          by_cases hs : s' = s
          · rw [if_pos hs, if_pos hs]
            exact hranges
          · rw [if_neg hs, if_neg hs]
            exact h.ranges s'
        · cases old <;> simp [h.replacements]

theorem foldl (h : Follows r r') {places : List (Interval × List String)}
    (hproper : ∀ y ∈ places, y.1.span.start ≤ y.1.span.stop) :
    ∃ r₁, places.foldlM (fun r y => Placement.place r y.1 y.2) r = some r₁ ∧
      Follows r₁ (places.foldl (fun r (x, cs) => r.place x cs) r') := by
  induction places generalizing r r' with
  | nil => exact ⟨r, rfl, h⟩
  | cons y places ih =>
      obtain ⟨hy, hplaces⟩ := List.forall_mem_cons.1 hproper
      obtain ⟨r₁, hplace, h₁⟩ := h.place hy y.2
      rw [List.foldlM_cons, hplace]
      exact ih h₁ hplaces

/-- What is read of the sections of a placement. -/
theorem mapM_reserved (h : Follows r r')
    (hindex : ∀ s, ∀ x ∈ r'.intervals s, ∃ q, p.sequences[x.index]? = some q) :
    r.reserved.mapM (fun (s, ranges) => do return (s, ← intervals p ranges)) =
      some (Keyed.tabulate r.reserved.keys r'.intervals) := by
  rw [Keyed.tabulate, Keyed.keys, List.map_map]
  apply mapM_eq_some_map
  rintro ⟨s, ranges⟩ hmem
  have hrepresents := h.ranges s
  rw [(Keyed.get?_eq_some_iff h.nodup).2 hmem, Option.getD_some] at hrepresents
  simp only [hrepresents.intervals (hindex s)]
  rfl

/-- Nothing is placed on the sections that are not reserved. -/
theorem get?_placed (h : Follows r r') (s : String) :
    Keyed.get? ((Keyed.tabulate r.reserved.keys r'.intervals).filter fun t => !t.2.isEmpty) s =
      if r'.intervals s = [] then none else some (r'.intervals s) := by
  have hnot : s ∉ r.reserved.keys → r'.intervals s = [] := by
    intro hs
    have hperm := (h.ranges s).perm
    rw [Keyed.get?_eq_none hs] at hperm
    exact hperm.symm.eq_nil
  have hfilter : (Keyed.tabulate r.reserved.keys r'.intervals).filter (fun t => !t.2.isEmpty) =
      Keyed.tabulate (r.reserved.keys.filter fun s => !(r'.intervals s).isEmpty) r'.intervals := by
    rw [Keyed.tabulate, Keyed.tabulate, List.filter_map]
    rfl
  rw [hfilter, Keyed.get?_tabulate]
  grind

end Follows

theorem bestEffort_eq (h : p.Sound c) :
    bestEffort p c = some (p.bestEffort c, (p.bestEffortPlacement c).replacements) := by
  have hproper : ∀ y ∈ p.places c, y.1.span.start ≤ y.1.span.stop := by
    rintro ⟨x, cs⟩ hmem
    exact p.proper_of_mem_places hmem
  obtain ⟨r, hplaced, hfollows⟩ := follows_empty.foldl hproper
  have hindex : ∀ s, ∀ x ∈ (p.bestEffortPlacement c).intervals s,
      ∃ q, p.sequences[x.index]? = some q := by
    intro s x hx
    obtain ⟨cs, hmem, -⟩ := p.mem_bestEffort hx
    obtain ⟨q, hq, -⟩ := p.mem_places.1 hmem
    exact ⟨q, hq⟩
  rw [bestEffort, places_eq h, Option.bind_eq_bind, Option.bind_some, hplaced, Option.bind_eq_bind,
    Option.bind_some, hfollows.mapM_reserved hindex, Option.bind_eq_bind, Option.bind_some,
    ordered_eq fun s _ => hfollows.get?_placed s, hfollows.replacements]
  rfl

end LineAtlas.Matching.Checked
