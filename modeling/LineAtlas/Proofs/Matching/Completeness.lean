import LineAtlas.Proofs.Matching.Binding
import LineAtlas.Proofs.Matching.Checked.Tables
import Mathlib.Data.List.Pairwise

/-!
# Which candidates are complete

Only neighbours in order of start are compared before a table is built, and only on the sections that
have something placed on them. As no span ends before it starts, that settles it for all sequences of a
section: one whose span reaches over its neighbour to a later one overlaps the neighbour as well.
-/

namespace LineAtlas.Matching

/-- No two sequences that have the same section as their only candidate claim a common address. -/
def Problem.SpansApart (p : Problem) (c : Candidates) : Prop :=
  ∀ (i j : Nat) (q r : LineSequence) (s : String), i ≠ j → p.sequences[i]? = some q → p.sequences[j]? = some r →
    (c)[i]? = some [s] → (c)[j]? = some [s] → q.span.overlaps r.span = false

theorem settledIn_eq_map (places : List (Interval × List String)) (s : String) :
    settledIn places s = (places.filter (·.2 = [s])).map Prod.fst := by
  rw [settledIn, ← List.filterMap_eq_filter, List.map_filterMap]
  apply List.filterMap_congr
  rintro ⟨x, cs⟩ _
  by_cases h : cs = [s] <;> simp [Option.guard, h]

namespace Problem

variable {p : Problem} {c : Candidates}

theorem sound_iff : p.Sound c ↔ c.length = p.sequences.length ∧ ∀ y ∈ p.sequences.zip c,
    (y.2 ≠ [] → y.1.isEmpty = false) ∧ ∀ s ∈ y.2, s ∈ p.sections := by
  constructor
  · rintro h
    refine ⟨h.length_eq, ?_⟩
    rintro ⟨q, cs⟩ hmem
    obtain ⟨i, hi⟩ := List.mem_iff_getElem?.1 hmem
    obtain ⟨hq, hcs⟩ := List.getElem?_zip_eq_some.1 hi
    rw [← candidatesOf_of_getElem? hcs]
    exact ⟨h.notEmpty i q hq, h.listed i⟩
  · rintro ⟨hlen, hall⟩
    have hzip : ∀ i q cs, p.sequences[i]? = some q → (c)[i]? = some cs → (q, cs) ∈ p.sequences.zip c :=
      fun i q cs hq hcs => List.mem_of_getElem? (List.getElem?_zip_eq_some.2 ⟨hq, hcs⟩)
    refine ⟨hlen, ?_, ?_⟩
    · intro i q hq hne
      obtain ⟨s, hs⟩ := List.exists_mem_of_ne_nil _ hne
      exact (hall _ (hzip i q _ hq (getElem?_of_mem_candidatesOf hs))).1 hne
    · intro i s hs
      have hcs := getElem?_of_mem_candidatesOf hs
      have hi : i < p.sequences.length := hlen ▸ (List.getElem?_eq_some_iff.1 hcs).1
      exact (hall _ (hzip i _ _ (List.getElem?_eq_getElem hi) hcs)).2 s hs

instance : Decidable (p.Sound c) :=
  decidable_of_iff' _ sound_iff

/-! ## Sequences of a section -/

theorem nodup_settledIn (c : Candidates) (s : String) : (settledIn (p.places c) s).Nodup := by
  have hindices : ((p.places c).map (·.1.index)).Nodup := by
    rw [p.indices_places]
    exact List.nodup_range
  apply List.Nodup.of_map Interval.index
  rw [settledIn_eq_map, List.map_map]
  exact hindices.sublist (List.filter_sublist.map _)

/-- An interval stands for the sequence with its index, so different intervals stand for different
sequences. -/
theorem index_ne_of_mem_settledIn {s : String} {x y : Interval} (hx : x ∈ settledIn (p.places c) s)
    (hy : y ∈ settledIn (p.places c) s) (hne : x ≠ y) : x.index ≠ y.index := by
  obtain ⟨q, hq, -, hxq⟩ := p.mem_places.1 (mem_settledIn.1 hx)
  obtain ⟨r, hr, -, hyr⟩ := p.mem_places.1 (mem_settledIn.1 hy)
  intro hindex
  rw [hindex, hr] at hq
  obtain rfl : r = q := Option.some.inj hq
  apply hne
  cases x
  cases y
  simp_all

theorem spansApart_iff_pairwise : p.SpansApart c ↔
    ∀ s, (settledIn (p.places c) s).Pairwise fun x y => x.span.overlaps y.span = false := by
  constructor
  · intro h s
    apply (nodup_settledIn c s).pairwise_of_forall_ne
    intro x hx y hy hne
    obtain ⟨q, hq, hcx, hxq⟩ := p.mem_places.1 (mem_settledIn.1 hx)
    obtain ⟨r, hr, hcy, hyr⟩ := p.mem_places.1 (mem_settledIn.1 hy)
    rw [hxq, hyr]
    exact h _ _ q r s (index_ne_of_mem_settledIn hx hy hne) hq hr hcx hcy
  · intro h i j q r s hne hq hr hi hj
    have hx : ⟨q.span, i⟩ ∈ settledIn (p.places c) s :=
      mem_settledIn.2 (p.mem_places.2 ⟨q, hq, hi, rfl⟩)
    have hy : ⟨r.span, j⟩ ∈ settledIn (p.places c) s :=
      mem_settledIn.2 (p.mem_places.2 ⟨r, hr, hj, rfl⟩)
    have hsymm : Std.Symm fun x y : Interval => x.span.overlaps y.span = false :=
      ⟨fun x y hxy => by rwa [Span.overlaps_comm]⟩
    exact (h s).forall hx hy fun heq => hne (congrArg Interval.index heq)

theorem spansApart_iff_neighboursApart :
    p.SpansApart c ↔ ∀ s, neighboursApart (p.settled c s) = true := by
  rw [spansApart_iff_pairwise]
  apply forall_congr'
  intro s
  rw [settled_eq, neighboursApart_sortByStart_iff]
  intro x hx
  exact p.proper_of_mem_places (mem_settledIn.1 hx)

/-! ## The decision -/

/-- Nothing is placed outside of the listed sections, so these are the only ones to look at. -/
theorem isSome_complete?_iff (h : p.Sound c) : (p.complete? c).isSome = true ↔
    (∀ cs ∈ c, cs.length ≤ 1) ∧ p.SpansApart c := by
  have hsections : p.SpansApart c ↔ ∀ s ∈ p.sections, neighboursApart (p.settled c s) = true := by
    rw [spansApart_iff_neighboursApart]
    constructor
    · exact fun hall s _ => hall s
    · intro hall s
      by_cases hnil : p.settled c s = []
      · rw [hnil]
        rfl
      · exact hall s (Checked.mem_sections_of_settled h hnil)
  rw [hsections, complete?]
  split <;> simp_all

theorem settled_ne_nil_iff (h : p.Sound c) {s : String} : p.settled c s ≠ [] ↔ [s] ∈ c := by
  constructor
  · intro hne
    obtain ⟨x, hx⟩ := List.exists_mem_of_ne_nil _ hne
    obtain ⟨q, -, hcs, -⟩ := p.mem_places.1 (p.mem_settled.1 hx)
    exact List.mem_of_getElem? hcs
  · intro hmem
    obtain ⟨i, hcs⟩ := List.mem_iff_getElem?.1 hmem
    have hi : i < p.sequences.length := h.length_eq ▸ (List.getElem?_eq_some_iff.1 hcs).1
    have hx : ⟨p.sequences[i].span, i⟩ ∈ p.settled c s :=
      p.mem_settled.2 (p.mem_places.2 ⟨_, List.getElem?_eq_getElem hi, hcs, rfl⟩)
    exact List.ne_nil_of_mem hx

theorem get?_complete? (h : p.Sound c) {t : Table} (ht : p.complete? c = some t) (s : String) :
    Keyed.get? t s = if p.settled c s = [] then none else some (p.settled c s) := by
  obtain ⟨-, -, rfl⟩ := p.complete?_eq_some ht
  apply Option.ext
  intro xs
  rw [Keyed.get?_eq_some_iff (p.nodup_keys_tableOf _), mem_tableOf]
  by_cases hnil : p.settled c s = []
  · simp [hnil]
  · have hs := Checked.mem_sections_of_settled h hnil
    rw [if_neg hnil]
    grind

/-- Whether candidates leave a table is decided exactly, and with all that is looked up being there. There
is one if and only if no sequence has several candidates and no two sequences with the same single candidate
have spans that overlap. It goes over the sections in listing order, leaves out those that are nobody's
candidate, and has for each the intervals of just the sequences whose candidate it is, by start. -/
theorem complete?_decides (h : p.Sound c) :
    Checked.complete p c = some (p.complete? c) ∧
      ((p.complete? c).isSome = true ↔ (∀ cs ∈ c, cs.length ≤ 1) ∧ p.SpansApart c) ∧
      ∀ t, p.complete? c = some t →
        Keyed.keys t = p.sections.eraseDups.filter (fun s => [s] ∈ c) ∧
          ∀ s, ((Keyed.get? t s).getD []).Pairwise (fun x y => x.span.start < y.span.start) ∧
            ∀ x, x ∈ (Keyed.get? t s).getD [] ↔
              (c)[x.index]? = some [s] ∧ ∃ q, p.sequences[x.index]? = some q ∧ x.span = q.span := by
  refine ⟨Checked.complete_eq h, isSome_complete?_iff h, ?_⟩
  intro t ht
  have hget (s : String) : (Keyed.get? t s).getD [] = p.settled c s := by
    rw [get?_complete? h ht]
    split <;> simp_all
  refine ⟨?_, ?_⟩
  · obtain ⟨-, -, rfl⟩ := p.complete?_eq_some ht
    rw [p.keys_tableOf]
    apply List.filter_congr
    intro s _
    have hiff := settled_ne_nil_iff h (s := s)
    rw [← List.isEmpty_eq_false_iff] at hiff
    grind
  · intro s
    have hspans : p.SpansApart c := ((isSome_complete?_iff h).1 (by rw [ht]; rfl)).2
    have hapart : Apart (p.settled c s) := p.apart_settled (spansApart_iff_neighboursApart.1 hspans s)
    rw [hget]
    refine ⟨hapart.starts_increase, ?_⟩
    intro x
    rw [p.mem_settled, p.mem_places]
    grind

/-- Two sequences out of order, one that touches both of them, one that reaches over all, and one without
rows. -/
def tangled : Problem where
  listed := [".b", ".a"]
  code :=
    let run := [⟨0, "48 89 e5 c3", none⟩, ⟨4, "48 89 e5 c3", none⟩, ⟨8, "48 89 e5 c3", none⟩]
    [(".a", [("f", run)]), (".b", [("g", run)])]
  sequences :=
    [.ofList [(8, ⟨some "a.c", 1, 0, true, 0⟩), (12, ⟨some "a.c", 2, 0, true, 0⟩)],
      .ofList [(0, ⟨some "b.c", 1, 0, true, 0⟩), (4, ⟨some "b.c", 2, 0, true, 0⟩)],
      .ofList [(4, ⟨some "c.c", 1, 0, true, 0⟩), (8, ⟨some "c.c", 2, 0, true, 0⟩)],
      .ofList [(0, ⟨some "d.c", 1, 0, true, 0⟩), (12, ⟨some "d.c", 2, 0, true, 0⟩)],
      .empty]
  symbols := []
  declarations := []

theorem complete?_decides_tangled :
    let c := [[".a"], [".a"], [".b"], [], []]
    let touching := [[".a"], [".a"], [".a"], [".b"], []]
    let nested := [[".a"], [".b"], [], [".a"], []]
    (tangled.Sound c ∧ Checked.complete tangled c =
        some (some [(".b", [⟨⟨4, 8⟩, 2⟩]), (".a", [⟨⟨0, 4⟩, 1⟩, ⟨⟨8, 12⟩, 0⟩])]) ∧
        tangled.SpansApart c) ∧
      (tangled.Sound touching ∧ tangled.complete? touching = none) ∧
      tangled.Sound nested ∧ tangled.complete? nested = none := by
  intro c touching nested
  have hc : tangled.Sound c := by decide
  have htouching : tangled.Sound touching := by decide
  have hnested : tangled.Sound nested := by decide
  obtain ⟨hcomplete, hiff, -⟩ := complete?_decides hc
  refine ⟨⟨hc, ?_, (hiff.1 (by decide)).2⟩, ⟨htouching, ?_⟩, hnested, ?_⟩
  · rw [hcomplete]
    decide
  · rw [← Option.not_isSome_iff_eq_none, (complete?_decides htouching).2.1]
    rintro ⟨-, hapart⟩
    have hfree := hapart 0 2 _ _ ".a" (by decide) rfl rfl rfl rfl
    exact absurd hfree (by decide)
  · rw [← Option.not_isSome_iff_eq_none, (complete?_decides hnested).2.1]
    rintro ⟨-, hapart⟩
    have hfree := hapart 0 3 _ _ ".a" (by decide) rfl rfl rfl rfl
    exact absurd hfree (by decide)

end Problem

end LineAtlas.Matching
