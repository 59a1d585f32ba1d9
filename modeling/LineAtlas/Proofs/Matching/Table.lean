import LineAtlas.Proofs.Keyed
import LineAtlas.Proofs.LineSequence
import LineAtlas.Proofs.Matching.Candidates
import LineAtlas.Proofs.Matching.Interval

/-!
# Tables

Both ways to a table go over the sections in listing order. Candidates without a choice are sorted
by start; the placement of one interval after the other changes the intervals of one section at a
time, so what making room keeps holds of every section in the end. Where no two intervals of a
section overlap, both ways lead to the same table.
-/

namespace LineAtlas.Matching

def Table.Binds (t : Table) (i : Nat) (s : String) : Prop :=
  ∃ xs, (s, xs) ∈ t ∧ ∃ x ∈ xs, x.index = i

namespace Problem

variable (p : Problem)

/-! ## Tables by section -/

theorem keys_tableOf (intervals : String → List Interval) :
    Keyed.keys (p.tableOf intervals) =
      p.sections.eraseDups.filter fun s => !(intervals s).isEmpty := by
  rw [tableOf, Keyed.keys, List.map_filterMap, ← List.filterMap_eq_filter]
  apply List.filterMap_congr
  intro s _
  cases hs : intervals s <;> simp [hs, Option.guard]

theorem nodup_keys_tableOf (intervals : String → List Interval) :
    (Keyed.keys (p.tableOf intervals)).Nodup := by
  rw [p.keys_tableOf]
  exact (nodup_eraseDups _).filter _

@[simp]
theorem mem_tableOf {intervals : String → List Interval} {s : String} {xs : List Interval} :
    (s, xs) ∈ p.tableOf intervals ↔ s ∈ p.sections ∧ xs = intervals s ∧ xs ≠ [] := by
  simp only [tableOf, List.mem_filterMap, List.mem_eraseDups]
  constructor
  · rintro ⟨s', hs', h⟩
    split at h
    · cases h
    · rename_i hne
      cases h
      exact ⟨hs', rfl, hne⟩
  · rintro ⟨hs, rfl, hne⟩
    refine ⟨s, hs, ?_⟩
    split
    · rename_i hnil
      exact absurd hnil hne
    · rfl

theorem tableOf_congr {f g : String → List Interval} (h : ∀ s ∈ p.sections, f s = g s) :
    p.tableOf f = p.tableOf g := by
  apply List.filterMap_congr
  intro s hs
  rw [h s (List.mem_eraseDups.1 hs)]

/-! ## Sequences as intervals -/

theorem mem_places {c : Candidates} {x : Interval} {cs : List String} :
    (x, cs) ∈ p.places c ↔
      ∃ q, p.sequences[x.index]? = some q ∧ (c)[x.index]? = some cs ∧ x.span = q.span := by
  simp only [places, List.mem_map, Prod.exists, List.mk_mem_zipIdx_iff_getElem?,
    List.getElem?_zip_eq_some, Prod.mk.injEq]
  constructor
  · rintro ⟨q, cs, i, ⟨hq, hcs⟩, rfl, rfl⟩
    exact ⟨q, hq, hcs, rfl⟩
  · rintro ⟨q, hq, hcs, hspan⟩
    exact ⟨q, cs, x.index, ⟨hq, hcs⟩, by rw [← hspan], rfl⟩

theorem proper_of_mem_places {c : Candidates} {x : Interval} {cs : List String}
    (h : (x, cs) ∈ p.places c) : x.span.start ≤ x.span.stop := by
  obtain ⟨q, -, -, hspan⟩ := p.mem_places.1 h
  rw [hspan]
  exact q.span_start_le_stop

end Problem

def settledIn (places : List (Interval × List String)) (s : String) : List Interval :=
  places.filterMap fun (x, cs) => if cs = [s] then some x else none

theorem mem_settledIn {places : List (Interval × List String)} {s : String} {x : Interval} :
    x ∈ settledIn places s ↔ (x, [s]) ∈ places := by
  simp only [settledIn, List.mem_filterMap]
  constructor
  · rintro ⟨⟨y, cs⟩, hmem, h⟩
    split at h
    · rename_i hcs
      cases h
      rwa [← hcs]
    · cases h
  · intro h
    exact ⟨(x, [s]), h, by simp⟩

theorem settledIn_concat (places : List (Interval × List String)) (x : Interval)
    (cs : List String) (s : String) : settledIn (places ++ [(x, cs)]) s =
      if cs = [s] then settledIn places s ++ [x] else settledIn places s := by
  by_cases h : cs = [s] <;> simp [settledIn, h]

namespace Problem

variable (p : Problem)

theorem settled_eq (c : Candidates) (s : String) :
    p.settled c s = sortByStart (settledIn (p.places c) s) := rfl

theorem mem_settled {c : Candidates} {s : String} {x : Interval} :
    x ∈ p.settled c s ↔ (x, [s]) ∈ p.places c := by
  rw [settled_eq, mem_sortByStart, mem_settledIn]

theorem apart_settled {c : Candidates} {s : String} (h : neighboursApart (p.settled c s) = true) :
    Apart (p.settled c s) := by
  apply apart_of_neighboursApart _ (sorted_sortByStart _) h
  intro x hx
  exact p.proper_of_mem_places (p.mem_settled.1 hx)

theorem complete?_eq_some {c : Candidates} {t : Table} (h : p.complete? c = some t) :
    Unambiguous c ∧ (∀ s ∈ p.sections, Apart (p.settled c s)) ∧ t = p.tableOf (p.settled c) := by
  rw [complete?] at h
  split at h
  · rename_i hc
    rw [Bool.and_eq_true, List.all_eq_true, List.all_eq_true] at hc
    refine ⟨?_, ?_, (Option.some.inj h).symm⟩
    · rw [unambiguous_iff]
      intro cs hcs
      simpa using hc.1 cs hcs
    · intro s hs
      exact p.apart_settled (hc.2 s hs)
  · cases h

end Problem

/-! ## One interval after the other -/

namespace Placement

theorem intervals_put (reserved : Table) (s s' : String) (ys : List Interval)
    (rs : List Replacement) : intervals ⟨Keyed.put reserved s ys, rs⟩ s' =
      if s' = s then ys else intervals ⟨reserved, rs⟩ s' := by
  rw [intervals, Keyed.put, Keyed.get?_alter]
  by_cases h : s' = s <;> simp [intervals, h]

/-- The two ways in which an interval is placed: all its sections turn it down, or the first that
does not takes it. -/
theorem place_cases (r : Placement) (x : Interval) (ss : List String) :
    (r.place x ss = r ∧ ∀ s ∈ ss, makeRoom? x (r.intervals s) = none) ∨
      ∃ before s after ys old, ss = before ++ s :: after ∧
        (∀ s' ∈ before, makeRoom? x (r.intervals s') = none) ∧
        makeRoom? x (r.intervals s) = some (ys, old) ∧
        r.place x ss = ⟨Keyed.put r.reserved s ys,
          r.replacements ++ old.toList.map fun y => ⟨x.index, y.index, s⟩⟩ := by
  induction ss with
  | nil => exact .inl ⟨rfl, by simp⟩
  | cons s rest ih =>
      cases hm : makeRoom? x (r.intervals s) with
      | some taken =>
          obtain ⟨ys, old⟩ := taken
          exact .inr ⟨[], s, rest, ys, old, rfl, by simp, hm, by simp [place, hm]⟩
      | none =>
          have hplace : r.place x (s :: rest) = r.place x rest := by simp [place, hm]
          rcases ih with ⟨heq, hall⟩ | ⟨before, s', after, ys, old, rfl, hbefore, hm', heq⟩
          · refine .inl ⟨hplace.trans heq, ?_⟩
            intro s' hs'
            rcases List.mem_cons.1 hs' with rfl | hs'
            · exact hm
            · exact hall s' hs'
          · refine .inr ⟨s :: before, s', after, ys, old, rfl, ?_, hm', hplace.trans heq⟩
            intro s'' hs''
            rcases List.mem_cons.1 hs'' with rfl | hs''
            · exact hm
            · exact hbefore s'' hs''

theorem place_preserves {P : String → List Interval → Prop} (r : Placement) (x : Interval)
    (ss : List String) (h : ∀ s, P s (r.intervals s))
    (hroom : ∀ s ∈ ss, ∀ xs ys old, P s xs → makeRoom? x xs = some (ys, old) → P s ys)
    (s : String) : P s ((r.place x ss).intervals s) := by
  rcases r.place_cases x ss with ⟨heq, -⟩ | ⟨before, s', after, ys, old, rfl, -, hm, heq⟩
  · rw [heq]
    exact h s
  · rw [heq, intervals_put]
    split
    · rename_i hs
      subst s'
      exact hroom s (by simp) _ ys old (h s) hm
    · exact h s

theorem intervals_place_of_not_mem (r : Placement) (x : Interval) {ss : List String} {s : String}
    (hs : s ∉ ss) : (r.place x ss).intervals s = r.intervals s := by
  rcases r.place_cases x ss with ⟨heq, -⟩ | ⟨before, s', after, ys, old, rfl, -, -, heq⟩
  · rw [heq]
  · have hne : ¬ s = s' := fun h => hs (by simp [h])
    rw [heq, intervals_put, if_neg hne]
    rfl

end Placement

namespace Problem

variable (p : Problem)

theorem bestEffort_preserves {P : String → List Interval → Prop} (c : Candidates)
    (hnil : ∀ s, P s [])
    (hroom : ∀ x cs, (x, cs) ∈ p.places c → ∀ s ∈ cs, ∀ xs ys old, P s xs →
      makeRoom? x xs = some (ys, old) → P s ys) (s : String) :
    P s ((p.bestEffortPlacement c).intervals s) := by
  have hfold : ∀ places : List (Interval × List String), (∀ y ∈ places, y ∈ p.places c) →
      ∀ r : Placement, (∀ s, P s (r.intervals s)) →
        ∀ s, P s ((places.foldl (fun r (x, cs) => r.place x cs) r).intervals s) := by
    intro places
    induction places with
    | nil => exact fun _ _ h => h
    | cons y places ih =>
        intro hsub r h
        apply ih (fun z hz => hsub z (List.mem_cons_of_mem _ hz))
        exact r.place_preserves y.1 y.2 h (hroom y.1 y.2 (hsub y (by simp)))
  exact hfold _ (fun _ h => h) .empty hnil s

theorem apart_bestEffort (c : Candidates) (s : String) :
    Apart ((p.bestEffortPlacement c).intervals s) := by
  apply p.bestEffort_preserves (P := fun _ => Apart) c (fun _ => apart_nil)
  intro x cs hx s _ xs ys old hxs hm
  exact hxs.makeRoom? (p.proper_of_mem_places hx) hm

theorem mem_bestEffort {c : Candidates} {s : String} {x : Interval}
    (hx : x ∈ (p.bestEffortPlacement c).intervals s) : ∃ cs, (x, cs) ∈ p.places c ∧ s ∈ cs := by
  revert x
  apply p.bestEffort_preserves
    (P := fun s xs => ∀ {x}, x ∈ xs → ∃ cs, (x, cs) ∈ p.places c ∧ s ∈ cs) c (by simp)
  intro x cs hx s hs xs ys old hxs hm y hy
  rcases mem_of_makeRoom? hm hy with rfl | hy
  · exact ⟨cs, hx, hs⟩
  · exact hxs hy

end Problem

theorem intervals_foldl_place {places : List (Interval × List String)} {s : String}
    (hone : ∀ y ∈ places, y.2.length ≤ 1) (h : Apart (sortByStart (settledIn places s))) :
    (places.foldl (fun r (x, cs) => r.place x cs) Placement.empty).intervals s =
      sortByStart (settledIn places s) := by
  induction places using List.reverseRecOn with
  | nil => rfl
  | append_singleton places y ih =>
      obtain ⟨x, cs⟩ := y
      have hfront : ∀ y ∈ places, y.2.length ≤ 1 := fun y hy => hone y (by simp [hy])
      have hlen : cs.length ≤ 1 := hone (x, cs) (by simp)
      rw [settledIn_concat] at h ⊢
      rw [List.foldl_concat]
      generalize hr : places.foldl (fun r (x, cs) => r.place x cs) Placement.empty = r at ih ⊢
      by_cases hcs : cs = [s]
      · rw [if_pos hcs, sortByStart_concat] at h ⊢
        have hfree := h.free_of_insertByStart
        rw [← ih hfront (h.sublist (sublist_insertByStart x _))] at hfree ⊢
        subst hcs
        simp [Placement.place, makeRoom?_of_free hfree, Placement.intervals_put]
      · rw [if_neg hcs] at h ⊢
        rw [← ih hfront h]
        apply r.intervals_place_of_not_mem x
        intro hmem
        obtain ⟨s', rfl⟩ := List.length_eq_one_iff.1
          (Nat.le_antisymm hlen (List.length_pos_of_mem hmem))
        exact hcs (by rw [List.mem_singleton.1 hmem])

namespace Problem

variable (p : Problem)

theorem bestEffort_eq_of_complete? {c : Candidates} {t : Table} (h : p.complete? c = some t) :
    p.bestEffort c = t := by
  obtain ⟨hone, hapart, rfl⟩ := p.complete?_eq_some h
  apply p.tableOf_congr
  intro s hs
  apply intervals_foldl_place _ (hapart s hs)
  rintro ⟨x, cs⟩ hmem
  obtain ⟨q, -, hcs, -⟩ := p.mem_places.1 hmem
  exact unambiguous_iff.1 hone cs (List.mem_of_getElem? hcs)

end Problem

end LineAtlas.Matching
