import LineAtlas.Proofs.Matching.Repetition
import LineAtlas.Proofs.Matching.Run

/-!
# Runs on renamed sequences

A filter looks at sequences and candidates but never at indices, and one without candidates counts
for nothing. So two problems that differ in their sequences only, and in which the same sequences
still have the same candidates under other indices, stay like that through every filter. The filters
leave no choice in one of them exactly when they do in the other, and then with the same table up to
the indices.
-/

namespace LineAtlas.Matching

abbrev Contender := (LineSequence × List String) × Nat

def Contender.renamed (f : Nat → Nat) (x : Contender) : Contender :=
  (x.1, f x.2)

def Contender.narrowed (g : LineSequence → List String → List String) (x : Contender) : Contender :=
  ((x.1.1, g x.1.1 x.1.2), x.2)

def Interval.renamed (f : Nat → Nat) (x : Interval) : Interval :=
  { x with index := f x.index }

def Table.renamed (f : Nat → Nat) (t : Table) : Table :=
  t.map fun (s, xs) => (s, xs.map (·.renamed f))

theorem Table.binds_renamed {f : Nat → Nat} {t : Table} {i : Nat} {s : String} :
    (t.renamed f).Binds i s ↔ ∃ j, f j = i ∧ t.Binds j s := by
  simp only [Table.Binds, Table.renamed, List.mem_map, Prod.exists, Prod.mk.injEq]
  constructor
  · rintro ⟨_, ⟨_, ys, hys, rfl, rfl⟩, _, hx, rfl⟩
    obtain ⟨y, hy, rfl⟩ := List.mem_map.1 hx
    exact ⟨y.index, rfl, ys, hys, y, hy, rfl⟩
  · rintro ⟨_, rfl, ys, hys, y, hy, rfl⟩
    exact ⟨_, ⟨s, ys, hys, rfl, rfl⟩, y.renamed f, List.mem_map_of_mem hy, rfl⟩

theorem Apart.renamed {xs : List Interval} (h : Apart xs) (f : Nat → Nat) :
    Apart (xs.map (·.renamed f)) := by
  refine ⟨?_, List.pairwise_map.2 h.before⟩
  intro x hx
  obtain ⟨y, hy, rfl⟩ := List.mem_map.1 hx
  exact h.proper y hy

namespace Problem

variable (p : Problem)

def withSequences (qs : List LineSequence) : Problem :=
  { p with sequences := qs }

theorem tableOf_renamed (f : Nat → Nat) (intervals : String → List Interval) :
    p.tableOf (fun s => (intervals s).map (·.renamed f)) = (p.tableOf intervals).renamed f := by
  rw [tableOf, Table.renamed, tableOf, List.map_filterMap]
  apply List.filterMap_congr
  intro s _
  cases intervals s <;> simp

def contenders (c : Candidates) : List Contender :=
  (p.sequences.zip c).zipIdx.filter (·.1.2 ≠ [])

theorem mem_contenders {c : Candidates} {q : LineSequence} {cs : List String} {i : Nat} :
    ((q, cs), i) ∈ p.contenders c ↔ p.sequences[i]? = some q ∧ (c)[i]? = some cs ∧ cs ≠ [] := by
  simp [contenders, List.mk_mem_zipIdx_iff_getElem?, List.getElem?_zip_eq_some, and_assoc]

theorem contenders_increase (c : Candidates) : (p.contenders c).Pairwise (·.2 < ·.2) :=
  (zipIdx_increases _).filter _

/-- What is picked from sequences with candidates is picked from the contenders. -/
theorem filterMap_contenders {pick : Contender → Option α} (h : ∀ q i, pick ((q, []), i) = none)
    (c : Candidates) :
    (p.contenders c).filterMap pick = (p.sequences.zip c).zipIdx.filterMap pick := by
  rw [contenders, List.filterMap_filter]
  apply List.filterMap_congr
  rintro ⟨⟨q, cs⟩, i⟩ _
  cases cs with
  | nil => simp [h]
  | cons s cs => simp

theorem contenders_narrow {f : LineSequence → List String → List String} (hf : ∀ q, f q [] = [])
    (c : Candidates) : p.contenders (p.narrow f c) =
      ((p.contenders c).map (·.narrowed f)).filter (·.1.2 ≠ []) := by
  have hzip : ∀ (qs : List LineSequence) (c : Candidates),
      qs.zip (List.zipWith f qs c) = (qs.zip c).map fun x => (x.1, f x.1 x.2) := by
    intro qs
    induction qs with
    | nil => simp
    | cons q qs ih =>
        intro c
        cases c with
        | nil => rfl
        | cons cs c => simp [ih]
  rw [contenders, contenders, narrow, hzip, List.zipIdx_map, List.filter_map, List.filter_map,
    List.filter_filter]
  change List.map (Contender.narrowed f) _ = _
  congr 1
  apply List.filter_congr
  rintro ⟨⟨q, cs⟩, i⟩ _
  cases cs with
  | nil => simp [hf]
  | cons s cs => simp [Contender.narrowed]

theorem narrow_eq_self_iff {f : LineSequence → List String → List String} (hf : ∀ q, f q [] = [])
    {d : Candidates} (hd : d.length = p.sequences.length) :
    p.narrow f d = d ↔ ∀ x ∈ p.contenders d, f x.1.1 x.1.2 = x.1.2 := by
  constructor
  · rintro h ⟨⟨q, cs⟩, i⟩ hx
    obtain ⟨hq, hcs, -⟩ := p.mem_contenders.1 hx
    have hi := p.candidatesOf_narrow hf d hq
    rw [h, candidatesOf_of_getElem? hcs] at hi
    exact hi.symm
  · intro h
    apply List.ext_getElem (p.length_narrow f hd)
    intro i h₁ h₂
    simp only [narrow, List.getElem_zipWith]
    by_cases hnil : d[i] = []
    · rw [hnil, hf]
    · exact h ((p.sequences[i], d[i]), i) (p.mem_contenders.2 ⟨by simp, by simp, hnil⟩)

theorem reservations_eq (c : Candidates) : p.reservations c =
    (p.contenders c).filterMap fun x =>
      match x.1.2 with
      | [s] => some (s, x.1.1.span)
      | _ => none := by
  rw [p.filterMap_contenders (fun _ _ => rfl), reservations]
  conv_lhs => rw [← List.zipIdx_map_fst 0 (p.sequences.zip c), List.filterMap_map]
  rfl

theorem settledIn_places_eq (c : Candidates) (s : String) : settledIn (p.places c) s =
    (p.contenders c).filterMap fun x =>
      if x.1.2 = [s] then some ⟨x.1.1.span, x.2⟩ else none := by
  rw [p.filterMap_contenders (fun _ _ => by simp), settledIn, places, List.filterMap_map]
  rfl

theorem flatten_contenders {c : Candidates} (hc : c.length = p.sequences.length) :
    ((p.contenders c).map (·.1.2)).flatten = c.flatten := by
  have hsnd : c = ((p.sequences.zip c).zipIdx.map Prod.fst).map Prod.snd := by
    rw [List.zipIdx_map_fst, List.map_snd_zip (by omega)]
  conv_rhs => rw [hsnd, List.map_map, ← List.flatten_filter_ne_nil, List.filter_map]
  rfl

theorem unambiguous_iff_contenders {d : Candidates} (hd : d.length = p.sequences.length) :
    Unambiguous d ↔ ∀ x ∈ p.contenders d, x.1.2.length ≤ 1 := by
  rw [unambiguous_iff]
  constructor
  · rintro h ⟨⟨q, cs⟩, i⟩ hx
    exact h cs (List.mem_of_getElem? (p.mem_contenders.1 hx).2.1)
  · intro h cs hcs
    obtain ⟨i, hi, rfl⟩ := List.getElem_of_mem hcs
    by_cases hnil : d[i] = []
    · simp [hnil]
    · exact h ((p.sequences[i], d[i]), i) (p.mem_contenders.2 ⟨by simp, by simp, hnil⟩)

end Problem

/-- The contenders of one problem are those of the other, for the sequences `qs`, under new indices. -/
structure Renames (p : Problem) (qs : List LineSequence) (f : Nat → Nat) (c' c : Candidates) :
    Prop where
  length' : c'.length = qs.length
  length : c.length = p.sequences.length
  contenders : (p.contenders c).Perm (((p.withSequences qs).contenders c').map (·.renamed f))

namespace Problem

variable {p : Problem}

theorem getElem?_initial {i : Nat} {q : LineSequence} (hq : p.sequences[i]? = some q) :
    p.initial[i]? = some (if (p.firstEqual? i q).isSome || q.isEmpty then [] else p.sections) := by
  simp [initial, hq]

theorem mem_contenders_initial {q : LineSequence} {cs : List String} {i : Nat} :
    ((q, cs), i) ∈ p.contenders p.initial ↔ p.Placeable i q ∧ cs = p.sections ∧ cs ≠ [] := by
  rw [p.mem_contenders]
  constructor
  · rintro ⟨hq, hcs, hne⟩
    rw [getElem?_initial hq, Option.some.injEq] at hcs
    split at hcs
    · exact absurd hcs.symm hne
    · rename_i hplace
      exact ⟨(p.placeable_iff hq).2 (by simpa using hplace), hcs.symm, hne⟩
  · rintro ⟨hplace, rfl, hne⟩
    refine ⟨hplace.getElem?, ?_, hne⟩
    rw [getElem?_initial hplace.getElem?, (p.placeable_iff hplace.getElem?).1 hplace]
    rfl

/-- A run begins alike when the same sequences are to be placed. -/
theorem renames_initial {qs : List LineSequence} {f : Nat → Nat}
    (hmap : ∀ j q, (p.withSequences qs).Placeable j q → p.Placeable (f j) q)
    (honto : ∀ i q, p.Placeable i q → ∃ j, (p.withSequences qs).Placeable j q) :
    Renames p qs f (p.withSequences qs).initial p.initial := by
  refine ⟨(p.withSequences qs).length_initial, p.length_initial, ?_⟩
  have hnodup : (p.contenders p.initial).Nodup := by
    apply (p.contenders_increase _).imp
    rintro x _ hlt rfl
    exact Nat.lt_irrefl _ hlt
  have hnodup' : (((p.withSequences qs).contenders (p.withSequences qs).initial).map
      (·.renamed f)).Nodup := by
    rw [List.nodup_iff_pairwise_ne, List.pairwise_map]
    apply ((p.withSequences qs).contenders_increase _).imp_of_mem
    rintro ⟨⟨q, cs⟩, j⟩ ⟨⟨r, ds⟩, k⟩ hx hy hlt heq
    -- Only one index of a sequence is to be placed.
    obtain rfl : q = r := congrArg (·.1.1) heq
    have hj := (mem_contenders_initial.1 hx).1
    have hk := (mem_contenders_initial.1 hy).1
    exact Nat.ne_of_lt hlt (hj.unique hk)
  rw [List.perm_ext_iff_of_nodup hnodup hnodup']
  rintro ⟨⟨q, cs⟩, i⟩
  rw [mem_contenders_initial, List.mem_map]
  constructor
  · rintro ⟨hplace, hcs, hne⟩
    obtain ⟨j, hj⟩ := honto i q hplace
    refine ⟨((q, cs), j), mem_contenders_initial.2 ⟨hj, hcs, hne⟩, ?_⟩
    rw [Contender.renamed, hplace.unique (hmap j q hj)]
  · rintro ⟨⟨⟨r, ds⟩, j⟩, hmem, heq⟩
    cases heq
    obtain ⟨hj, hds, hne⟩ := mem_contenders_initial.1 hmem
    exact ⟨hmap j q hj, hds, hne⟩

end Problem

namespace Renames

open Problem

variable {p : Problem} {qs : List LineSequence} {f : Nat → Nat} {c' c : Candidates}
  (h : Renames p qs f c' c)
include h

/-! ## Filters -/

theorem forall_contenders {P : LineSequence → List String → Prop} :
    (∀ x ∈ p.contenders c, P x.1.1 x.1.2) ↔
      ∀ x ∈ (p.withSequences qs).contenders c', P x.1.1 x.1.2 := by
  simp only [h.contenders.mem_iff, List.mem_map, forall_exists_index, and_imp,
    forall_apply_eq_imp_iff₂, Contender.renamed]

theorem narrow {g : LineSequence → List String → List String} (hg : ∀ q, g q [] = []) :
    Renames p qs f ((p.withSequences qs).narrow g c') (p.narrow g c) := by
  refine ⟨((p.withSequences qs).length_narrow g h.length').trans h.length',
    (p.length_narrow g h.length).trans h.length, ?_⟩
  have hcommute : ∀ xs : List Contender,
      ((xs.map (·.renamed f)).map (·.narrowed g)).filter (·.1.2 ≠ []) =
        ((xs.map (·.narrowed g)).filter (·.1.2 ≠ [])).map (·.renamed f) := by
    intro xs
    simp only [List.filter_map, List.map_map]
    rfl
  rw [p.contenders_narrow hg, (p.withSequences qs).contenders_narrow hg, ← hcommute]
  exact (h.contenders.map (·.narrowed g)).filter _

theorem isFree_eq : isFree ((p.withSequences qs).reservations c') = isFree (p.reservations c) := by
  have hperm : (p.reservations c).Perm ((p.withSequences qs).reservations c') := by
    rw [p.reservations_eq, (p.withSequences qs).reservations_eq]
    have hmap := h.contenders.filterMap fun x =>
      match x.1.2 with
      | [s] => some (s, x.1.1.span)
      | _ => none
    rwa [List.filterMap_map] at hmap
  funext q s
  rw [isFree, isFree, hperm.any_eq]

theorem exclude : Renames p qs f ((p.withSequences qs).exclude c') (p.exclude c) := by
  rw [Problem.exclude, Problem.exclude, h.isFree_eq]
  exact h.narrow fun _ => whenAmbiguous_nil _

theorem exclude_eq_self_iff : (p.withSequences qs).exclude c' = c' ↔ p.exclude c = c := by
  rw [Problem.exclude, Problem.exclude, h.isFree_eq,
    narrow_eq_self_iff _ (fun _ => whenAmbiguous_nil _) h.length',
    narrow_eq_self_iff _ (fun _ => whenAmbiguous_nil _) h.length]
  exact (h.forall_contenders (P := fun q cs =>
    whenAmbiguous (List.filter (isFree (p.reservations c) q)) cs = cs)).symm

theorem settle (n : Nat) : Renames p qs f ((p.withSequences qs).settle n c') (p.settle n c) := by
  induction n generalizing c' c with
  | zero => exact h
  | succ n ih =>
      rw [settle_succ, settle_succ]
      by_cases hself : p.exclude c = c
      · rwa [if_pos hself, if_pos (h.exclude_eq_self_iff.2 hself)]
      · rw [if_neg hself, if_neg (mt h.exclude_eq_self_iff.1 hself)]
        exact ih h.exclude

theorem filterByOverlap :
    Renames p qs f ((p.withSequences qs).filterByOverlap c') (p.filterByOverlap c) := by
  have hrounds : c.flatten.length = c'.flatten.length := by
    rw [← p.flatten_contenders h.length, ← (p.withSequences qs).flatten_contenders h.length']
    have hperm := (h.contenders.map (·.1.2)).flatten
    rw [List.map_map] at hperm
    exact hperm.length_eq
  rw [Problem.filterByOverlap, Problem.filterByOverlap, hrounds]
  exact h.settle _

theorem filter (stage : Stage) :
    Renames p qs f ((p.withSequences qs).filter c' stage) (p.filter c stage) := by
  cases stage with
  | size => exact h.narrow fun _ => rfl
  | overlap => exact h.filterByOverlap
  | alignment => exact h.narrow fun _ => whenAmbiguous_nil _
  | symbol => exact h.narrow fun _ => whenAmbiguous_nil _
  | symbolOverlap => exact h.filterByOverlap
  | bestEffort => exact h

theorem after (stages : List Stage) :
    Renames p qs f ((p.withSequences qs).after stages c') (p.after stages c) := by
  induction stages generalizing c' c with
  | nil => exact h
  | cons stage rest ih => exact ih (h.filter stage)

/-! ## Tables -/

theorem settledIn_perm (s : String) : (settledIn (p.places c) s).Perm
    ((settledIn ((p.withSequences qs).places c') s).map (·.renamed f)) := by
  rw [p.settledIn_places_eq, (p.withSequences qs).settledIn_places_eq, List.map_filterMap]
  have hpick := h.contenders.filterMap fun x =>
    if x.1.2 = [s] then some (⟨x.1.1.span, x.2⟩ : Interval) else none
  rw [List.filterMap_map] at hpick
  refine hpick.trans (List.Perm.of_eq (List.filterMap_congr ?_))
  rintro ⟨⟨q, cs⟩, i⟩ _
  by_cases hcs : cs = [s] <;> simp [Contender.renamed, Interval.renamed, hcs]

theorem neighboursApart_settled (s : String) :
    neighboursApart (p.settled c s) = neighboursApart ((p.withSequences qs).settled c' s) := by
  have hproper : ∀ (r : Problem) (c : Candidates), ∀ x ∈ settledIn (r.places c) s,
      x.span.start ≤ x.span.stop := by
    intro r c x hx
    exact r.proper_of_mem_places (mem_settledIn.1 hx)
  have hsymm : ∀ {x y : Interval}, x.span.overlaps y.span = false → y.span.overlaps x.span = false := by
    intro x y hxy
    rwa [Span.overlaps_comm]
  rw [Bool.eq_iff_iff, settled_eq, settled_eq, neighboursApart_sortByStart_iff (hproper p c),
    neighboursApart_sortByStart_iff (hproper (p.withSequences qs) c'),
    (h.settledIn_perm s).pairwise_iff hsymm, List.pairwise_map]
  rfl

theorem settled_eq {s : String} (hc : Apart (p.settled c s))
    (hc' : Apart ((p.withSequences qs).settled c' s)) :
    p.settled c s = ((p.withSequences qs).settled c' s).map (·.renamed f) := by
  apply hc.eq_of_perm (hc'.renamed f)
  rw [Problem.settled_eq, Problem.settled_eq]
  exact ((sortByStart_perm _).trans (h.settledIn_perm s)).trans ((sortByStart_perm _).map _).symm

theorem unambiguous_iff : Unambiguous c ↔ Unambiguous c' := by
  rw [p.unambiguous_iff_contenders h.length, (p.withSequences qs).unambiguous_iff_contenders h.length']
  exact h.forall_contenders (P := fun _ cs => cs.length ≤ 1)

/-- The filters leave no choice in both problems or in neither, and the same table. -/
theorem complete?_eq :
    p.complete? c = ((p.withSequences qs).complete? c').map (Table.renamed f) := by
  have hone : c.all (fun cs => cs.length ≤ 1) = c'.all fun cs => cs.length ≤ 1 := by
    rw [Bool.eq_iff_iff, List.all_eq_true, List.all_eq_true]
    simpa only [decide_eq_true_eq, Matching.unambiguous_iff] using h.unambiguous_iff
  have hapart : (p.sections.all fun s => neighboursApart (p.settled c s)) =
      (p.withSequences qs).sections.all fun s =>
        neighboursApart ((p.withSequences qs).settled c' s) := by
    simp only [h.neighboursApart_settled]
    rfl
  rw [Problem.complete?, Problem.complete?, hone, hapart]
  split
  · rename_i hall
    rw [Bool.and_eq_true, List.all_eq_true] at hall
    rw [Option.map_some, Option.some.injEq, ← tableOf_renamed]
    apply p.tableOf_congr
    intro s hs
    have hs' := List.all_eq_true.1 hall.2 s hs
    exact h.settled_eq (p.apart_settled ((h.neighboursApart_settled s).trans hs'))
      ((p.withSequences qs).apart_settled hs')
  · rfl

end Renames

/-! ## Evidence -/

theorem eq_of_mean_eq_error {xs : List Nat} {f : Fault} (h : mean xs = .error f) :
    f = .quotientTooLarge := by
  rw [mean] at h
  generalize Binary64.ofQuotient? _ xs.length = x at h
  cases x with
  | none => exact (Except.error.inj h).symm
  | some x => cases h

theorem eq_of_mapM_mean_eq_error {xs : List (List Nat)} {f : Fault} (h : xs.mapM mean = .error f) :
    f = .quotientTooLarge :=
  mapM_error_unique (fun _ _ => eq_of_mean_eq_error) h

theorem eq_of_means_eq_error {t : Keyed String (List (List Nat))} {f : Fault}
    (h : Keyed.traverse (List.mapM mean) t = .error f) : f = .quotientTooLarge := by
  obtain ⟨x, -, hx⟩ := (Keyed.traverse_eq_error_iff fun _ _ => eq_of_mapM_mean_eq_error).1 h
  exact eq_of_mapM_mean_eq_error hx

namespace Problem

variable (p : Problem)

def distancesOf (x : Contender) : Option (Nat × Keyed String (List (List Nat))) :=
  if x.1.2.length ≤ 1 then none
  else
    match (x.1.2.filter (p.corroborates x.1.1)).eraseDups with
    | [] => none
    | kept => some (x.2, kept.map fun s => (s, p.symbolDistances x.1.1 s))

theorem distances_eq (c : Candidates) : p.distances c = (p.contenders c).filterMap p.distancesOf := by
  rw [p.filterMap_contenders (fun _ _ => rfl)]
  rfl

theorem distancesOf_renamed (f : Nat → Nat) (x : Contender) :
    p.distancesOf (x.renamed f) = (p.distancesOf x).map fun e => (f e.1, e.2) := by
  obtain ⟨⟨q, cs⟩, i⟩ := x
  change p.distancesOf ((q, cs), f i) = _
  by_cases hone : cs.length ≤ 1
  · simp [distancesOf, hone]
  · simp only [distancesOf, if_neg hone]
    cases (cs.filter (p.corroborates q)).eraseDups <;> rfl

theorem evidence_eq_error_iff {c : Candidates} {f : Fault} : p.evidence c = .error f ↔
    ∃ x ∈ p.contenders c, ∃ e, p.distancesOf x = some e ∧
      Keyed.traverse (List.mapM mean) e.2 = .error f := by
  rw [evidence, Keyed.traverse_eq_error_iff fun _ _ => eq_of_means_eq_error, p.distances_eq]
  simp only [List.mem_filterMap]
  constructor
  · rintro ⟨e, ⟨x, hx, he⟩, hf⟩
    exact ⟨x, hx, e, he, hf⟩
  · rintro ⟨x, hx, e, he, hf⟩
    exact ⟨e, ⟨x, hx, he⟩, hf⟩

end Problem

namespace Renames

open Problem

variable {p : Problem} {qs : List LineSequence} {f : Nat → Nat} {c' c : Candidates}
  (h : Renames p qs f c' c)
include h

/-- The same means are looked for, in whatever order. -/
theorem evidence_eq_error_iff {fault : Fault} :
    p.evidence c = .error fault ↔ (p.withSequences qs).evidence c' = .error fault := by
  have hsame : ∀ x, (∃ e, p.distancesOf (x.renamed f) = some e ∧
      Keyed.traverse (List.mapM mean) e.2 = .error fault) ↔
      ∃ e, (p.withSequences qs).distancesOf x = some e ∧
        Keyed.traverse (List.mapM mean) e.2 = .error fault := by
    intro x
    have hx : p.distancesOf (x.renamed f) =
        ((p.withSequences qs).distancesOf x).map fun e => (f e.1, e.2) := p.distancesOf_renamed f x
    rw [hx]
    cases (p.withSequences qs).distancesOf x <;> simp
  rw [p.evidence_eq_error_iff, (p.withSequences qs).evidence_eq_error_iff]
  simp only [h.contenders.mem_iff, List.mem_map]
  constructor
  · rintro ⟨_, ⟨x, hx, rfl⟩, he⟩
    exact ⟨x, hx, (hsame x).1 he⟩
  · rintro ⟨x, hx, he⟩
    exact ⟨_, ⟨x, hx, rfl⟩, (hsame x).2 he⟩

theorem evidenceAt_eq_error_iff (stage : Stage) {fault : Fault} :
    p.evidenceAt c stage = .error fault ↔
      (p.withSequences qs).evidenceAt c' stage = .error fault := by
  cases stage with
  | symbol => exact h.evidence_eq_error_iff
  | _ => exact Iff.rfl

/-! ## Runs -/

/-- Both runs are at fault, or both end at the same stage, and where the filters left no choice with the
same table. -/
theorem runFilters (stages : List Stage) (found' found : Evidence) :
    (p.runFilters stages c found).map Outcome.stage =
        ((p.withSequences qs).runFilters stages c' found').map Outcome.stage ∧
      ∀ o o', p.runFilters stages c found = .ok o →
        (p.withSequences qs).runFilters stages c' found' = .ok o' → o.stage ≠ .bestEffort →
          o.table = o'.table.renamed f := by
  induction stages generalizing c' c found' found with
  | nil =>
      refine ⟨rfl, ?_⟩
      rintro o o' ho - hstage
      cases ho
      exact absurd rfl hstage
  | cons stage rest ih =>
      have hnext := h.filter stage
      have hcomplete := hnext.complete?_eq
      have hfault (f : Fault) : p.evidenceAt c stage = .error f ↔
          (p.withSequences qs).evidenceAt c' stage = .error f := h.evidenceAt_eq_error_iff stage
      rw [Problem.runFilters, Problem.runFilters]
      cases hat : p.evidenceAt c stage with
      | error fault =>
          rw [(hfault fault).1 hat]
          refine ⟨rfl, ?_⟩
          intro o o' ho
          cases ho
      | ok more =>
          cases hat' : (p.withSequences qs).evidenceAt c' stage with
          | error fault => rw [(hfault fault).2 hat'] at hat; cases hat
          | ok more' =>
              simp only [bind, Except.bind]
              cases hc' : (p.withSequences qs).complete? ((p.withSequences qs).filter c' stage) with
              | some t =>
                  rw [hc'] at hcomplete
                  simp only [hcomplete, Option.map_some]
                  refine ⟨rfl, ?_⟩
                  rintro o o' ho ho' -
                  cases ho
                  cases ho'
                  rfl
              | none =>
                  rw [hc'] at hcomplete
                  simp only [hcomplete, Option.map_none]
                  exact ih hnext _ _

end Renames

namespace Renames

open Problem

variable {p : Problem} {qs : List LineSequence} {f : Nat → Nat}
  (h : Renames p qs f (p.withSequences qs).initial p.initial)
include h

theorem run_stage : p.run.map Result.stage = (p.withSequences qs).run.map Result.stage := by
  have hstage : ∀ p : Problem, p.run.map Result.stage =
      (p.runFilters Stage.filters p.initial []).map Outcome.stage := by
    intro p
    rw [run]
    cases p.runFilters Stage.filters p.initial [] <;> rfl
  rw [hstage, hstage]
  exact (h.runFilters Stage.filters [] []).1

theorem run_table {r r' : Result} (hr : p.run = .ok r) (hr' : (p.withSequences qs).run = .ok r')
    (hstage : r.stage ≠ .bestEffort) : r.table = r'.table.renamed f := by
  obtain ⟨o, ho, heq⟩ := Except.bind_eq_ok_iff.1 hr
  obtain ⟨o', ho', heq'⟩ := Except.bind_eq_ok_iff.1 hr'
  cases heq
  cases heq'
  exact (h.runFilters Stage.filters [] []).2 o o' ho ho' hstage

end Renames

end LineAtlas.Matching
