import LineAtlas.Proofs.Binary64
import LineAtlas.Proofs.Keyed
import LineAtlas.Proofs.LineSequence
import LineAtlas.Proofs.Matching.Distinct
import Mathlib.Algebra.GroupWithZero.Nat
import Mathlib.Algebra.Ring.Int.Defs
import Mathlib.Data.List.Forall2

/-!
# What symbols decide

A section is spoken for when a name in it has a declaration and the sequence has, at the address of that
name, a row in the declaring file that is not before the declaring line. The filter by symbols keeps the
candidates that are spoken for where there are any, and the evidence has a mean for each name that speaks:
the double nearest to it. There is no evidence, and no run, only where such a mean lies beyond all doubles.
A sequence with evidence is never bound elsewhere: the later filter by overlap only takes candidates away,
and only candidates are placed.
-/

namespace LineAtlas

/-- A row of the declaring file that is not before the declaring line. -/
structure SourcePosition.Follows (x : SourcePosition) (d : Declaration) : Prop where
  file : x.file = some d.file
  line : d.line ≤ x.line

instance (x : SourcePosition) (d : Declaration) : Decidable (x.Follows d) :=
  decidable_of_iff (x.file = some d.file ∧ d.line ≤ x.line)
    ⟨fun h => ⟨h.1, h.2⟩, fun h => ⟨h.file, h.line⟩⟩

def LineSequence.following (q : LineSequence) (a : Int) (d : Declaration) : List SourcePosition :=
  (recordedAt q.toList a).filter fun x => x.Follows d

def SymbolTable.occurrences (t : SymbolTable) (s : String) : List (Int × SymbolAlias) :=
  (t.inSection s).flatMap fun (address, names) => names.map fun a => (address, a)

theorem LineSequence.mem_following {q : LineSequence} {a : Int} {d : Declaration}
    {x : SourcePosition} : x ∈ q.following a d ↔ (a, x) ∈ q.toList ∧ x.Follows d := by
  simp [following, recordedAt]

theorem LineSequence.following_ne_nil_iff {q : LineSequence} {a : Int} {d : Declaration} :
    q.following a d ≠ [] ↔ ∃ x, (a, x) ∈ q.toList ∧ x.Follows d := by
  simp [List.eq_nil_iff_forall_not_mem, mem_following]

namespace Matching

def totalDistance (d : Declaration) (xs : List SourcePosition) : ℤ :=
  (xs.map fun x => x.line - d.line).sum

/-- The mean distance is at least half a step beyond the greatest double. -/
def BeyondDoubles (d : Declaration) (xs : List SourcePosition) : Prop :=
  (2 ^ 1024 - 2 ^ 970) * (xs.length : ℤ) ≤ totalDistance d xs

/-- The double nearest to the mean distance of rows from a declaration. -/
structure IsMeanOf (m : Binary64) (d : Declaration) (xs : List SourcePosition) : Prop where
  ne_nil : xs ≠ []
  inRange : ¬ BeyondDoubles d xs
  nearest : m.IsNearest ((totalDistance d xs : ℚ) / xs.length)

theorem lineDistances_recordedAt (q : LineSequence) (a : Int) (d : Declaration) :
    lineDistances d (recordedAt q.toList a) =
      (q.following a d).map fun x => (x.line - d.line).toNat := by
  rw [lineDistances, LineSequence.following, ← List.filterMap_eq_map, List.filterMap_filter]
  apply List.filterMap_congr
  intro x _
  by_cases h : x.Follows d
  · simp [h, h.file, h.line]
  · have hnot : ¬ (x.file = some d.file ∧ d.line ≤ x.line) := fun hx => h ⟨hx.1, hx.2⟩
    simp [h, hnot]

/-- Where all rows follow the declaration, no distance is cut off. -/
theorem sum_distances {d : Declaration} {xs : List SourcePosition} (h : ∀ x ∈ xs, x.Follows d) :
    (((xs.map fun x => (x.line - d.line).toNat).sum : ℕ) : ℤ) = totalDistance d xs := by
  induction xs with
  | nil => rfl
  | cons x xs ih =>
      obtain ⟨hx, hxs⟩ := List.forall_mem_cons.1 h
      have := hx.line
      have hrest := ih hxs
      rw [totalDistance] at hrest ⊢
      rw [List.map_cons, List.sum_cons, List.map_cons, List.sum_cons]
      omega

section

variable {d : Declaration} {xs : List SourcePosition} (h : ∀ x ∈ xs, x.Follows d) (hne : xs ≠ [])
include h hne

theorem ofQuotient?_distances_eq_none_iff : Binary64.ofQuotient?
    (xs.map fun x => (x.line - d.line).toNat).sum (xs.map fun x => (x.line - d.line).toNat).length =
      none ↔ BeyondDoubles d xs := by
  rw [List.length_map, Binary64.ofQuotient?_eq_none_iff _ (List.length_pos_iff.2 hne), BeyondDoubles,
    ← sum_distances h]
  omega

theorem mean_eq_ok_iff {m : Binary64} :
    mean (xs.map fun x => (x.line - d.line).toNat) = .ok m ↔ IsMeanOf m d xs := by
  have hlen : 0 < (xs.map fun x => (x.line - d.line).toNat).length := by
    rw [List.length_map]
    exact List.length_pos_iff.2 hne
  have hmean : mean (xs.map fun x => (x.line - d.line).toNat) = .ok m ↔ Binary64.ofQuotient?
      (xs.map fun x => (x.line - d.line).toNat).sum
      (xs.map fun x => (x.line - d.line).toNat).length = some m := by
    rw [mean, ← List.sum_eq_foldl]
    generalize Binary64.ofQuotient? _ _ = x
    cases x <;> simp
  have hrange := not_congr (ofQuotient?_distances_eq_none_iff h hne)
  rw [Binary64.ofQuotient?_eq_none_iff _ hlen, Nat.not_le] at hrange
  rw [hmean, Binary64.ofQuotient?_eq_some_iff hlen, hrange, List.length_map]
  have hsum : (((xs.map fun x => (x.line - d.line).toNat).sum : ℕ) : ℚ) = totalDistance d xs := by
    rw [← sum_distances h, Int.cast_natCast]
  rw [hsum]
  exact ⟨fun hm => ⟨hne, hm.1, hm.2⟩, fun hm => ⟨hm.inRange, hm.nearest⟩⟩

theorem mean_eq_error_iff {f : Fault} :
    mean (xs.map fun x => (x.line - d.line).toNat) = .error f ↔
      f = .quotientTooLarge ∧ BeyondDoubles d xs := by
  rw [← ofQuotient?_distances_eq_none_iff h hne, mean, ← List.sum_eq_foldl]
  generalize Binary64.ofQuotient? _ _ = x
  cases x <;> simp [eq_comm]

end

/-- Traversing what is found for some items is going through those items. -/
theorem mapM_filterMap_eq_ok_iff {α β γ : Type} {f : α → Option γ} {g : γ → Except Fault β}
    {keep : α → Bool} (hkeep : ∀ x, keep x = (f x).isSome) {xs : List α} {ys : List β} :
    (xs.filterMap f).mapM g = .ok ys ↔
      List.Forall₂ (fun x y => ∃ c, f x = some c ∧ g c = .ok y) (xs.filter keep) ys := by
  rw [mapM_eq_ok_iff]
  induction xs generalizing ys with
  | nil => simp
  | cons x xs ih =>
      cases hx : f x with
      | none =>
          have hdrop : ¬ keep x = true := by simp [hkeep, hx]
          rw [List.filter_cons_of_neg hdrop, List.filterMap_cons_none hx, ih]
      | some c =>
          have htake : keep x = true := by simp [hkeep, hx]
          rw [List.filter_cons_of_pos htake, List.filterMap_cons_some hx,
            List.forall₂_cons_left_iff, List.forall₂_cons_left_iff]
          simp only [ih, hx, Option.some.injEq, exists_eq_left']

namespace Problem

variable (p : Problem)

/-! ## Names that speak for a section -/

def Speaks (q : LineSequence) (o : Int × SymbolAlias) : Prop :=
  ∃ d, p.declarations.get? o.2.name = some d ∧ ∃ x, (o.1, x) ∈ q.toList ∧ x.Follows d

theorem speaks_iff {q : LineSequence} {o : Int × SymbolAlias} :
    p.Speaks q o ↔ ∃ d, p.declarations.get? o.2.name = some d ∧ q.following o.1 d ≠ [] := by
  simp only [Speaks, LineSequence.following_ne_nil_iff]

instance (q : LineSequence) (o : Int × SymbolAlias) : Decidable (p.Speaks q o) :=
  decidable_of_iff ((p.declarations.get? o.2.name).any fun d => q.following o.1 d ≠ []) <| by
    simp [speaks_iff, Option.any_eq_true]

def SpokenFor (q : LineSequence) (s : String) : Prop :=
  ∃ o ∈ p.symbols.occurrences s, p.Speaks q o

instance (q : LineSequence) (s : String) : Decidable (p.SpokenFor q s) :=
  inferInstanceAs (Decidable (∃ o ∈ p.symbols.occurrences s, p.Speaks q o))

/-- One mean for every name that speaks for the section, in order: that of the rows that speak for the
name. -/
def MeansOf (q : LineSequence) (s : String) : List Binary64 → Prop :=
  List.Forall₂ (fun o m => ∃ d, p.declarations.get? o.2.name = some d ∧ IsMeanOf m d (q.following o.1 d))
    ((p.symbols.occurrences s).filter fun o => p.Speaks q o)

def distancesAt? (q : LineSequence) (o : Int × SymbolAlias) : Option (List Nat) :=
  p.distancesFor? (recordedAt q.toList o.1) o.2

variable {p}

theorem distancesAt?_eq_some_iff {q : LineSequence} {o : Int × SymbolAlias} {gaps : List Nat} :
    p.distancesAt? q o = some gaps ↔
      ∃ d, p.declarations.get? o.2.name = some d ∧ q.following o.1 d ≠ [] ∧
        gaps = (q.following o.1 d).map fun x => (x.line - d.line).toNat := by
  simp only [distancesAt?, distancesFor?, Option.filter_eq_some_iff, Option.map_eq_some_iff,
    lineDistances_recordedAt]
  constructor
  · rintro ⟨⟨d, hd, rfl⟩, hne⟩
    exact ⟨d, hd, by simpa using hne, rfl⟩
  · rintro ⟨d, hd, hne, rfl⟩
    exact ⟨⟨d, hd, rfl⟩, by simpa using hne⟩

theorem isSome_distancesAt?_iff {q : LineSequence} {o : Int × SymbolAlias} :
    (p.distancesAt? q o).isSome = true ↔ p.Speaks q o := by
  rw [Option.isSome_iff_exists, p.speaks_iff]
  simp only [distancesAt?_eq_some_iff]
  constructor
  · rintro ⟨_, d, hd, hne, -⟩
    exact ⟨d, hd, hne⟩
  · rintro ⟨d, hd, hne⟩
    exact ⟨_, d, hd, hne, rfl⟩

theorem symbolDistances_eq_filterMap (q : LineSequence) (s : String) :
    p.symbolDistances q s = (p.symbols.occurrences s).filterMap (p.distancesAt? q) := by
  rw [symbolDistances, SymbolTable.occurrences, List.filterMap_flatMap]
  congr 1
  funext ⟨a, names⟩
  rw [List.filterMap_map]
  have hat : p.distancesAt? q ∘ (fun n => (a, n)) =
      p.distancesFor? ((q.positionsAt? a).getD []) := by
    funext n
    rw [← q.recordedAt_toList]
    rfl
  rw [hat]
  dsimp only
  cases q.positionsAt? a with
  | none =>
      -- Without rows no name has a distance.
      symm
      rw [List.filterMap_eq_nil_iff]
      intro n _
      cases hd : p.declarations.get? n.name <;> simp [distancesFor?, hd, lineDistances]
  | some ps => rfl

theorem corroborates_iff {q : LineSequence} {s : String} :
    p.corroborates q s = true ↔ p.SpokenFor q s := by
  rw [corroborates, symbolDistances_eq_filterMap, Bool.not_eq_true', List.isEmpty_eq_false_iff, ne_eq,
    List.filterMap_eq_nil_iff]
  simp only [SpokenFor, ← isSome_distancesAt?_iff, not_forall, exists_prop,
    Option.isSome_iff_ne_none, ne_eq]

theorem follows_of_mem_following {q : LineSequence} {a : Int} {d : Declaration} :
    ∀ x ∈ q.following a d, x.Follows d :=
  fun _ hx => (LineSequence.mem_following.1 hx).2

theorem meansOf_iff {q : LineSequence} {s : String} {ms : List Binary64} :
    p.MeansOf q s ms ↔ (p.symbolDistances q s).mapM mean = .ok ms := by
  have hkeep : ∀ o, decide (p.Speaks q o) = (p.distancesAt? q o).isSome := by
    intro o
    rw [Bool.eq_iff_iff, decide_eq_true_iff, isSome_distancesAt?_iff]
  have hmean : ∀ (o : Int × SymbolAlias) (m : Binary64),
      (∃ gaps, p.distancesAt? q o = some gaps ∧ mean gaps = .ok m) ↔
        ∃ d, p.declarations.get? o.2.name = some d ∧ IsMeanOf m d (q.following o.1 d) := by
    intro o m
    simp only [distancesAt?_eq_some_iff]
    constructor
    · rintro ⟨_, ⟨d, hd, hne, rfl⟩, hm⟩
      exact ⟨d, hd, (mean_eq_ok_iff follows_of_mem_following hne).1 hm⟩
    · rintro ⟨d, hd, hm⟩
      exact ⟨_, ⟨d, hd, hm.ne_nil, rfl⟩, (mean_eq_ok_iff follows_of_mem_following hm.ne_nil).2 hm⟩
  rw [MeansOf, symbolDistances_eq_filterMap, mapM_filterMap_eq_ok_iff hkeep]
  simp only [hmean]

/-! ## The filter -/

theorem filter_corroborates (q : LineSequence) (cs : List String) :
    cs.filter (p.corroborates q) = cs.filter fun s => p.SpokenFor q s := by
  apply List.filter_congr
  intro s _
  rw [Bool.eq_iff_iff, corroborates_iff, decide_eq_true_iff]

theorem candidatesOf_filterBySymbol {c : Candidates} {i : Nat} {q : LineSequence}
    (hq : p.sequences[i]? = some q) :
    candidatesOf (p.filterBySymbol c) i =
      whenAmbiguous (fun cs =>
        let kept := cs.filter fun s => p.SpokenFor q s
        if kept = [] then cs else kept) (candidatesOf c i) := by
  rw [filterBySymbol, p.candidatesOf_narrow (fun _ => rfl) c hq]
  congr 1
  funext cs
  rw [filter_corroborates]
  split
  · rename_i hnil
    exact (if_pos hnil).symm
  · rename_i hne
    exact (if_neg hne).symm

theorem distancesOf_eq_some_iff {x : Contender} {i : Nat} {e : Keyed String (List (List Nat))} :
    p.distancesOf x = some (i, e) ↔ x.2 = i ∧ 1 < x.1.2.length ∧ e ≠ [] ∧
      e = Keyed.tabulate (x.1.2.filter (p.corroborates x.1.1)).eraseDups (p.symbolDistances x.1.1) := by
  rw [distancesOf]
  generalize (x.1.2.filter (p.corroborates x.1.1)).eraseDups = kept
  by_cases hone : x.1.2.length ≤ 1
  · simp [hone, Nat.not_lt.2 hone]
  · rw [if_neg hone]
    cases kept with
    | nil => simp [Keyed.tabulate]
    | cons s kept =>
        simp only [Option.some.injEq, Prod.mk.injEq, Nat.not_le.1 hone, true_and]
        constructor
        · rintro ⟨hi, rfl⟩
          exact ⟨hi, List.cons_ne_nil _ _, rfl⟩
        · rintro ⟨hi, -, rfl⟩
          exact ⟨hi, rfl⟩

theorem get?_distances_eq_some_iff {c : Candidates} {i : Nat} {e : Keyed String (List (List Nat))} :
    Keyed.get? (p.distances c) i = some e ↔ ∃ q, p.sequences[i]? = some q ∧
      1 < (candidatesOf c i).length ∧ e ≠ [] ∧
        e = Keyed.tabulate ((candidatesOf c i).filter (p.corroborates q)).eraseDups
          (p.symbolDistances q) := by
  have hkeys : (Keyed.keys (p.distances c)).Nodup := by
    rw [distances_eq, Keyed.keys, List.nodup_iff_pairwise_ne, List.pairwise_map,
      List.pairwise_filterMap]
    apply (p.contenders_increase c).imp
    intro x y hlt e he e' he' heq
    have hx := (distancesOf_eq_some_iff.1 he).1
    have hy := (distancesOf_eq_some_iff.1 he').1
    omega
  rw [Keyed.get?_eq_some_iff hkeys, distances_eq, List.mem_filterMap]
  constructor
  · rintro ⟨⟨⟨q, cs⟩, j⟩, hmem, he⟩
    obtain ⟨hq, hcs, -⟩ := p.mem_contenders.1 hmem
    obtain ⟨rfl, he⟩ := distancesOf_eq_some_iff.1 he
    exact ⟨q, hq, by rwa [candidatesOf_of_getElem? hcs]⟩
  · rintro ⟨q, hq, hmany, he⟩
    have hne : candidatesOf c i ≠ [] := List.length_pos_iff.1 (by omega)
    obtain ⟨s, hs⟩ := List.exists_mem_of_ne_nil _ hne
    have hcs := getElem?_of_mem_candidatesOf hs
    exact ⟨((q, candidatesOf c i), i), p.mem_contenders.2 ⟨hq, hcs, hne⟩,
      distancesOf_eq_some_iff.2 ⟨rfl, hmany, he⟩⟩

theorem get?_evidence_eq_some_iff {c : Candidates} {found : Evidence} (h : p.evidence c = .ok found)
    {i : Nat} {e : Keyed String (List Binary64)} :
    Keyed.get? found i = some e ↔ ∃ q, p.sequences[i]? = some q ∧
      1 < (candidatesOf c i).length ∧ e ≠ [] ∧
        Keyed.keys e = ((candidatesOf c i).filter fun s => p.SpokenFor q s).eraseDups ∧
          ∀ x ∈ e, p.MeansOf q x.1 x.2 := by
  have hnil {g : Keyed String (List (List Nat))} {e : Keyed String (List Binary64)}
      (hg : Keyed.traverse (List.mapM mean) g = .ok e) : g ≠ [] ↔ e ≠ [] := by
    rw [← List.length_pos_iff, ← List.length_pos_iff, (Keyed.traverse_eq_ok_iff.1 hg).length_eq]
  rw [Keyed.get?_of_traverse h]
  simp only [get?_distances_eq_some_iff, filter_corroborates, meansOf_iff]
  constructor
  · rintro ⟨g, ⟨q, hq, hmany, hne, hg⟩, he⟩
    refine ⟨q, hq, hmany, (hnil he).1 hne, ?_⟩
    rwa [hg, Keyed.traverse_tabulate_eq_ok_iff] at he
  · rintro ⟨q, hq, hmany, hne, he⟩
    rw [← Keyed.traverse_tabulate_eq_ok_iff] at he
    exact ⟨_, ⟨q, hq, hmany, (hnil he).2 hne, rfl⟩, he⟩

/-! ## The run -/

/-- Where there is evidence, only what it lists is left. -/
theorem mem_keys_evidence {c : Candidates} {found : Evidence} (h : p.evidence c = .ok found) {i : Nat}
    {s : String} {e : Keyed String (List Binary64)} (he : Keyed.get? found i = some e)
    (hs : s ∈ candidatesOf (p.filterBySymbol c) i) : s ∈ Keyed.keys e := by
  obtain ⟨q, hq, hmany, hne, hkeys, -⟩ := (get?_evidence_eq_some_iff h).1 he
  rw [candidatesOf_filterBySymbol hq, whenAmbiguous, if_neg (by omega)] at hs
  rw [hkeys, List.mem_eraseDups]
  dsimp only at hs
  split at hs
  · rename_i hnone
    rw [hnone, List.eraseDups_nil] at hkeys
    exact absurd (List.map_eq_nil_iff.1 hkeys) hne
  · exact hs

/-- What is bound in the end was left by the filter by symbols. -/
theorem mem_filterBySymbol_of_binds_run {r : Result} (hr : p.run = .ok r) {i : Nat} {s : String}
    (h : r.table.Binds i s) :
    s ∈ candidatesOf (p.filterBySymbol (p.after [.size, .overlap, .alignment] p.initial)) i := by
  rw [p.run_table_eq_bestEffort hr] at h
  obtain ⟨xs, hxs, x, hx, rfl⟩ := h
  obtain ⟨-, rfl, -⟩ := p.mem_tableOf.1 hxs
  obtain ⟨cs, hplace, hs⟩ := p.mem_bestEffort hx
  obtain ⟨-, -, hcs, -⟩ := p.mem_places.1 hplace
  rw [← candidatesOf_of_getElem? hcs] at hs
  have hlen := p.length_after p.length_initial [.size, .overlap, .alignment, .symbol]
  exact (p.filterByOverlap_narrows hlen).mem hs

/-- Symbols decide as the declarations say, wherever the means are doubles. An ambiguous sequence keeps
the candidates that are spoken for, in order, or all of them where none is, so that it never loses its
last. The evidence lists them with a mean for each name that speaks, the double nearest to the exact
one. A sequence with evidence that a run binds is bound to one of the sections listed. -/
theorem filterBySymbol_spokenFor (p : Problem) :
    (∀ c found, p.evidence c = .ok found →
      (c.length = p.sequences.length → (p.filterBySymbol c).length = c.length) ∧
      (∀ (i : Nat) (q : LineSequence), p.sequences[i]? = some q →
        let before := candidatesOf c i
        let spoken := before.filter fun s => p.SpokenFor q s
        let after := candidatesOf (p.filterBySymbol c) i
        (before.length ≤ 1 → after = before) ∧
          (1 < before.length → spoken ≠ [] → after = spoken) ∧
          (1 < before.length → spoken = [] → after = before) ∧
          (before ≠ [] → after ≠ [])) ∧
      ∀ (i : Nat) (e : Keyed String (List Binary64)),
        Keyed.get? found i = some e ↔ ∃ q, p.sequences[i]? = some q ∧
          1 < (candidatesOf c i).length ∧ e ≠ [] ∧
            Keyed.keys e = ((candidatesOf c i).filter fun s => p.SpokenFor q s).eraseDups ∧
              ∀ x ∈ e, p.MeansOf q x.1 x.2) ∧
    ∀ r, p.run = .ok r → ∀ (i : Nat) (s : String) (e : Keyed String (List Binary64)),
      Keyed.get? r.evidence i = some e → r.table.Binds i s → s ∈ Keyed.keys e := by
  refine ⟨fun c found h => ⟨p.length_narrow _, ?_, fun i e => get?_evidence_eq_some_iff h⟩, ?_⟩
  · intro i q hq before spoken after
    have hafter : after = whenAmbiguous (fun _ => if spoken = [] then before else spoken) before :=
      candidatesOf_filterBySymbol hq
    rw [hafter, whenAmbiguous]
    split
    · rename_i hone
      exact ⟨fun _ => rfl, by omega, by omega, id⟩
    · rename_i hmany
      refine ⟨by omega, fun _ hsome => if_neg hsome, fun _ hnone => if_pos hnone, ?_⟩
      intro hne
      split
      · exact hne
      · assumption
  · intro r hr i s e he hbound
    exact mem_keys_evidence (p.evidence_of_run hr) he (mem_filterBySymbol_of_binds_run hr hbound)

/-- Two sections of one extent. The sequence has the function `f` at their start, which is declared just
before, and only the first section has a symbol for it. -/
def declaredInText : Problem where
  listed := [".text", ".text.hot"]
  code :=
    let run := [⟨0, "48 89 e5 c3", none⟩, ⟨4, "48 89 e5 c3", none⟩]
    [(".text", [("f", run)]), (".text.hot", [("g", run)])]
  sequences :=
    [.ofList [(0, ⟨some "a.c", 3, 0, true, 0⟩), (0, ⟨some "a.c", 3, 4, true, 0⟩),
      (0, ⟨some "a.c", 4, 0, true, 0⟩), (8, ⟨some "a.c", 6, 0, true, 0⟩)]]
  symbols := [(".text", [(0, [⟨"f", 8⟩])]), (".text.hot", [(0, [⟨"g", 8⟩])])]
  declarations := [("f", ⟨"a.c", 3⟩), ("g", ⟨"b.c", 3⟩)]

def third : Binary64 where
  significand := 6004799503160661
  exponent := 1020
  significand_lt := by decide
  exponent_le := by decide
  normal := by decide

theorem run_declaredInText : declaredInText.run =
    .ok ⟨[(".text", [⟨⟨0, 8⟩, 0⟩])], .symbol, [], [], [(0, [(".text", [third])])], []⟩ := by
  decide +kernel

theorem filterBySymbol_spokenFor_declaredInText :
    let cs := [".text", ".text.hot"]
    let q := declaredInText.sequences[0]
    let e := [(".text", [third])]
    ∃ r, declaredInText.run = .ok r ∧ declaredInText.SpokenFor q ".text" ∧
      candidatesOf (declaredInText.filterBySymbol [cs]) 0 = [".text"] ∧
      declaredInText.MeansOf q ".text" [third] ∧
      Keyed.get? r.evidence 0 = some e ∧ r.table.Binds 0 ".text" ∧ ".text" ∈ Keyed.keys e := by
  intro cs q e
  have hbound : Table.Binds [(".text", [⟨⟨0, 8⟩, 0⟩])] 0 ".text" :=
    ⟨[⟨⟨0, 8⟩, 0⟩], by decide, ⟨⟨0, 8⟩, 0⟩, by decide, rfl⟩
  obtain ⟨hall, hrun⟩ := filterBySymbol_spokenFor declaredInText
  have hfound : declaredInText.evidence [cs] = .ok [(0, e)] := by decide +kernel
  obtain ⟨-, hfilter, hevidence⟩ := hall [cs] _ hfound
  have hspoken : cs.filter (fun s => declaredInText.SpokenFor q s) = [".text"] := by decide
  have hkept : candidatesOf (declaredInText.filterBySymbol [cs]) 0 = [".text"] :=
    ((hfilter 0 q rfl).2.1 (by decide) (by decide)).trans hspoken
  have hmeans : declaredInText.MeansOf q ".text" [third] := by
    obtain ⟨r, hr, -, -, -, hmeans⟩ := (hevidence 0 e).1 rfl
    obtain rfl : q = r := Option.some.inj hr
    exact hmeans (".text", [third]) (List.mem_singleton_self _)
  exact ⟨_, run_declaredInText, by decide, hkept, hmeans, rfl, hbound,
    hrun _ run_declaredInText 0 ".text" e rfl hbound⟩

/-- No double is a third, so that the mean of one line too many over three rows is not exact. -/
theorem mean_declaredInText_inexact :
    let q := declaredInText.sequences[0]
    let d : Declaration := ⟨"a.c", 3⟩
    ∃ r, declaredInText.run = .ok r ∧
      Keyed.get? r.evidence 0 = some [(".text", [third])] ∧
      declaredInText.declarations.get? "f" = some d ∧
      totalDistance d (q.following 0 d) = 1 ∧ (q.following 0 d).length = 3 ∧
      third.value ≠ (1 : ℚ) / 3 := by
  intro q d
  refine ⟨_, run_declaredInText, rfl, rfl, by decide, by decide, ?_⟩
  have hunits : 3 * third.units ≠ 2 ^ Binary64.unitExponent := by decide +kernel
  intro hvalue
  have hpos : (0 : ℚ) < 2 ^ Binary64.unitExponent := by positivity
  rw [Binary64.value, div_eq_div_iff hpos.ne' (by decide)] at hvalue
  have hnat : third.units * 3 = 1 * 2 ^ Binary64.unitExponent := by exact_mod_cast hvalue
  omega

/-! ## Means beyond all doubles -/

/-- Some candidate of an ambiguous sequence has a name that speaks for it with rows that lie, on the
average, beyond all doubles behind the declaration. -/
def Overflows (c : Candidates) : Prop :=
  ∃ i q s o d, p.sequences[i]? = some q ∧ 1 < (candidatesOf c i).length ∧ s ∈ candidatesOf c i ∧
    o ∈ p.symbols.occurrences s ∧ p.declarations.get? o.2.name = some d ∧ q.following o.1 d ≠ [] ∧
      BeyondDoubles d (q.following o.1 d)

theorem means_eq_error_iff {q : LineSequence} {s : String} {f : Fault} :
    (p.symbolDistances q s).mapM mean = .error f ↔ ∃ o ∈ p.symbols.occurrences s, ∃ d,
      p.declarations.get? o.2.name = some d ∧ q.following o.1 d ≠ [] ∧
        f = .quotientTooLarge ∧ BeyondDoubles d (q.following o.1 d) := by
  rw [mapM_eq_error_iff fun _ _ => eq_of_mean_eq_error, symbolDistances_eq_filterMap]
  simp only [List.mem_filterMap, distancesAt?_eq_some_iff]
  constructor
  · rintro ⟨_, ⟨o, ho, d, hd, hne, rfl⟩, hf⟩
    exact ⟨o, ho, d, hd, hne, (mean_eq_error_iff follows_of_mem_following hne).1 hf⟩
  · rintro ⟨o, ho, d, hd, hne, hf⟩
    exact ⟨_, ⟨o, ho, d, hd, hne, rfl⟩, (mean_eq_error_iff follows_of_mem_following hne).2 hf⟩

theorem evidence_eq_error_iff_overflows {c : Candidates} {f : Fault} :
    p.evidence c = .error f ↔ f = .quotientTooLarge ∧ p.Overflows c := by
  have hmeans : ∀ xs f, List.mapM mean xs = .error f → f = .quotientTooLarge :=
    fun _ _ => eq_of_mapM_mean_eq_error
  have hspoken {q : LineSequence} {s : String} {o : Int × SymbolAlias} {d : Declaration}
      (ho : o ∈ p.symbols.occurrences s) (hd : p.declarations.get? o.2.name = some d)
      (hne : q.following o.1 d ≠ []) : p.corroborates q s = true :=
    corroborates_iff.2 ⟨o, ho, p.speaks_iff.2 ⟨d, hd, hne⟩⟩
  rw [p.evidence_eq_error_iff]
  constructor
  · rintro ⟨⟨⟨q, cs⟩, i⟩, hmem, ⟨j, e⟩, he, hf⟩
    obtain ⟨hq, hcs, -⟩ := p.mem_contenders.1 hmem
    obtain ⟨-, hmany, -, rfl⟩ := distancesOf_eq_some_iff.1 he
    obtain ⟨x, hx, hf⟩ := (Keyed.traverse_eq_error_iff hmeans).1 hf
    obtain ⟨s, hs, rfl⟩ := List.mem_map.1 hx
    obtain ⟨o, ho, d, hd, hne, hfault, hbeyond⟩ := means_eq_error_iff.1 hf
    rw [List.mem_eraseDups, List.mem_filter] at hs
    rw [← candidatesOf_of_getElem? hcs] at hs hmany
    exact ⟨hfault, i, q, s, o, d, hq, hmany, hs.1, ho, hd, hne, hbeyond⟩
  · rintro ⟨hfault, i, q, s, o, d, hq, hmany, hs, ho, hd, hne, hbeyond⟩
    have hcs := getElem?_of_mem_candidatesOf hs
    have hkept : s ∈ ((candidatesOf c i).filter (p.corroborates q)).eraseDups :=
      List.mem_eraseDups.2 (List.mem_filter.2 ⟨hs, hspoken ho hd hne⟩)
    refine ⟨((q, candidatesOf c i), i), p.mem_contenders.2 ⟨hq, hcs, List.ne_nil_of_mem hs⟩,
      (i, _), distancesOf_eq_some_iff.2 ⟨rfl, hmany, ?_, rfl⟩, ?_⟩
    · exact List.ne_nil_of_mem (List.mem_map_of_mem hkept)
    · rw [Keyed.traverse_eq_error_iff hmeans]
      exact ⟨_, List.mem_map_of_mem hkept,
        means_eq_error_iff.2 ⟨o, ho, d, hd, hne, hfault, hbeyond⟩⟩

/-- A run is at fault only for a mean beyond all doubles. -/
theorem run_eq_error_iff {f : Fault} : p.run = .error f ↔
    f = .quotientTooLarge ∧ p.Overflows (p.after [.size, .overlap, .alignment] p.initial) := by
  rw [← evidence_eq_error_iff_overflows, ← p.run_evidence_eq, Except.map_eq_error_iff]

end Problem

end Matching

end LineAtlas
