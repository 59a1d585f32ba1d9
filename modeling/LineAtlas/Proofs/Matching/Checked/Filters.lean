import LineAtlas.Proofs.Keyed
import LineAtlas.Proofs.Matching.Checked
import LineAtlas.Proofs.Matching.Exclusion
import LineAtlas.Proofs.Matching.Renaming
import LineAtlas.Proofs.Traversal
import Mathlib.Data.List.Induction

/-!
# Look-ups of the filters

A sequence that has candidates has rows, and each of its candidates is a listed section with code. This
holds when a run begins and is kept by every filter, and it is all that the filters rely on: where it holds
all their look-ups have answers, and they leave the candidates that they are meant to leave.
-/

namespace LineAtlas.Matching

/-! ## Lists of answers -/

theorem mapM_congr_of_forall₂ {m : Type → Type} [Monad m] [LawfulMonad m] {α β γ : Type} {f : α → m γ}
    {g : β → m γ} {xs : List α} {ys : List β} (h : List.Forall₂ (fun x y => f x = g y) xs ys) :
    xs.mapM f = ys.mapM g := by
  induction h with
  | nil => rfl
  | cons hx _ ih => rw [List.mapM_cons, List.mapM_cons, hx, ih]

theorem mapM_eq_some {α β : Type} {f : α → Option β} {xs : List α} {ys : List β}
    (h : List.Forall₂ (fun x y => f x = some y) xs ys) : xs.mapM f = some ys := by
  induction h with
  | nil => rfl
  | cons hx _ ih =>
      rw [List.mapM_cons, hx, ih]
      rfl

theorem mapM_eq_some_map {α β : Type} {f : α → Option β} {g : α → β} {xs : List α}
    (h : ∀ x ∈ xs, f x = some (g x)) : xs.mapM f = some (xs.map g) :=
  mapM_eq_some (List.forall₂_map_right_iff.2 (List.forall₂_same.2 h))

theorem filterM_map_eq_some {α β : Type} {f : β → Option Bool} {g : α → Bool} {k : α → β} {xs : List α}
    (h : ∀ x ∈ xs, f (k x) = some (g x)) : (xs.map k).filterM f = some ((xs.filter g).map k) := by
  have hacc (acc : List β) :
      (xs.map k).filterAuxM f acc = some (((xs.filter g).map k).reverse ++ acc) := by
    induction xs generalizing acc with
    | nil => rfl
    | cons x xs ih =>
        obtain ⟨hx, hxs⟩ := List.forall_mem_cons.1 h
        rw [List.map_cons, List.filterAuxM, hx]
        cases hg : g x <;> simp [hg, ih hxs]
  rw [List.filterM, hacc]
  simp

theorem filterM_eq_some_filter {α : Type} {f : α → Option Bool} {g : α → Bool} {xs : List α}
    (h : ∀ x ∈ xs, f x = some (g x)) : xs.filterM f = some (xs.filter g) := by
  have hmap := filterM_map_eq_some (k := id) h
  rwa [List.map_id, List.map_id] at hmap

namespace Problem

variable (p : Problem)

/-- What the look-ups of a run rely on: a sequence that has candidates has rows, and its candidates are
listed sections with code. -/
structure Sound (c : Candidates) : Prop where
  length_eq : c.length = p.sequences.length
  notEmpty : ∀ i q, p.sequences[i]? = some q → candidatesOf c i ≠ [] → q.isEmpty = false
  listed : ∀ i, ∀ s ∈ candidatesOf c i, s ∈ p.sections

theorem sound_initial : p.Sound p.initial := by
  refine ⟨p.length_initial, ?_, ?_⟩
  · intro i q hq hne
    obtain ⟨s, hs⟩ := List.exists_mem_of_ne_nil _ hne
    obtain ⟨⟨q', hplace⟩, -⟩ := p.mem_candidatesOf_initial.1 hs
    obtain rfl : q' = q := Option.some.inj (hplace.getElem?.symm.trans hq)
    exact hplace.notEmpty
  · intro i s hs
    exact (p.mem_candidatesOf_initial.1 hs).2

variable {p}

theorem Sound.narrows {c d : Candidates} (h : p.Sound c) (hnarrows : Narrows c d) : p.Sound d := by
  refine ⟨hnarrows.length_eq.trans h.length_eq, ?_, ?_⟩
  · intro i q hq hne
    apply h.notEmpty i q hq
    intro hnil
    exact hne (List.sublist_nil.1 (hnil ▸ hnarrows.sublist i))
  · intro i s hs
    exact h.listed i s (hnarrows.mem hs)

theorem Sound.filter {c : Candidates} (h : p.Sound c) (stage : Stage) : p.Sound (p.filter c stage) :=
  h.narrows (p.filter_narrows h.length_eq stage)

theorem Sound.exclude {c : Candidates} (h : p.Sound c) : p.Sound (p.exclude c) :=
  h.narrows (p.exclude_narrows h.length_eq)

theorem Sound.exists_extent {c : Candidates} (h : p.Sound c) {i : Nat} {cs : List String}
    (hcs : (c)[i]? = some cs) {s : String} (hs : s ∈ cs) :
    s ∈ p.listed ∧ ∃ e, p.extent? s = some e := by
  have hlisted : s ∈ p.sections := h.listed i s (by rwa [candidatesOf_of_getElem? hcs])
  obtain ⟨hs, he⟩ := List.mem_filter.1 hlisted
  exact ⟨hs, Option.isSome_iff_exists.1 he⟩

end Problem

namespace Checked

open Problem

variable {p : Problem}

/-! ## Sequences -/

theorem span_eq (q : LineSequence) : span q = some q.span := by
  have hempty : q.isEmpty = q.addresses.isEmpty := by
    simp [LineSequence.isEmpty, LineSequence.addresses]
  rw [span, LineSequence.span, LineSequence.start?, LineSequence.stop?, hempty]
  cases q.addresses with
  | nil => rfl
  | cons a rest =>
      rw [List.getLast?_eq_some_getLast (List.cons_ne_nil a rest)]
      rfl

theorem spanAt_eq {i : Nat} {q : LineSequence} (hq : p.sequences[i]? = some q) :
    spanAt p i = some q.span := by
  rw [spanAt, mapM_eq_some_map fun q _ => span_eq q]
  simp [hq]

/-- Candidates go with the sequences of their indices. -/
theorem forall₂_zipIdx {c : Candidates} (h : p.Sound c)
    {R : List String × Nat → (LineSequence × List String) × Nat → Prop}
    (hR : ∀ i q cs, p.sequences[i]? = some q → (c)[i]? = some cs → R (cs, i) ((q, cs), i)) :
    List.Forall₂ R c.zipIdx (p.sequences.zip c).zipIdx := by
  rw [List.forall₂_iff_get]
  refine ⟨by simp [h.length_eq], ?_⟩
  intro i hi hi'
  have hq : i < p.sequences.length := by
    rw [List.length_zipIdx] at hi
    exact h.length_eq ▸ hi
  simp only [List.get_eq_getElem, List.getElem_zipIdx, List.getElem_zip, Nat.zero_add]
  exact hR i _ _ (List.getElem?_eq_getElem hq) (List.getElem?_eq_getElem _)

/-- What is looked up by the indices of candidates is what their sequences give. -/
theorem mapM_zipIdx_eq_map {α : Type} {c : Candidates} (h : p.Sound c)
    {f : List String × Nat → Option α} {g : (LineSequence × List String) × Nat → α}
    (hf : ∀ i q cs, p.sequences[i]? = some q → (c)[i]? = some cs → f (cs, i) = some (g ((q, cs), i))) :
    c.zipIdx.mapM f = some ((p.sequences.zip c).zipIdx.map g) :=
  mapM_eq_some (List.forall₂_map_right_iff.2 (forall₂_zipIdx h hf))

theorem mapM_zipIdx_eq {α : Type} {c : Candidates} (h : p.Sound c)
    {f : List String × Nat → Option α} {g : LineSequence → List String → α}
    (hf : ∀ i q cs, p.sequences[i]? = some q → (c)[i]? = some cs → f (cs, i) = some (g q cs)) :
    c.zipIdx.mapM f = some (List.zipWith g p.sequences c) := by
  rw [mapM_zipIdx_eq_map h (g := Function.uncurry g ∘ Prod.fst) hf, ← List.map_map,
    List.zipIdx_map_fst, List.map_uncurry_zip_eq_zipWith]

theorem narrow_eq {c : Candidates} (h : p.Sound c) {f : Nat → List String → Option (List String)}
    {g : LineSequence → List String → List String}
    (hf : ∀ i q cs, p.sequences[i]? = some q → (c)[i]? = some cs → f i cs = some (g q cs)) :
    narrow f c = some (p.narrow g c) :=
  mapM_zipIdx_eq h hf

theorem whenAmbiguous_eq {f : List String → Option (List String)} {g : List String → List String}
    {cs : List String} (h : 1 < cs.length → f cs = some (g cs)) :
    whenAmbiguous f cs = some (Matching.whenAmbiguous g cs) := by
  rw [whenAmbiguous, Matching.whenAmbiguous]
  split
  · rfl
  · exact h (by omega)

/-! ## Filters by place -/

theorem get?_extents {s : String} (hs : s ∈ p.listed) : (extents p).get? s = p.extent? s :=
  Keyed.get?_filterMap_keys p.listed p.extent? hs

variable {c : Candidates}

theorem filterBySize_eq (h : p.Sound c) : filterBySize p c = some (p.filterBySize c) := by
  apply narrow_eq h
  intro i q cs hq hcs
  rw [spanAt_eq hq]
  apply filterM_eq_some_filter
  intro s hs
  obtain ⟨hlisted, e, he⟩ := h.exists_extent hcs hs
  rw [get?_extents hlisted, fits, he]
  rfl

def reservationOf (q : LineSequence) : List String → Option (String × Span)
  | [s] => some (s, q.span)
  | _ => none

theorem reservation_eq {i : Nat} {q : LineSequence} (hq : p.sequences[i]? = some q) (cs : List String) :
    reservation p i cs = some (reservationOf q cs) := by
  rcases cs with - | ⟨s, - | ⟨t, rest⟩⟩
  · rfl
  · rw [reservation, spanAt_eq hq]
    rfl
  · rfl

theorem reservations_eq (h : p.Sound c) : reservations p c = some (p.reservations c) := by
  rw [reservations, mapM_zipIdx_eq h (g := reservationOf) fun i q cs hq _ => reservation_eq hq cs,
    Problem.reservations, ← List.map_uncurry_zip_eq_zipWith, Option.bind_eq_bind, Option.bind_some,
    List.filterMap_map]
  rfl

theorem exclude_eq (h : p.Sound c) : exclude p c = some (p.exclude c) := by
  rw [exclude, reservations_eq h, Option.bind_eq_bind, Option.bind_some]
  apply narrow_eq h
  intro i q cs hq hcs
  apply whenAmbiguous_eq
  intro _
  rw [spanAt_eq hq]
  rfl

/-- The rounds end, since each but the last takes a candidate away. -/
theorem settle_eq {n : Nat} {d : Candidates} (h : p.Sound c) (hends : p.Ends c d)
    (hn : c.flatten.length < n) : settle p n c = some d := by
  induction hends generalizing n with
  | @unchanged c hsame =>
      obtain ⟨m, rfl⟩ : ∃ m, n = m + 1 := ⟨n - 1, by omega⟩
      rw [settle, exclude_eq h, Option.bind_eq_bind, Option.bind_some, if_pos hsame]
      rfl
  | @changed c d hne _ ih =>
      obtain ⟨m, rfl⟩ : ∃ m, n = m + 1 := ⟨n - 1, by omega⟩
      have hlt := p.length_flatten_exclude_lt h.length_eq hne
      rw [settle, exclude_eq h, Option.bind_eq_bind, Option.bind_some, if_neg hne]
      exact ih h.exclude (by omega)

theorem filterByOverlap_eq (h : p.Sound c) : filterByOverlap p c = some (p.filterByOverlap c) :=
  settle_eq h (p.ends_filterByOverlap h.length_eq) (Nat.lt_succ_self _)

theorem isAligned_eq {q : LineSequence} {s : String} (hq : q.isEmpty = false) (hs : s ∈ p.listed)
    {e : Extent} (he : p.extent? s = some e) : isAligned p q s = some (p.isAligned q s) := by
  obtain ⟨entries, hcode, -⟩ := Option.bind_eq_some_iff.1 he
  obtain ⟨last, hlast⟩ : ∃ last, q.addresses.getLast? = some last :=
    Option.isSome_iff_exists.1 (by simpa [LineSequence.isEmpty, LineSequence.addresses] using hq)
  rw [isAligned, Problem.isAligned, hcode, hlast, get?_extents hs, he, instructionAddresses, hcode]
  simp only [Option.bind_eq_bind, Option.bind_some, Option.getD_some, Option.any_some]
  split
  · rename_i hin
    rw [hin, Bool.true_or, Bool.true_and]
    rfl
  · rename_i hout
    rw [Bool.not_eq_true] at hout
    rw [hout, Bool.false_or]
    rfl

theorem filterByAlignment_eq (h : p.Sound c) :
    filterByAlignment p c = some (p.filterByAlignment c) := by
  apply narrow_eq h
  intro i q cs hq hcs
  apply whenAmbiguous_eq
  intro hlen
  rw [hq]
  apply filterM_eq_some_filter
  intro s hs
  obtain ⟨hlisted, e, he⟩ := h.exists_extent hcs hs
  have hrows : q.isEmpty = false := by
    apply h.notEmpty i q hq
    rw [candidatesOf_of_getElem? hcs]
    exact List.ne_nil_of_mem hs
  exact isAligned_eq hrows hlisted he

/-! ## Evidence from symbols -/

/-- What has an answer unless it is at fault. -/
def answered {α : Type} (x : Except Fault α) : Attempt α :=
  OptionT.mk (x.map some)

theorem answered_bind {α β : Type} {x : Except Fault α} {f : α → Attempt β} {g : α → Except Fault β}
    (h : ∀ a, f a = answered (g a)) : (answered x >>= f) = answered (x >>= g) := by
  cases x with
  | error e => rfl
  | ok a => exact h a

theorem answered_map {α β : Type} (x : Except Fault α) (f : α → β) :
    (answered x >>= fun a => pure (f a)) = answered (x.map f) := by
  cases x <;> rfl

theorem mapM_answered {α β : Type} {f : α → Attempt β} {g : α → Except Fault β} {xs : List α}
    (h : ∀ x ∈ xs, f x = answered (g x)) : xs.mapM f = answered (xs.mapM g) := by
  induction xs with
  | nil => rfl
  | cons x xs ih =>
      obtain ⟨hx, hxs⟩ := List.forall_mem_cons.1 h
      rw [List.mapM_cons, List.mapM_cons, hx]
      apply answered_bind
      intro b
      rw [ih hxs]
      exact answered_bind fun bs => rfl

def meanOf? : Option (List Nat) → Except Fault (Option Binary64)
  | none => .ok none
  | some gaps => (mean gaps).map some

/-- A mean is looked for only where there are distances. -/
theorem corroboration_eq (positions : List SourcePosition) (a : SymbolAlias) :
    corroboration p positions a = answered (meanOf? (p.distancesFor? positions a)) := by
  rw [corroboration, distancesFor?]
  cases p.declarations.get? a.name with
  | none => rfl
  | some d =>
      simp only [Option.map_some]
      cases lineDistances d positions with
      | nil => rfl
      | cons gap gaps =>
          have hkeep : (some (gap :: gaps)).filter (fun xs => xs ≠ []) = some (gap :: gaps) := rfl
          simp only [hkeep, meanOf?, mean, quotient]
          have hlength : (gap :: gaps).length ≠ 0 := Nat.succ_ne_zero _
          rw [if_neg hlength]
          generalize Binary64.ofQuotient? _ _ = x
          cases x <;> rfl

theorem distancesAt_eq (q : LineSequence) (address : Int) (names : List SymbolAlias) :
    distancesAt p q address names = answered
      (((q.positionsAt? address).map fun positions =>
        names.map (p.distancesFor? positions)).getD [] |>.mapM meanOf?) := by
  rw [distancesAt]
  cases q.positionsAt? address with
  | none => rfl
  | some positions =>
      rw [Option.map_some, Option.getD_some, List.mapM_map]
      exact mapM_answered fun a _ => corroboration_eq positions a

theorem mapM_mean_filterMap (xs : List (Option (List Nat))) :
    (xs.filterMap id).mapM mean = (xs.mapM meanOf?).map (List.filterMap id) := by
  induction xs with
  | nil => rfl
  | cons x xs ih =>
      rw [List.mapM_cons]
      cases x with
      | none =>
          change (xs.filterMap id).mapM mean = _
          rw [ih]
          cases xs.mapM meanOf? <;> rfl
      | some gaps =>
          change (gaps :: xs.filterMap id).mapM mean = _
          rw [List.mapM_cons, ih, meanOf?]
          cases mean gaps with
          | error f => rfl
          | ok m => cases xs.mapM meanOf? <;> rfl

theorem mapM_mean_flatMap {α : Type} (f : α → List (Option (List Nat))) (xs : List α) :
    (xs.flatMap fun x => (f x).filterMap id).mapM mean =
      (xs.mapM fun x => (f x).mapM meanOf?).map fun found => found.flatten.filterMap id := by
  induction xs with
  | nil => rfl
  | cons x xs ih =>
      rw [List.flatMap_cons, List.mapM_append, ih, mapM_mean_filterMap, List.mapM_cons]
      cases (f x).mapM meanOf? with
      | error e => rfl
      | ok ms =>
          cases xs.mapM fun x => (f x).mapM meanOf? with
          | error e => rfl
          | ok mss => exact congrArg Except.ok (by simp)

theorem symbolDistances_eq (q : LineSequence) (s : String) :
    symbolDistances p q s = answered ((p.symbolDistances q s).mapM mean) := by
  have hgaps : p.symbolDistances q s = (p.symbols.inSection s).flatMap fun x =>
      (((q.positionsAt? x.1).map fun positions =>
        x.2.map (p.distancesFor? positions)).getD []).filterMap id := by
    rw [Problem.symbolDistances]
    congr 1
    funext ⟨address, names⟩
    dsimp only
    generalize q.positionsAt? address = found
    cases found with
    | none => rfl
    | some positions => simp [List.filterMap_map]
  rw [symbolDistances, mapM_answered fun x _ => distancesAt_eq (p := p) q x.1 x.2, hgaps, mapM_mean_flatMap]
  exact answered_map _ _

section

variable {q : LineSequence} {cs : List String}

theorem mapM_means_of_error {s : String} (hs : s ∈ cs)
    (hf : (p.symbolDistances q s).mapM mean = .error .quotientTooLarge) :
    cs.mapM (fun s => do return (s, ← (p.symbolDistances q s).mapM mean)) = .error .quotientTooLarge := by
  rw [mapM_eq_error_iff]
  · exact ⟨s, hs, by rw [hf]; rfl⟩
  · intro s f he
    exact eq_of_mapM_mean_eq_error ((Keyed.store_eq_error_iff (x := (s, p.symbolDistances q s))).1 he)

variable {means : String → List Binary64}
  (hmeans : ∀ s ∈ cs, (p.symbolDistances q s).mapM mean = .ok (means s))
include hmeans

theorem mapM_means_of_ok : cs.mapM (fun s => do return (s, ← (p.symbolDistances q s).mapM mean)) =
    .ok (cs.map fun s => (s, means s)) := by
  rw [mapM_eq_ok_iff, List.forall₂_map_right_iff, List.forall₂_same]
  intro s hs
  rw [hmeans s hs]
  rfl

theorem filter_corroborates_of_ok :
    cs.filter (p.corroborates q) = cs.filter fun s => !(means s).isEmpty := by
  apply List.filter_congr
  intro s hs
  have hlength := (mapM_eq_ok_iff.1 (hmeans s hs)).length_eq
  rw [corroborates, Bool.eq_iff_iff]
  simp only [Bool.not_eq_true', ← Bool.not_eq_true, List.isEmpty_iff, ← List.length_eq_zero_iff, hlength]

theorem traverse_means_of_ok : Keyed.traverse (List.mapM mean)
    (Keyed.tabulate (cs.filter (p.corroborates q)).eraseDups (p.symbolDistances q)) =
      .ok (Keyed.tabulate (cs.filter (p.corroborates q)).eraseDups means) := by
  refine Keyed.traverse_tabulate_eq_ok_iff.2 ⟨Keyed.keys_tabulate _ _, ?_⟩
  intro x hx
  obtain ⟨s, hs, rfl⟩ := List.mem_map.1 hx
  exact hmeans s (List.mem_filter.1 (List.mem_eraseDups.1 hs)).1

end

theorem exists_means_or_error (q : LineSequence) (cs : List String) :
    (∃ s ∈ cs, (p.symbolDistances q s).mapM mean = .error .quotientTooLarge) ∨
      ∃ means : String → List Binary64, ∀ s ∈ cs, (p.symbolDistances q s).mapM mean = .ok (means s) := by
  by_cases herror : ∃ s ∈ cs, (p.symbolDistances q s).mapM mean = .error .quotientTooLarge
  · exact .inl herror
  · refine .inr ⟨fun s => ((p.symbolDistances q s).mapM mean).toOption.getD [], fun s hs => ?_⟩
    cases hm : (p.symbolDistances q s).mapM mean with
    | error f => exact absurd ⟨s, hs, eq_of_mapM_mean_eq_error hm ▸ hm⟩ herror
    | ok ms => simp [hm, Except.toOption]

/-- The means of all candidates are taken, but only those that there are count. -/
theorem collect_means (q : LineSequence) (cs : List String) :
    (do
      let means ← cs.mapM fun s => do return (s, ← (p.symbolDistances q s).mapM mean)
      return Keyed.collect (fun m => if m.2.isEmpty then none else some m) means) =
    Keyed.traverse (List.mapM mean)
      (Keyed.tabulate (cs.filter (p.corroborates q)).eraseDups (p.symbolDistances q)) := by
  rcases exists_means_or_error q cs with ⟨s, hs, hf⟩ | ⟨means, hmeans⟩
  · have hkept : s ∈ (cs.filter (p.corroborates q)).eraseDups := by
      rw [List.mem_eraseDups, List.mem_filter]
      refine ⟨hs, ?_⟩
      rw [corroborates]
      cases hnil : p.symbolDistances q s with
      | nil => rw [hnil] at hf; cases hf
      | cons gaps rest => rfl
    rw [mapM_means_of_error hs hf]
    symm
    exact (Keyed.traverse_eq_error_iff fun _ _ => eq_of_mapM_mean_eq_error).2
      ⟨_, List.mem_map_of_mem hkept, hf⟩
  · rw [mapM_means_of_ok hmeans, traverse_means_of_ok hmeans, filter_corroborates_of_ok hmeans,
      ← Keyed.collect_eq_tabulate]
    change Except.ok (Keyed.collect _ (cs.map _)) = _
    rw [Keyed.collect_map]
    congr 2
    funext s
    cases hnil : (means s).isEmpty <;> simpa using hnil

def foundFor (p : Problem) (q : LineSequence) (cs : List String) : Keyed String (List (List Nat)) :=
  if cs.length ≤ 1 then []
  else Keyed.tabulate (cs.filter (p.corroborates q)).eraseDups (p.symbolDistances q)

section

variable (q : LineSequence) {cs : List String}

theorem foundFor_of_le (h : cs.length ≤ 1) : foundFor p q cs = [] :=
  if_pos h

theorem foundFor_of_lt (h : 1 < cs.length) : foundFor p q cs =
    Keyed.tabulate (cs.filter (p.corroborates q)).eraseDups (p.symbolDistances q) :=
  if_neg (by omega)

/-- The candidates for which something is found are those that a symbol speaks for. -/
theorem keptBy_foundFor (cs : List String) :
    (if (foundFor p q cs).isEmpty then cs else cs.filter (foundFor p q cs).keys.contains) =
      Matching.whenAmbiguous (fun candidates =>
        match candidates.filter (p.corroborates q) with
        | [] => candidates
        | kept => kept) cs := by
  by_cases hlen : cs.length ≤ 1
  · rw [whenAmbiguous_of_le _ hlen, foundFor_of_le q hlen]
    rfl
  · have hkeys : cs.filter (foundFor p q cs).keys.contains = cs.filter (p.corroborates q) := by
      rw [foundFor_of_lt q (by omega), Keyed.keys_tabulate]
      apply List.filter_congr
      intro s hs
      simp [hs]
    rw [hkeys, foundFor_of_lt q (by omega), Matching.whenAmbiguous, if_neg hlen]
    cases cs.filter (p.corroborates q) with
    | nil => rfl
    | cons s rest =>
        rw [List.eraseDups_cons]
        rfl

theorem recordedFor_foundFor (cs : List String) (i : Nat) :
    (if (foundFor p q cs).isEmpty then none else some (i, foundFor p q cs)) =
      if cs.length ≤ 1 then none
      else
        match (cs.filter (p.corroborates q)).eraseDups with
        | [] => none
        | kept => some (i, kept.map fun s => (s, p.symbolDistances q s)) := by
  by_cases hlen : cs.length ≤ 1
  · rw [if_pos hlen, foundFor_of_le q hlen]
    rfl
  · rw [if_neg hlen, foundFor_of_lt q (by omega)]
    cases (cs.filter (p.corroborates q)).eraseDups <;> rfl

end

abbrev meansFor (p : Problem) (q : LineSequence) (cs : List String) :
    Except Fault (Keyed String (List Binary64)) :=
  Keyed.traverse (List.mapM mean) (foundFor p q cs)

theorem spokenFor_eq {i : Nat} {q : LineSequence} (hq : p.sequences[i]? = some q) (cs : List String) :
    (if cs.length ≤ 1 then pure [] else spokenFor p i cs) = answered (meansFor p q cs) := by
  split
  · rename_i hlen
    rw [meansFor, foundFor_of_le q hlen]
    rfl
  · rename_i hlen
    have hmeans : (cs.mapM fun s => (do return (s, ← symbolDistances p q s) : Attempt _)) =
        answered (cs.mapM fun s => do return (s, ← (p.symbolDistances q s).mapM mean)) := by
      apply mapM_answered
      intro s _
      rw [symbolDistances_eq]
      exact answered_bind fun _ => rfl
    rw [meansFor, foundFor_of_lt q (by omega), ← collect_means, spokenFor, hq]
    change ((cs.mapM fun s => (do return (s, ← symbolDistances p q s) : Attempt _)) >>= _) = _
    rw [hmeans]
    exact answered_bind fun _ => rfl

theorem spoken_eq (h : p.Sound c) :
    (c.zipIdx.mapM fun (candidates, i) =>
      if candidates.length ≤ 1 then pure [] else spokenFor p i candidates) =
      answered ((p.sequences.zip c).mapM fun x => meansFor p x.1 x.2) := by
  have hplaces : List.Forall₂ (fun (x : List String × Nat) (y : (LineSequence × List String) × Nat) =>
      (if x.1.length ≤ 1 then pure [] else spokenFor p x.2 x.1 : Attempt _) =
        answered (meansFor p y.1.1 y.1.2)) c.zipIdx (p.sequences.zip c).zipIdx :=
    forall₂_zipIdx h fun i q cs hq _ => spokenFor_eq hq cs
  rw [mapM_congr_of_forall₂ hplaces, mapM_answered fun _ _ => rfl]
  conv_rhs => rw [← List.zipIdx_map_fst 0 (p.sequences.zip c), List.mapM_map]
  rfl

theorem isEmpty_of_traverse {g : Keyed String (List (List Nat))} {e : Keyed String (List Binary64)}
    (h : Keyed.traverse (List.mapM mean) g = .ok e) : e.isEmpty = g.isEmpty := by
  cases Keyed.traverse_eq_ok_iff.1 h <;> rfl

/-- Sequences for which nothing is found may be left out before the means are taken or afterwards. -/
theorem traverse_zipIdx {α β γ : Type} {f : List α → Except Fault (List β)} (hnil : f [] = .ok [])
    (hsome : ∀ {xs ys}, f xs = .ok ys → ys.isEmpty = xs.isEmpty) (g : γ → List α) (xs : List γ) (n : Nat) :
    Keyed.traverse f ((xs.zipIdx n).filterMap fun x =>
      if (g x.1).isEmpty then none else some (x.2, g x.1)) =
    (xs.mapM fun x => f (g x)).map fun results => (results.zipIdx n).filterMap fun x =>
      if x.1.isEmpty then none else some (x.2, x.1) := by
  induction xs generalizing n with
  | nil => rfl
  | cons x xs ih =>
      rw [List.zipIdx_cons, List.mapM_cons]
      cases hg : g x with
      | nil =>
          rw [List.filterMap_cons_none (by simp [hg]), ih, hnil]
          cases xs.mapM fun x => f (g x) <;> rfl
      | cons a as =>
          rw [List.filterMap_cons_some (b := (n, a :: as)) (by simp [hg]), Keyed.traverse_cons, ih]
          cases hf : f (a :: as) with
          | error e => rfl
          | ok ys =>
              cases ys with
              | nil => cases hsome hf
              | cons y ys => cases xs.mapM fun x => f (g x) <;> rfl

theorem filterBySymbol_eq (h : p.Sound c) : filterBySymbol p c =
    answered ((p.evidence c).map fun found => (p.filterBySymbol c, found)) := by
  have hdistances : p.distances c = (p.sequences.zip c).zipIdx.filterMap fun x =>
      if (foundFor p x.1.1 x.1.2).isEmpty then none else some (x.2, foundFor p x.1.1 x.1.2) := by
    rw [distances]
    congr 1
    funext x
    exact (recordedFor_foundFor x.1.1 x.1.2 x.2).symm
  have hevidence : p.evidence c = ((p.sequences.zip c).mapM fun x => meansFor p x.1 x.2).map
      fun spoken => spoken.zipIdx.filterMap fun x =>
        if x.1.isEmpty then none else some (x.2, x.1) := by
    rw [evidence, hdistances]
    exact traverse_zipIdx (f := Keyed.traverse (List.mapM mean)) rfl isEmpty_of_traverse
      (fun x : LineSequence × List String => foundFor p x.1 x.2) _ 0
  rw [filterBySymbol, spoken_eq h, hevidence]
  cases hspoken : (p.sequences.zip c).mapM fun x => meansFor p x.1 x.2 with
  | error f => rfl
  | ok spoken =>
      have hplaces := mapM_eq_ok_iff.1 hspoken
      have hkept : List.zipWith (fun cs (means : Keyed String (List Binary64)) =>
          if means.isEmpty then cs else cs.filter means.keys.contains) c spoken =
          p.filterBySymbol c := by
        rw [Problem.filterBySymbol, Problem.narrow]
        have hlength := hplaces.length_eq
        rw [List.length_zip, h.length_eq, Nat.min_self] at hlength
        apply List.ext_getElem
        · rw [List.length_zipWith, List.length_zipWith, h.length_eq, ← hlength, Nat.min_self]
        · intro i hi hi'
          rw [List.length_zipWith] at hi
          have hmeans := (List.forall₂_iff_get.1 hplaces).2 i (by simp; omega) (by omega)
          simp only [List.get_eq_getElem, List.getElem_zip] at hmeans
          simp only [List.getElem_zipWith]
          rw [Keyed.keys_of_traverse hmeans, isEmpty_of_traverse hmeans]
          exact keptBy_foundFor _ _
      exact congrArg (fun kept => answered (.ok (kept, _))) hkept

theorem filter_eq (h : p.Sound c) (stage : Stage) : filter p c stage =
    answered ((p.evidenceAt c stage).map fun found => (p.filter c stage, found)) := by
  cases stage with
  | size =>
      rw [filter, filterBySize_eq h]
      rfl
  | overlap =>
      rw [filter, filterByOverlap_eq h]
      rfl
  | alignment =>
      rw [filter, filterByAlignment_eq h]
      rfl
  | symbol => exact filterBySymbol_eq h
  | symbolOverlap =>
      rw [filter, filterByOverlap_eq h]
      rfl
  | bestEffort => rfl

end Checked

end LineAtlas.Matching
