import LineAtlas.Proofs.Keyed
import LineAtlas.Proofs.LineSequence

/-!
# Line sequences in the order of recording

A sequence may as well keep its addresses in the order in which they first came and bring them in order
whenever it is asked. Everything that can be seen of such a recording depends on its look-ups alone: the
addresses in order, the first and the last of them, and the rows that two sequences are compared by. So
two sequences are equal when they answer alike at every address, in whatever order they were recorded.
-/

namespace LineAtlas

/-- Positions by address, the addresses in the order in which they were first recorded. -/
structure Recording where
  rows : Keyed Int (List SourcePosition)
  nodup : (Keyed.keys rows).Nodup

namespace Recording

def empty : Recording :=
  ⟨[], .nil⟩

def add (t : Recording) (address : Int) (x : SourcePosition) : Recording :=
  ⟨Keyed.alter t.rows address fun ps => ps.getD [] ++ [x], Keyed.nodup_keys_alter t.nodup _ _⟩

def ofList (recorded : List (Int × SourcePosition)) : Recording :=
  recorded.foldl (fun t (address, x) => t.add address x) empty

variable (t : Recording)

def size : Nat :=
  t.rows.length

def addresses : List Int :=
  (Keyed.keys t.rows).mergeSort (· ≤ ·)

def start? : Option Int :=
  (Keyed.keys t.rows).min?

def stop? : Option Int :=
  (Keyed.keys t.rows).max?

def length? : Option Int := do
  return (← t.stop?) - (← t.start?)

def positionsAt? (address : Int) : Option (List SourcePosition) :=
  Keyed.get? t.rows address

/-- The rows by address. All that is looked up for them has to be there. -/
def fingerprint? : Option (List LineRow) :=
  t.addresses.mapM fun a => (t.positionsAt? a).map fun ps => (a, ps)

/-- Nothing tells a recording from a sequence. -/
structure Shows (q : LineSequence) : Prop where
  size : t.size = q.size
  addresses : t.addresses = q.addresses
  start : t.start? = q.start?
  stop : t.stop? = q.stop?
  length : t.length? = q.length?
  positions : ∀ a, t.positionsAt? a = q.positionsAt? a
  fingerprint : t.fingerprint? = some q.rows

variable {t} {q : LineSequence}

/-! ## What the look-ups decide -/

theorem keys_perm (h : ∀ a, t.positionsAt? a = q.positionsAt? a) :
    (Keyed.keys t.rows).Perm q.addresses := by
  rw [List.perm_ext_iff_of_nodup t.nodup (q.sorted_addresses.imp Int.ne_of_lt)]
  intro a
  rw [LineSequence.mem_addresses_iff, ← h a]
  simp [positionsAt?, Keyed.get?_eq_some_iff t.nodup, Keyed.keys]

theorem addresses_eq (h : ∀ a, t.positionsAt? a = q.positionsAt? a) : t.addresses = q.addresses :=
  mergeSort_eq_of_perm (keys_perm h) q.sorted_addresses

/-- The least and the greatest of the addresses are the first and the last of them in order. -/
theorem bounds_eq (h : ∀ a, t.positionsAt? a = q.positionsAt? a) :
    t.start? = q.start? ∧ t.stop? = q.stop? := by
  have hperm := keys_perm h
  rcases List.eq_nil_or_concat' q.addresses with hnil | ⟨front, last, hlast⟩
  · rw [hnil] at hperm
    simp [start?, stop?, LineSequence.start?, LineSequence.stop?, hnil, hperm.eq_nil]
  · have hmem : last ∈ q.addresses := by simp [hlast]
    obtain ⟨lo, hi, hlo, hhi⟩ := LineSequence.exists_bounds hmem
    have hbounds := LineSequence.bounds_of_mem_addresses hlo hhi
    rw [hlo, hhi, start?, stop?, List.min?_eq_some_iff, List.max?_eq_some_iff]
    refine ⟨⟨?_, ?_⟩, ?_, ?_⟩
    · exact hperm.mem_iff.2 (List.mem_of_head? hlo)
    · exact fun a ha => (hbounds a (hperm.mem_iff.1 ha)).1
    · exact hperm.mem_iff.2 (List.mem_of_getLast? hhi)
    · exact fun a ha => (hbounds a (hperm.mem_iff.1 ha)).2

theorem fingerprint?_eq (h : ∀ a, t.positionsAt? a = q.positionsAt? a) :
    t.fingerprint? = some q.rows := by
  rw [fingerprint?, addresses_eq h]
  apply Keyed.mapM_get?
  rintro ⟨a, ps⟩ hrow
  exact (h a).trans (LineSequence.positionsAt?_eq_some_iff.2 hrow)

theorem shows_of_positionsAt? (h : ∀ a, t.positionsAt? a = q.positionsAt? a) : t.Shows q := by
  obtain ⟨hstart, hstop⟩ := bounds_eq h
  refine ⟨?_, addresses_eq h, hstart, hstop, ?_, h, fingerprint?_eq h⟩
  · simpa [size, LineSequence.size, Keyed.keys, LineSequence.addresses] using (keys_perm h).length_eq
  · rw [length?, LineSequence.length?, hstart, hstop]

/-! ## One position after the other -/

theorem positionsAt?_add (t : Recording) (a b : Int) (x : SourcePosition) :
    (t.add a x).positionsAt? b =
      if a = b then some ((t.positionsAt? b).getD [] ++ [x]) else t.positionsAt? b := by
  rw [positionsAt?, positionsAt?, add, Keyed.get?_alter]
  grind

theorem ofList_concat (recorded : List (Int × SourcePosition)) (a : Int) (x : SourcePosition) :
    ofList (recorded ++ [(a, x)]) = (ofList recorded).add a x := by
  simp [ofList]

theorem shows_ofList (recorded : List (Int × SourcePosition)) :
    (ofList recorded).Shows (LineSequence.ofList recorded) := by
  apply shows_of_positionsAt?
  induction recorded using List.reverseRecOn with
  | nil => exact fun _ => rfl
  | append_singleton recorded row ih =>
      obtain ⟨a, x⟩ := row
      intro b
      rw [ofList_concat, LineSequence.ofList_concat, positionsAt?_add, LineSequence.positionsAt?_add, ih b]

/-! ## What is seen of a history -/

theorem mem_addresses_ofList {recorded : List (Int × SourcePosition)} {a : Int} :
    a ∈ (LineSequence.ofList recorded).addresses ↔ a ∈ recorded.map Prod.fst := by
  have hsome : (∃ ps, (LineSequence.ofList recorded).positionsAt? a = some ps) ↔
      recordedAt recorded a ≠ [] := by
    rw [LineSequence.positionsAt?_ofList]
    split <;> simp_all
  rw [LineSequence.mem_addresses_iff, hsome, recordedAt, Ne, List.map_eq_nil_iff, List.filter_eq_nil_iff]
  simp

theorem exists_ends_ofList {recorded : List (Int × SourcePosition)} (h : recorded ≠ []) :
    let q := LineSequence.ofList recorded
    ∃ lo hi, q.start? = some lo ∧ q.stop? = some hi ∧ lo ≤ hi ∧ q.length? = some (hi - lo) := by
  intro q
  obtain ⟨⟨a, x⟩, hrow⟩ := List.exists_mem_of_ne_nil _ h
  have ha : a ∈ q.addresses := mem_addresses_ofList.2 (List.mem_map_of_mem hrow)
  obtain ⟨lo, hi, hlo, hhi⟩ := LineSequence.exists_bounds ha
  have hbounds := LineSequence.bounds_of_mem_addresses hlo hhi a ha
  refine ⟨lo, hi, hlo, hhi, by omega, ?_⟩
  rw [LineSequence.length?, hlo, hhi]
  rfl

theorem fingerprint?_ofList_eq_iff {xs ys : List (Int × SourcePosition)} :
    (ofList xs).fingerprint? = (ofList ys).fingerprint? ↔
      LineSequence.ofList xs = LineSequence.ofList ys := by
  rw [(shows_ofList xs).fingerprint, (shows_ofList ys).fingerprint, Option.some_inj]
  exact ⟨LineSequence.ext_rows, congrArg LineSequence.rows⟩

theorem ofList_eq_iff_recordedAt {xs ys : List (Int × SourcePosition)} :
    LineSequence.ofList xs = LineSequence.ofList ys ↔ ∀ a, recordedAt xs a = recordedAt ys a := by
  rw [LineSequence.eq_iff_positionsAt?]
  apply forall_congr'
  intro a
  rw [LineSequence.positionsAt?_ofList, LineSequence.positionsAt?_ofList]
  grind

/-- Two positions recorded one after the other may change places if they are for different addresses or
the same position, and only then. -/
theorem ofList_swap_iff (before after : List (Int × SourcePosition)) (a b : Int) (x y : SourcePosition) :
    LineSequence.ofList (before ++ (a, x) :: (b, y) :: after) =
        LineSequence.ofList (before ++ (b, y) :: (a, x) :: after) ↔ a ≠ b ∨ x = y := by
  rw [ofList_eq_iff_recordedAt]
  simp only [recordedAt_append, recordedAt_cons, List.append_cancel_left_eq]
  constructor
  · intro h
    obtain rfl | hab := eq_or_ne a b
    · have hhere := h a
      simp only [if_true, List.cons.injEq] at hhere
      exact .inr hhere.1
    · exact .inl hab
  · rintro (hab | rfl) c
    · by_cases hac : a = c
      · have hbc : ¬ b = c := fun hbc => hab (hac.trans hbc.symm)
        rw [if_neg hbc, if_neg hbc]
      · rw [if_neg hac, if_neg hac]
    · by_cases hac : a = c <;> by_cases hbc : b = c <;> simp [hac, hbc]

theorem ofList_repeat_ne (before after : List (Int × SourcePosition)) (a : Int) (x : SourcePosition) :
    LineSequence.ofList (before ++ (a, x) :: after) ≠ LineSequence.ofList (before ++ after) := by
  rw [Ne, ofList_eq_iff_recordedAt]
  intro h
  have hlen := congrArg List.length (h a)
  simp [recordedAt_append, recordedAt_cons] at hlen

/-- All that is seen of a sequence is decided by the positions recorded at each address. These are what a
look-up gives, in the order in which they came, and nothing where none came; the addresses are those that
came, each once and in order, and the first and the last of them are the ends that the length is measured
between. Two histories give the same fingerprint when their look-ups agree at every address. So positions
for different addresses may come in any order, but those for one address may neither change places nor
be left out or repeated. -/
theorem ofList_observed (xs ys : List (Int × SourcePosition)) :
    let t := ofList xs
    let u := ofList ys
    t.Shows (LineSequence.ofList xs) ∧
      (∀ a, t.positionsAt? a = if recordedAt xs a = [] then none else some (recordedAt xs a)) ∧
      t.addresses.Pairwise (· < ·) ∧ (∀ a, a ∈ t.addresses ↔ a ∈ xs.map Prod.fst) ∧
      (xs = [] ∧ t.start? = none ∧ t.stop? = none ∧ t.length? = none ∨
        ∃ lo hi, t.addresses.head? = some lo ∧ t.addresses.getLast? = some hi ∧
          t.start? = some lo ∧ t.stop? = some hi ∧ lo ≤ hi ∧ t.length? = some (hi - lo)) ∧
      (t.fingerprint? = u.fingerprint? ↔ ∀ a, t.positionsAt? a = u.positionsAt? a) ∧
      (t.fingerprint? = u.fingerprint? ↔ LineSequence.ofList xs = LineSequence.ofList ys) ∧
      (t.fingerprint? = u.fingerprint? ↔ ∀ a, recordedAt xs a = recordedAt ys a) ∧
      (∀ before after a b x y, (ofList (before ++ (a, x) :: (b, y) :: after)).fingerprint? =
          (ofList (before ++ (b, y) :: (a, x) :: after)).fingerprint? ↔ a ≠ b ∨ x = y) ∧
      ∀ before after a x, (ofList (before ++ (a, x) :: after)).fingerprint? ≠
        (ofList (before ++ after)).fingerprint? := by
  intro t u
  have ht : t.Shows (LineSequence.ofList xs) := shows_ofList xs
  have hu : u.Shows (LineSequence.ofList ys) := shows_ofList ys
  refine ⟨ht, ?_, ?_, ?_, ?_, ?_, fingerprint?_ofList_eq_iff, ?_, ?_, ?_⟩
  · intro a
    rw [ht.positions, LineSequence.positionsAt?_ofList]
  · rw [ht.addresses]
    exact LineSequence.sorted_addresses _
  · intro a
    rw [ht.addresses, mem_addresses_ofList]
  · rw [ht.addresses, ht.start, ht.stop, ht.length]
    by_cases hnil : xs = []
    · subst hnil
      exact .inl ⟨rfl, rfl, rfl, rfl⟩
    · obtain ⟨lo, hi, hlo, hhi, hle, hlength⟩ := exists_ends_ofList hnil
      exact .inr ⟨lo, hi, hlo, hhi, hlo, hhi, hle, hlength⟩
  · rw [fingerprint?_ofList_eq_iff, LineSequence.eq_iff_positionsAt?]
    simp only [ht.positions, hu.positions]
  · rw [fingerprint?_ofList_eq_iff, ofList_eq_iff_recordedAt]
  · intro before after a b x y
    rw [fingerprint?_ofList_eq_iff, ofList_swap_iff]
  · intro before after a x
    rw [Ne, fingerprint?_ofList_eq_iff]
    exact ofList_repeat_ne before after a x

/-- The last address comes first, and another comes between its two positions. -/
example :
    let x : SourcePosition := ⟨some "a.c", 1, 0, true, 0⟩
    let y : SourcePosition := ⟨some "a.c", 2, 0, true, 0⟩
    let t := ofList [(8, x), (4, y), (8, y)]
    t.rows = [(8, [x, y]), (4, [y])] ∧ t.fingerprint? = some [(4, [y]), (8, [x, y])] ∧
      t.length? = some 4 ∧ t.positionsAt? 6 = none := by
  cbv

end Recording

end LineAtlas
