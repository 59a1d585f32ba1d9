import LineAtlas.Span
import Mathlib.Data.List.Induction

/-!
# What a line sequence answers

Looking up an address of a sequence gives the positions recorded for it, in the order in which they
were recorded. The span of a sequence reaches from its least to its greatest address, so it contains
every address that has a row.
-/

namespace LineAtlas

def recordedAt (recorded : List (Int × SourcePosition)) (a : Int) : List SourcePosition :=
  (recorded.filter (·.1 = a)).map Prod.snd

theorem recordedAt_concat (recorded : List (Int × SourcePosition)) (a b : Int) (x : SourcePosition) :
    recordedAt (recorded ++ [(a, x)]) b =
      if a = b then recordedAt recorded b ++ [x] else recordedAt recorded b := by
  by_cases h : a = b <;> simp [recordedAt, h]

theorem recordedAt_append (before after : List (Int × SourcePosition)) (a : Int) :
    recordedAt (before ++ after) a = recordedAt before a ++ recordedAt after a := by
  simp [recordedAt]

theorem recordedAt_cons (a b : Int) (x : SourcePosition) (recorded : List (Int × SourcePosition)) :
    recordedAt ((a, x) :: recorded) b =
      if a = b then x :: recordedAt recorded b else recordedAt recorded b := by
  by_cases h : a = b <;> simp [recordedAt, h]

def positionsIn? (rows : List LineRow) (a : Int) : Option (List SourcePosition) :=
  (rows.find? (·.1 == a)).map Prod.snd

theorem positionsIn?_cons (row : LineRow) (rows : List LineRow) (a : Int) :
    positionsIn? (row :: rows) a = if row.1 = a then some row.2 else positionsIn? rows a := by
  by_cases h : row.1 = a <;> simp [positionsIn?, h]

theorem positionsIn?_eq_none {rows : List LineRow} {a : Int} (h : ∀ row ∈ rows, a < row.1) :
    positionsIn? rows a = none := by
  rw [positionsIn?, Option.map_eq_none_iff, List.find?_eq_none]
  intro row hrow
  have := h row hrow
  simp only [beq_iff_eq]
  omega

theorem positionsIn?_eq_some_iff {rows : List LineRow} (h : rows.Pairwise (·.1 < ·.1)) {a : Int}
    {ps : List SourcePosition} : positionsIn? rows a = some ps ↔ (a, ps) ∈ rows := by
  induction rows with
  | nil => simp [positionsIn?]
  | cons row rows ih =>
      obtain ⟨hrow, hrows⟩ := List.pairwise_cons.1 h
      rw [positionsIn?_cons, List.mem_cons]
      by_cases ha : row.1 = a
      · have hnot : (a, ps) ∉ rows := fun hmem => by
          have := hrow _ hmem
          omega
        simp only [if_pos ha, Option.some.injEq, hnot, or_false]
        constructor
        · rintro rfl
          rw [← ha]
        · rintro rfl
          rfl
      · have hne : (a, ps) ≠ row := fun e => ha (e ▸ rfl)
        simp [if_neg ha, ih hrows, hne]

theorem recordedAt_flatMap {rows : List LineRow} (h : rows.Pairwise (·.1 < ·.1)) (a : Int) :
    recordedAt (rows.flatMap fun row => row.2.map fun x => (row.1, x)) a =
      (positionsIn? rows a).getD [] := by
  induction rows with
  | nil => simp [recordedAt, positionsIn?]
  | cons row rows ih =>
      obtain ⟨hrow, hrows⟩ := List.pairwise_cons.1 h
      have hsplit : recordedAt ((row :: rows).flatMap fun row => row.2.map fun x => (row.1, x)) a =
          (if row.1 = a then row.2 else []) ++ (positionsIn? rows a).getD [] := by
        rw [← ih hrows]
        by_cases ha : row.1 = a
        · have hall : (row.2.map fun x => (a, x)).filter (·.1 = a) = row.2.map fun x => (a, x) :=
            List.filter_eq_self.2 fun y hy => by
              obtain ⟨x, -, rfl⟩ := List.mem_map.1 hy
              simp
          simp [recordedAt, ha, hall, Function.comp_def]
        · simp [recordedAt, ha]
      rw [hsplit, positionsIn?_cons]
      split
      · rename_i ha
        -- Later rows lie at greater addresses.
        rw [positionsIn?_eq_none fun r hr => ha ▸ hrow r hr]
        simp
      · rfl

theorem positionsIn?_insertPosition {rows : List LineRow} (h : rows.Pairwise (·.1 < ·.1)) (a b : Int)
    (x : SourcePosition) : positionsIn? (insertPosition a x rows) b =
      if a = b then some ((positionsIn? rows b).getD [] ++ [x]) else positionsIn? rows b := by
  induction rows with
  | nil => simp [insertPosition, positionsIn?]
  | cons row rows ih =>
      obtain ⟨a', ps⟩ := row
      obtain ⟨hrow, hrows⟩ := List.pairwise_cons.1 h
      rw [insertPosition]
      split
      · rename_i hlt
        -- The new row comes before all others, so none of them is about its address.
        have hnone : positionsIn? ((a', ps) :: rows) a = none := by
          apply positionsIn?_eq_none
          intro row hmem
          rcases List.mem_cons.1 hmem with rfl | hmem
          · exact hlt
          · exact Int.lt_trans hlt (hrow row hmem)
        rw [positionsIn?_cons]
        by_cases hab : a = b
        · subst b
          simp [hnone]
        · simp [hab]
      · rename_i hnot
        split
        · rename_i heq
          subst a'
          by_cases hab : a = b <;> simp [positionsIn?_cons, hab]
        · rename_i hne
          rw [positionsIn?_cons, positionsIn?_cons, ih hrows]
          by_cases hab : a = b
          · subst b
            have hne' : ¬ a' = a := fun e => hne e.symm
            simp [hne']
          · simp [hab]

namespace LineSequence

theorem positionsAt?_eq_some_iff {q : LineSequence} {a : Int} {ps : List SourcePosition} :
    q.positionsAt? a = some ps ↔ (a, ps) ∈ q.rows :=
  positionsIn?_eq_some_iff q.sorted

theorem sorted_addresses (q : LineSequence) : q.addresses.Pairwise (· < ·) :=
  List.pairwise_map.2 q.sorted

theorem mem_addresses_iff {q : LineSequence} {a : Int} :
    a ∈ q.addresses ↔ ∃ ps, q.positionsAt? a = some ps := by
  simp [addresses, positionsAt?_eq_some_iff]

/-- Sequences are told apart by what they answer. -/
theorem eq_iff_positionsAt? {q r : LineSequence} :
    q = r ↔ ∀ a, q.positionsAt? a = r.positionsAt? a := by
  constructor
  · rintro rfl a
    rfl
  · intro h
    have hnodup (q : LineSequence) : q.rows.Nodup :=
      q.sorted.imp fun {x y} hlt heq => Int.ne_of_lt hlt (congrArg Prod.fst heq)
    have hperm : q.rows.Perm r.rows := by
      rw [List.perm_ext_iff_of_nodup (hnodup q) (hnodup r)]
      rintro ⟨a, ps⟩
      rw [← positionsAt?_eq_some_iff, ← positionsAt?_eq_some_iff, h a]
    apply ext_rows
    apply hperm.eq_of_pairwise _ q.sorted r.sorted
    intro x y _ _ hxy hyx
    omega

def toList (q : LineSequence) : List (Int × SourcePosition) :=
  q.rows.flatMap fun row => row.2.map fun x => (row.1, x)

theorem recordedAt_toList (q : LineSequence) (a : Int) :
    recordedAt q.toList a = (q.positionsAt? a).getD [] :=
  recordedAt_flatMap q.sorted a

theorem positionsAt?_add (q : LineSequence) (a b : Int) (x : SourcePosition) :
    (q.add a x).positionsAt? b =
      if a = b then some ((q.positionsAt? b).getD [] ++ [x]) else q.positionsAt? b :=
  positionsIn?_insertPosition q.sorted a b x

theorem ofList_concat (recorded : List (Int × SourcePosition)) (a : Int) (x : SourcePosition) :
    ofList (recorded ++ [(a, x)]) = (ofList recorded).add a x := by
  simp [ofList]

/-- A lookup answers with the positions recorded for the address, in order, if there are any. -/
theorem positionsAt?_ofList (recorded : List (Int × SourcePosition)) (a : Int) :
    (ofList recorded).positionsAt? a =
      if recordedAt recorded a = [] then none else some (recordedAt recorded a) := by
  induction recorded using List.reverseRecOn with
  | nil => rfl
  | append_singleton recorded row ih =>
      obtain ⟨b, x⟩ := row
      rw [ofList_concat, positionsAt?_add, recordedAt_concat, ih]
      by_cases hba : b = a
      · by_cases hnil : recordedAt recorded a = [] <;> simp [hba, hnil]
      · simp [hba]

theorem positionsAt?_ofList_eq_some_iff {recorded : List (Int × SourcePosition)} {a : Int}
    {ps : List SourcePosition} :
    (ofList recorded).positionsAt? a = some ps ↔ recordedAt recorded a = ps ∧ ps ≠ [] := by
  rw [positionsAt?_ofList]
  split
  · rename_i hnil
    constructor
    · intro h
      cases h
    · rintro ⟨rfl, hne⟩
      exact absurd hnil hne
  · rename_i hne
    constructor
    · intro h
      cases h
      exact ⟨rfl, hne⟩
    · rintro ⟨rfl, -⟩
      rfl

theorem bounds_of_mem_addresses {q : LineSequence} {lo hi : Int} (hlo : q.start? = some lo)
    (hhi : q.stop? = some hi) : ∀ a ∈ q.addresses, lo ≤ a ∧ a ≤ hi := by
  have hsorted := q.sorted_addresses
  rw [start?] at hlo
  rw [stop?] at hhi
  intro a ha
  constructor
  · obtain ⟨rest, hrest⟩ := List.head?_eq_some_iff.1 hlo
    rw [hrest] at ha hsorted
    rcases List.mem_cons.1 ha with rfl | ha
    · omega
    · exact Int.le_of_lt (List.rel_of_pairwise_cons hsorted ha)
  · obtain ⟨front, hfront⟩ := List.getLast?_eq_some_iff.1 hhi
    rw [hfront] at ha hsorted
    rcases List.mem_append.1 ha with ha | ha
    · exact Int.le_of_lt ((List.pairwise_append.1 hsorted).2.2 a ha hi (by simp))
    · have hlast := List.mem_singleton.1 ha
      omega

theorem exists_bounds {q : LineSequence} {a : Int} (ha : a ∈ q.addresses) :
    ∃ lo hi, q.start? = some lo ∧ q.stop? = some hi := by
  have hne : q.addresses ≠ [] := List.ne_nil_of_mem ha
  exact ⟨_, _, List.head?_eq_some_head hne, List.getLast?_eq_some_getLast hne⟩

theorem span_contains_of_mem_addresses {q : LineSequence} {a : Int} (ha : a ∈ q.addresses) :
    q.span.contains a = true := by
  obtain ⟨lo, hi, hlo, hhi⟩ := exists_bounds ha
  have := bounds_of_mem_addresses hlo hhi a ha
  rw [Span.contains_iff]
  simpa [span, hlo, hhi] using this

theorem span_contains_of_positionsAt? {q : LineSequence} {a : Int} {ps : List SourcePosition}
    (h : q.positionsAt? a = some ps) : q.span.contains a = true :=
  span_contains_of_mem_addresses (mem_addresses_iff.2 ⟨ps, h⟩)

/-- The span of a sequence with rows ends at its least and at its greatest address. -/
theorem span_bounds {q : LineSequence} (h : q.isEmpty = false) :
    q.span.start ∈ q.addresses ∧ q.span.stop ∈ q.addresses ∧
      ∀ a ∈ q.addresses, q.span.start ≤ a ∧ a ≤ q.span.stop := by
  obtain ⟨a, ha⟩ : ∃ a, a ∈ q.addresses := by
    apply List.exists_mem_of_ne_nil
    simpa [isEmpty, addresses] using h
  obtain ⟨lo, hi, hlo, hhi⟩ := exists_bounds ha
  simp only [span, hlo, hhi, Option.getD_some]
  exact ⟨List.mem_of_head? hlo, List.mem_of_getLast? hhi, bounds_of_mem_addresses hlo hhi⟩

theorem span_start_le_stop (q : LineSequence) : q.span.start ≤ q.span.stop := by
  cases hrows : q.addresses with
  | nil => simp [span, start?, stop?, hrows]
  | cons a rest =>
      have ha : a ∈ q.addresses := by simp [hrows]
      have h := Span.contains_iff.1 (span_contains_of_mem_addresses ha)
      omega

end LineSequence

end LineAtlas
