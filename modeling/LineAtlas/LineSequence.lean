import LineAtlas.SourcePosition

/-!
# Line sequences

A contiguous run of the line program: source positions by address, in order of address. Several positions
may share an address and are kept in the order in which they were recorded. Sequences with the same
positions at every address are equal, whatever the order in which addresses were first recorded.
-/

namespace LineAtlas

abbrev LineRow := Int × List SourcePosition

def insertPosition (address : Int) (p : SourcePosition) : List LineRow → List LineRow
  | [] => [(address, [p])]
  | (a, ps) :: rows =>
    if address < a then (address, [p]) :: (a, ps) :: rows
    else if address = a then (a, ps ++ [p]) :: rows
    else (a, ps) :: insertPosition address p rows

theorem mem_insertPosition_fst {address : Int} {p : SourcePosition} {rows : List LineRow}
    {row : LineRow} (h : row ∈ insertPosition address p rows) :
    row.1 = address ∨ ∃ old ∈ rows, old.1 = row.1 := by
  induction rows with
  | nil => simp_all [insertPosition]
  | cons r rows ih =>
    obtain ⟨a, ps⟩ := r
    simp only [insertPosition] at h
    split at h
    · rcases List.mem_cons.1 h with rfl | h
      · exact .inl rfl
      · exact .inr ⟨row, h, rfl⟩
    · split at h
      · rcases List.mem_cons.1 h with rfl | h
        · exact .inr ⟨(a, ps), by simp⟩
        · exact .inr ⟨row, List.mem_cons_of_mem _ h, rfl⟩
      · rcases List.mem_cons.1 h with rfl | h
        · exact .inr ⟨(a, ps), by simp⟩
        · rcases ih h with h | ⟨old, hold, h⟩
          · exact .inl h
          · exact .inr ⟨old, List.mem_cons_of_mem _ hold, h⟩

theorem pairwise_insertPosition (address : Int) (p : SourcePosition) {rows : List LineRow}
    (h : rows.Pairwise (·.1 < ·.1)) : (insertPosition address p rows).Pairwise (·.1 < ·.1) := by
  induction rows with
  | nil => simp [insertPosition]
  | cons r rows ih =>
    obtain ⟨a, ps⟩ := r
    obtain ⟨hr, hrows⟩ := List.pairwise_cons.1 h
    simp only [insertPosition]
    split
    · rename_i hlt
      refine List.pairwise_cons.2 ⟨fun row hrow => ?_, h⟩
      rcases List.mem_cons.1 hrow with rfl | hrow
      · exact hlt
      · exact Int.lt_trans hlt (hr row hrow)
    · split
      · exact List.pairwise_cons.2 ⟨hr, hrows⟩
      · refine List.pairwise_cons.2 ⟨fun row hrow => ?_, ih hrows⟩
        rcases mem_insertPosition_fst hrow with h | ⟨old, hold, h⟩
        · simp only [h]; omega
        · exact h ▸ hr old hold

theorem ne_nil_of_mem_insertPosition {address : Int} {p : SourcePosition} {rows : List LineRow}
    (h : ∀ row ∈ rows, row.2 ≠ []) : ∀ row ∈ insertPosition address p rows, row.2 ≠ [] := by
  induction rows with
  | nil => simp [insertPosition]
  | cons r rows ih =>
    obtain ⟨a, ps⟩ := r
    have hrows : ∀ row ∈ rows, row.2 ≠ [] := fun row hrow => h row (List.mem_cons_of_mem _ hrow)
    intro row hrow
    simp only [insertPosition] at hrow
    split at hrow
    · rcases List.mem_cons.1 hrow with rfl | hrow
      · simp
      · exact h row hrow
    · split at hrow
      · rcases List.mem_cons.1 hrow with rfl | hrow
        · simp
        · exact hrows row hrow
      · rcases List.mem_cons.1 hrow with rfl | hrow
        · exact h _ List.mem_cons_self
        · exact ih hrows row hrow

/-- Rows by strictly increasing address, each with at least one position. -/
structure LineSequence where
  rows : List LineRow
  sorted : rows.Pairwise (·.1 < ·.1)
  recorded : ∀ row ∈ rows, row.2 ≠ []

namespace LineSequence

theorem ext_rows {p q : LineSequence} (h : p.rows = q.rows) : p = q := by
  cases p; cases q; simp_all

instance : DecidableEq LineSequence := fun p q =>
  if h : p.rows = q.rows then isTrue (ext_rows h)
  else isFalse fun e => h (e ▸ rfl)

def empty : LineSequence :=
  ⟨[], .nil, by simp⟩

def add (q : LineSequence) (address : Int) (p : SourcePosition) : LineSequence :=
  ⟨insertPosition address p q.rows, pairwise_insertPosition address p q.sorted,
    ne_nil_of_mem_insertPosition q.recorded⟩

def ofList (rows : List (Int × SourcePosition)) : LineSequence :=
  rows.foldl (fun q (address, p) => q.add address p) empty

def size (q : LineSequence) : Nat :=
  q.rows.length

def isEmpty (q : LineSequence) : Bool :=
  q.rows.isEmpty

def addresses (q : LineSequence) : List Int :=
  q.rows.map Prod.fst

def start? (q : LineSequence) : Option Int :=
  q.addresses.head?

def stop? (q : LineSequence) : Option Int :=
  q.addresses.getLast?

def length? (q : LineSequence) : Option Int := do
  return (← q.stop?) - (← q.start?)

def positionsAt? (q : LineSequence) (address : Int) : Option (List SourcePosition) :=
  (q.rows.find? fun row => row.1 == address).map Prod.snd

end LineSequence

end LineAtlas
