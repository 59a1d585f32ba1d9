import LineAtlas.Instruction
import Mathlib.Order.Bounds.Basic

/-!
# How far a section reaches

An extent goes from the least address at which an entry begins to the greatest at which one ends. These are
the least address and the greatest end of all instructions where some entry begins before all of them and
some entry ends after all, as is so when the instructions of every entry come in order. A listing may have
an entry go back, by naming it again; then its extent may leave instructions out.
-/

namespace LineAtlas

namespace Extent

def firstAddresses (entries : Entries) : Set Int :=
  {a | ∃ e ∈ entries, ∃ i, e.2.head? = some i ∧ i.address = a}

def lastStops (entries : Entries) : Set Int :=
  {a | ∃ e ∈ entries, ∃ i, e.2.getLast? = some i ∧ i.stop = a}

def starts (entries : Entries) : Set Int :=
  {a | ∃ e ∈ entries, ∃ i ∈ e.2, i.address = a}

def stops (entries : Entries) : Set Int :=
  {a | ∃ e ∈ entries, ∃ i ∈ e.2, i.stop = a}

theorem firstAddresses_subset (entries : Entries) : firstAddresses entries ⊆ starts entries := by
  rintro a ⟨e, he, i, hi, rfl⟩
  exact ⟨e, he, i, List.mem_of_head? hi, rfl⟩

theorem lastStops_subset (entries : Entries) : lastStops entries ⊆ stops entries := by
  rintro a ⟨e, he, i, hi, rfl⟩
  exact ⟨e, he, i, List.mem_of_getLast? hi, rfl⟩

/-! ## The extent of a section -/

theorem ofRun?_eq_none_iff {run : List Instruction} : ofRun? run = none ↔ run = [] := by
  cases run <;> simp [ofRun?]

theorem map_low_ofRun? (run : List Instruction) :
    (ofRun? run).map low = run.head?.map Instruction.address := by
  cases run <;> rfl

theorem map_high_ofRun? (run : List Instruction) :
    (ofRun? run).map high = run.getLast?.map Instruction.stop := by
  cases run <;> rfl

/-- A section without an extent is one without an instruction. -/
theorem ofEntries?_eq_none_iff {entries : Entries} :
    ofEntries? entries = none ↔ ∀ e ∈ entries, e.2 = [] := by
  have hnil : (entries.filterMap fun e => ofRun? e.2) = [] ↔ ∀ e ∈ entries, e.2 = [] := by
    simp only [List.filterMap_eq_nil_iff, ofRun?_eq_none_iff]
  rw [ofEntries?, ← hnil]
  split
  · rename_i heq
    exact ⟨fun _ => heq, fun _ => rfl⟩
  · rename_i heq
    simp [heq]

/-- An end of the extent is put together from those ends of the entries, as joining puts two together. -/
theorem map_ofEntries? (f : Extent → Int) (op : Int → Int → Int)
    (hf : ∀ x y, f (join x y) = op (f x) (f y)) (entries : Entries) : (ofEntries? entries).map f =
      match entries.filterMap fun e => (ofRun? e.2).map f with
      | [] => none
      | a :: rest => some (rest.foldl op a) := by
  have hfold : ∀ (y : Extent) (ys : List Extent), (ys.map f).foldl op (f y) = f (ys.foldl join y) := by
    intro y ys
    rw [List.foldl_map]
    exact List.foldl_hom f fun x z => (hf x z).symm
  rw [← List.map_filterMap, ofEntries?]
  cases entries.filterMap fun e => ofRun? e.2 with
  | nil => rfl
  | cons y ys => simp only [Option.map_some, List.map_cons, hfold]

theorem map_low_ofEntries? (entries : Entries) : (ofEntries? entries).map low =
    (entries.filterMap fun e => e.2.head?.map Instruction.address).min? := by
  rw [map_ofEntries? low min fun _ _ => rfl]
  simp only [map_low_ofRun?]
  cases entries.filterMap fun e => e.2.head?.map Instruction.address <;> rfl

theorem map_high_ofEntries? (entries : Entries) : (ofEntries? entries).map high =
    (entries.filterMap fun e => e.2.getLast?.map Instruction.stop).max? := by
  rw [map_ofEntries? high max fun _ _ => rfl]
  simp only [map_high_ofRun?]
  cases entries.filterMap fun e => e.2.getLast?.map Instruction.stop <;> rfl

/-- An extent goes from the least address at which an entry begins to the greatest at which one ends. -/
theorem bounds_of_ofEntries? {entries : Entries} {x : Extent} (h : ofEntries? entries = some x) :
    IsLeast (firstAddresses entries) x.low ∧ IsGreatest (lastStops entries) x.high := by
  have hlow := map_low_ofEntries? entries
  have hhigh := map_high_ofEntries? entries
  rw [h, Option.map_some, eq_comm] at hlow hhigh
  have hfirst : ∀ a, (a ∈ entries.filterMap fun e => e.2.head?.map Instruction.address) ↔
      a ∈ firstAddresses entries := by
    simp [firstAddresses]
  have hlast : ∀ a, (a ∈ entries.filterMap fun e => e.2.getLast?.map Instruction.stop) ↔
      a ∈ lastStops entries := by
    simp [lastStops]
  simp only [List.min?_eq_some_iff, hfirst] at hlow
  simp only [List.max?_eq_some_iff, hlast] at hhigh
  exact ⟨hlow, hhigh⟩

/-- The extent is exact below where some entry begins before all instructions. -/
theorem isLeast_low_iff {entries : Entries} {x : Extent} (h : ofEntries? entries = some x) :
    IsLeast (starts entries) x.low ↔ ∃ a ∈ firstAddresses entries, a ∈ lowerBounds (starts entries) := by
  obtain ⟨hlow, -⟩ := bounds_of_ofEntries? h
  constructor
  · intro hleast
    exact ⟨x.low, hlow.1, hleast.2⟩
  · rintro ⟨a, ha, hbelow⟩
    refine ⟨firstAddresses_subset entries hlow.1, ?_⟩
    intro b hb
    exact (hlow.2 ha).trans (hbelow hb)

/-- The extent is exact above where some entry ends after all instructions. -/
theorem isGreatest_high_iff {entries : Entries} {x : Extent} (h : ofEntries? entries = some x) :
    IsGreatest (stops entries) x.high ↔ ∃ a ∈ lastStops entries, a ∈ upperBounds (stops entries) := by
  obtain ⟨-, hhigh⟩ := bounds_of_ofEntries? h
  constructor
  · intro hgreatest
    exact ⟨x.high, hhigh.1, hgreatest.2⟩
  · rintro ⟨a, ha, habove⟩
    refine ⟨lastStops_subset entries hhigh.1, ?_⟩
    intro b hb
    exact (habove hb).trans (hhigh.2 ha)

/-! ## Entries in order -/

/-- No instruction of a run begins or ends before an earlier one does. -/
def Ascending (run : List Instruction) : Prop :=
  run.Pairwise fun i j => i.address ≤ j.address ∧ i.stop ≤ j.stop

instance (run : List Instruction) : Decidable (Ascending run) :=
  inferInstanceAs (Decidable (List.Pairwise _ run))

theorem Ascending.address_le_of_head? {run : List Instruction} (h : Ascending run) {i j : Instruction}
    (hi : run.head? = some i) (hj : j ∈ run) : i.address ≤ j.address := by
  obtain ⟨rest, rfl⟩ := List.head?_eq_some_iff.1 hi
  rcases List.mem_cons.1 hj with rfl | hj
  · exact Int.le_refl _
  · exact ((List.pairwise_cons.1 h).1 j hj).1

theorem Ascending.stop_le_of_getLast? {run : List Instruction} (h : Ascending run) {i j : Instruction}
    (hi : run.getLast? = some i) (hj : j ∈ run) : j.stop ≤ i.stop := by
  obtain ⟨front, rfl⟩ := List.getLast?_eq_some_iff.1 hi
  rcases List.mem_append.1 hj with hj | hj
  · exact ((List.pairwise_append.1 h).2.2 j hj i (by simp)).2
  · exact Int.le_of_eq (congrArg Instruction.stop (List.mem_singleton.1 hj))

/-- The extent is exact when the instructions of every entry come in order. -/
theorem exact_of_ascending {entries : Entries} {x : Extent} (h : ofEntries? entries = some x)
    (hasc : ∀ e ∈ entries, Ascending e.2) :
    IsLeast (starts entries) x.low ∧ IsGreatest (stops entries) x.high := by
  obtain ⟨hlow, hhigh⟩ := bounds_of_ofEntries? h
  refine ⟨⟨firstAddresses_subset entries hlow.1, ?_⟩, lastStops_subset entries hhigh.1, ?_⟩
  · rintro a ⟨e, he, j, hj, rfl⟩
    obtain ⟨i, hi⟩ := Option.isSome_iff_exists.1 (List.isSome_head?.2 (List.ne_nil_of_mem hj))
    exact (hlow.2 ⟨e, he, i, hi, rfl⟩).trans ((hasc e he).address_le_of_head? hi hj)
  · rintro a ⟨e, he, j, hj, rfl⟩
    obtain ⟨i, hi⟩ := Option.isSome_iff_exists.1 (List.getLast?_isSome.2 (List.ne_nil_of_mem hj))
    exact ((hasc e he).stop_le_of_getLast? hi hj).trans (hhigh.2 ⟨e, he, i, hi, rfl⟩)

end Extent

end LineAtlas
