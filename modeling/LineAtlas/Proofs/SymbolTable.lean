import LineAtlas.Proofs.Keyed
import LineAtlas.SymbolTable

/-!
# The symbol table by its rows

The table depends only on the lines of a dump that are rows. Each section is in it once, in the order of the first
rows, and in a section each address; under an address are the symbols of all its rows, in dump order.
-/

namespace LineAtlas.SymbolTable

open Text

def rows (lines : List String) : List Row :=
  lines.filterMap fun line => Row.ofText? (withoutLineEnd line)

def ofRows (rs : List Row) : SymbolTable :=
  rs.foldl add []

theorem ofRows_concat (rs : List Row) (r : Row) : ofRows (rs ++ [r]) = (ofRows rs).add r := by
  rw [ofRows, List.foldl_concat]
  rfl

def Row.symbol (r : Row) : SymbolAlias :=
  ⟨r.name, r.address + r.size⟩

def sectionsOf (rs : List Row) : List String :=
  (rs.map Row.home).eraseDups

def addressesIn (rs : List Row) (s : String) : List Int :=
  ((rs.filter (·.home = s)).map fun r => (r.address : Int)).eraseDups

def symbolsAt (rs : List Row) (s : String) (a : Int) : List SymbolAlias :=
  (rs.filter fun r => r.home = s ∧ (r.address : Int) = a).map Row.symbol

def symbolsIn (rs : List Row) (s : String) : Keyed Int (List SymbolAlias) :=
  Keyed.tabulate (addressesIn rs s) (symbolsAt rs s)

theorem mem_addressesIn {rs : List Row} {s : String} {a : Int} :
    a ∈ addressesIn rs s ↔ ∃ r ∈ rs, r.home = s ∧ (r.address : Int) = a := by
  simp [addressesIn, and_assoc]

theorem symbolsAt_eq_nil {rs : List Row} {s : String} {a : Int} (h : a ∉ addressesIn rs s) :
    symbolsAt rs s a = [] := by
  rw [mem_addressesIn] at h
  simp only [symbolsAt, List.map_eq_nil_iff, List.filter_eq_nil_iff, decide_eq_true_eq]
  exact fun r hr hrow => h ⟨r, hr, hrow⟩

theorem symbolsIn_eq_nil {rs : List Row} {s : String} (h : s ∉ sectionsOf rs) : symbolsIn rs s = [] := by
  have hnone : rs.filter (·.home = s) = [] := by
    simp only [List.filter_eq_nil_iff, decide_eq_true_eq]
    exact fun r hr hhome => h (List.mem_eraseDups.2 (List.mem_map.2 ⟨r, hr, hhome⟩))
  simp [symbolsIn, addressesIn, hnone, Keyed.tabulate]

/-! ## One more row -/

theorem sectionsOf_concat (rs : List Row) (r : Row) : sectionsOf (rs ++ [r]) =
    if r.home ∈ sectionsOf rs then sectionsOf rs else sectionsOf rs ++ [r.home] := by
  rw [sectionsOf, List.map_append, List.map_singleton, eraseDups_concat]
  rfl

theorem addressesIn_concat_self (rs : List Row) (r : Row) : addressesIn (rs ++ [r]) r.home =
    if (r.address : Int) ∈ addressesIn rs r.home then addressesIn rs r.home
    else addressesIn rs r.home ++ [(r.address : Int)] := by
  have hrow : [r].filter (·.home = r.home) = [r] := by simp
  rw [addressesIn, List.filter_append, hrow, List.map_append, List.map_singleton, eraseDups_concat]
  rfl

theorem symbolsAt_concat (rs : List Row) (r : Row) (s : String) (a : Int) : symbolsAt (rs ++ [r]) s a =
    if r.home = s ∧ (r.address : Int) = a then symbolsAt rs s a ++ [r.symbol] else symbolsAt rs s a := by
  by_cases h : r.home = s ∧ (r.address : Int) = a
  · simp [symbolsAt, List.filter_append, h]
  · simp [symbolsAt, List.filter_append, h]

theorem symbolsIn_concat_of_ne (rs : List Row) {r : Row} {s : String} (h : r.home ≠ s) :
    symbolsIn (rs ++ [r]) s = symbolsIn rs s := by
  have haddresses : addressesIn (rs ++ [r]) s = addressesIn rs s := by
    simp [addressesIn, List.filter_append, h]
  have hsymbols : symbolsAt (rs ++ [r]) s = symbolsAt rs s := by
    funext a
    simp [symbolsAt_concat, h]
  rw [symbolsIn, haddresses, hsymbols, symbolsIn]

theorem symbolsIn_concat_self (rs : List Row) (r : Row) : symbolsIn (rs ++ [r]) r.home =
    Keyed.alter (symbolsIn rs r.home) (r.address : Int) fun names => names.getD [] ++ [r.symbol] := by
  have hhere : symbolsAt (rs ++ [r]) r.home (r.address : Int) =
      (if (r.address : Int) ∈ addressesIn rs r.home then some (symbolsAt rs r.home (r.address : Int))
        else none).getD [] ++ [r.symbol] := by
    rw [symbolsAt_concat, if_pos ⟨rfl, rfl⟩]
    split
    · rfl
    · rename_i hnew
      rw [symbolsAt_eq_nil hnew]
      rfl
  have helsewhere : ∀ a, a ≠ (r.address : Int) →
      symbolsAt (rs ++ [r]) r.home a = symbolsAt rs r.home a := by
    intro a ha
    rw [symbolsAt_concat, if_neg fun hrow => ha hrow.2.symm]
  rw [symbolsIn, symbolsIn, addressesIn_concat_self]
  exact (Keyed.alter_tabulate_of_nodup (nodup_eraseDups _) hhere helsewhere).symm

/-! ## The table -/

theorem ofRows_eq (rs : List Row) : ofRows rs = Keyed.tabulate (sectionsOf rs) (symbolsIn rs) := by
  induction rs using List.reverseRecOn with
  | nil => rfl
  | append_singleton rs r ih =>
      have hhere : symbolsIn (rs ++ [r]) r.home = Keyed.alter
          ((if r.home ∈ sectionsOf rs then some (symbolsIn rs r.home) else none).getD []) (r.address : Int)
          fun names => names.getD [] ++ [r.symbol] := by
        rw [symbolsIn_concat_self]
        split
        · rfl
        · rename_i hnew
          rw [symbolsIn_eq_nil hnew]
          rfl
      have helsewhere : ∀ s, s ≠ r.home → symbolsIn (rs ++ [r]) s = symbolsIn rs s :=
        fun s hs => symbolsIn_concat_of_ne rs hs.symm
      rw [ofRows_concat, ih, sectionsOf_concat]
      exact Keyed.alter_tabulate_of_nodup (nodup_eraseDups _) hhere helsewhere

theorem format_readLine : format.readLine = readLine := rfl

/-- A line adds its symbol if it is a row, and nothing otherwise. -/
theorem state_of_feedLine {r r' : Reading SymbolTable} {line : String}
    (h : (format.feedLine r line).outcome = .ok r') : r'.state = (rows [line]).foldl add r.state := by
  simp only [DumpFormat.feedLine, format_readLine, readLine] at h
  rw [rows]
  cases hrow : Row.ofText? (withoutLineEnd line) with
  | some row =>
      rw [hrow] at h
      cases h
      simp [hrow]
  | none =>
      rw [hrow] at h
      cases hfiller : isFiller (withoutLineEnd line) with
      | true =>
          rw [hfiller] at h
          cases h
          simp [hrow]
      | false =>
          rw [hfiller] at h
          cases h
          simp [hrow]

theorem state_of_feed {r r' : Reading SymbolTable} {lines : List String}
    (h : (format.feed r lines).outcome = .ok r') : r'.state = (rows lines).foldl add r.state := by
  induction lines generalizing r with
  | nil =>
      cases h
      rfl
  | cons line lines ih =>
      rw [DumpFormat.feed_cons, Logged.outcome_bind_eq_ok_iff] at h
      obtain ⟨r₁, hline, hlines⟩ := h
      rw [ih hlines, state_of_feedLine hline, ← List.foldl_append, rows, rows, ← List.filterMap_append,
        List.singleton_append]
      rfl

theorem state_of_read {lines : List String} {r : Reading SymbolTable} (h : (read lines).outcome = .ok r) :
    r.state = ofRows (rows lines) := by
  rw [read, Logged.outcome_bind_eq_ok_iff] at h
  obtain ⟨r', hread, h⟩ := h
  cases h
  exact state_of_feed hread

theorem inSection_ofRows (rs : List Row) (s : String) : (ofRows rs).inSection s = symbolsIn rs s := by
  rw [inSection, ofRows_eq, Keyed.get?_tabulate]
  split
  · rfl
  · rename_i hnew
    rw [symbolsIn_eq_nil hnew]
    rfl

end LineAtlas.SymbolTable
