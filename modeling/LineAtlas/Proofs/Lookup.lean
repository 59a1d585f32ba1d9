import LineAtlas.Proofs.LineProgram
import LineAtlas.Proofs.Matching.Run
import LineAtlas.Snapshot

/-!
# Looking up addresses

The intervals of a section are searched by halving for the last that starts no later than an address.
Since they are apart, it is the only one that can contain the address, and since an interval reaches
over all addresses of its sequence, no recorded position is missed.
-/

namespace LineAtlas

namespace Matching

def countUpTo (xs : List Interval) (a : Int) : Nat :=
  Halving.partitionPoint (fun y => decide (y.span.start ≤ a)) xs.toArray

theorem countUpTo_le (xs : List Interval) (a : Int) : countUpTo xs a ≤ xs.length := by
  have h := Halving.partitionPoint_le (fun y : Interval => decide (y.span.start ≤ a)) xs.toArray
  rwa [List.size_toArray] at h

namespace Apart

variable {xs : List Interval} (h : Apart xs)
include h

theorem lt_countUpTo_iff (a : Int) {i : Nat} (hi : i < xs.length) :
    i < countUpTo xs a ↔ xs[i].span.start ≤ a := by
  have hstarts := List.pairwise_iff_getElem.1 h.starts_increase
  have hfirst : ∀ j k (hk : k < xs.toArray.size) (hjk : j ≤ k),
      decide (xs.toArray[k].span.start ≤ a) = true →
        decide (xs.toArray[j].span.start ≤ a) = true := by
    intro j k hk hjk hle
    rw [List.size_toArray] at hk
    simp only [List.getElem_toArray, decide_eq_true_eq] at hle ⊢
    rcases Nat.lt_or_eq_of_le hjk with hlt | rfl
    · have := hstarts j k (by omega) hk hlt
      omega
    · exact hle
  rw [countUpTo, Halving.lt_partitionPoint_iff hfirst (by simpa using hi)]
  simp

/-- The interval that contains an address is the last that starts no later. -/
theorem countUpTo_eq {a : Int} {i : Nat} (hi : i < xs.length)
    (ha : xs[i].span.contains a = true) : countUpTo xs a = i + 1 := by
  have hcontains := Span.contains_iff.1 ha
  have hlt : i < countUpTo xs a := (h.lt_countUpTo_iff a hi).2 hcontains.1
  have hle := countUpTo_le xs a
  by_contra hne
  have hnext : i + 1 < xs.length := by omega
  have hstart := (h.lt_countUpTo_iff a hnext).1 (by omega)
  have hbefore := List.pairwise_iff_getElem.1 h.before i (i + 1) hi hnext (by omega)
  omega

theorem find?_contains_eq_some_iff {a : Int} {x : Interval} :
    xs.find? (·.span.contains a) = some x ↔ x ∈ xs ∧ x.span.contains a = true := by
  have hfound : ∀ {y}, xs.find? (·.span.contains a) = some y →
      y ∈ xs ∧ y.span.contains a = true := by
    intro y hfind
    have hcontains := List.find?_some (p := fun z : Interval => z.span.contains a) hfind
    exact ⟨List.mem_of_find?_eq_some hfind, hcontains⟩
  constructor
  · exact hfound
  · rintro ⟨hx, hxa⟩
    cases hfind : xs.find? (·.span.contains a) with
    | none => exact absurd hxa (List.find?_eq_none.1 hfind x hx)
    | some y =>
        obtain ⟨hy, hya⟩ := hfound hfind
        rw [h.eq_of_contains hx hy hxa hya]

end Apart

end Matching

namespace Snapshot

open Matching

def problem (x : Snapshot) : Problem :=
  ⟨x.sections, x.code, x.sequences, x.symbols, x.declarations⟩

theorem resolve?_eq (x : Snapshot) (s : String) (a : Int) : x.resolve? s a =
    (x.intervalAt? s a).bind fun y => x.sequences[y.index]?.bind (·.positionsAt? a) := rfl

/-- Parts make a snapshot unless their matching is at fault. -/
theorem outcome_assemble (listing : Listing) (symbols : SymbolTable) (nodes : NodeTable)
    (lines : LineProgram) (compilationDirectory path : Option String) :
    (assemble listing symbols nodes lines compilationDirectory path).outcome =
      let declarations := DeclarationTable.join nodes.resolve lines.files
      (Problem.run ⟨listing.sections, listing.code, lines.sequences, symbols, declarations⟩).map
        fun matching =>
          { path, compilationDirectory, code := listing.code, symbols, sequences := lines.sequences,
            files := lines.files, declarations, matching,
            ranges := matching.table.map fun t => (t.1, t.2.toArray) } := by
  simp only [assemble, Logged.outcome_bind, Logged.say, Logged.attempt]
  generalize Problem.run _ = matching
  cases matching <;> rfl

structure Assembled (x : Snapshot) : Prop where
  matching : x.problem.run = .ok x.matching
  ranges : x.ranges = x.matching.table.map fun p => (p.1, p.2.toArray)

theorem assembled_of_assemble {listing : Listing} {symbols : SymbolTable} {nodes : NodeTable}
    {lines : LineProgram} {compilationDirectory path : Option String} {x : Snapshot}
    (h : (assemble listing symbols nodes lines compilationDirectory path).outcome = .ok x) :
    x.Assembled ∧ x.sequences = lines.sequences := by
  rw [outcome_assemble, Except.map_eq_ok_iff] at h
  obtain ⟨matching, hmatching, rfl⟩ := h
  exact ⟨⟨hmatching, rfl⟩, rfl⟩

theorem assembled_of_ofDumps {d : Dumps} {compilationDirectory path : Option String} {x : Snapshot}
    (h : (ofDumps d compilationDirectory path).outcome = .ok x) :
    x.Assembled ∧ x.sequences = (LineProgram.recordedSequences d.lines).map .ofList := by
  simp only [ofDumps, Logged.outcome_bind_eq_ok_iff] at h
  obtain ⟨listing, -, symbols, -, info, -, lines, hlines, h⟩ := h
  obtain ⟨hx, hsequences⟩ := assembled_of_assemble h
  exact ⟨hx, hsequences.trans (LineProgram.sequences_of_read hlines)⟩

namespace Assembled

variable {x : Snapshot} (hx : x.Assembled)
include hx

theorem mem_intervals {s : String} {y : Interval} :
    y ∈ x.intervals s ↔ ∃ xs, (s, xs) ∈ x.matching.table ∧ y ∈ xs := by
  have hkeys : (Keyed.keys x.matching.table).Nodup := Problem.nodup_keys_run_table hx.matching
  constructor
  · intro hy
    cases hget : Keyed.get? x.matching.table s with
    | none => simp [intervals, hget] at hy
    | some xs =>
        rw [intervals, hget, Option.getD_some] at hy
        exact ⟨xs, Keyed.mem_of_get? hget, hy⟩
  · rintro ⟨xs, hmem, hy⟩
    rw [intervals, (Keyed.get?_eq_some_iff hkeys).2 hmem]
    exact hy

theorem binds_iff {i : Nat} {s : String} :
    x.matching.table.Binds i s ↔ ∃ y ∈ x.intervals s, y.index = i := by
  constructor
  · rintro ⟨xs, hmem, y, hy, rfl⟩
    exact ⟨y, hx.mem_intervals.2 ⟨xs, hmem, hy⟩, rfl⟩
  · rintro ⟨y, hy, rfl⟩
    obtain ⟨xs, hmem, hy⟩ := hx.mem_intervals.1 hy
    exact ⟨xs, hmem, y, hy, rfl⟩

theorem apart_intervals (s : String) : Apart (x.intervals s) := by
  rw [intervals]
  cases hget : Keyed.get? x.matching.table s with
  | none => exact apart_nil
  | some xs => exact (Problem.mem_run_table hx.matching (Keyed.mem_of_get? hget)).2.2.1

theorem exists_sequence {s : String} {y : Interval} (hy : y ∈ x.intervals s) :
    ∃ q, x.sequences[y.index]? = some q ∧ y.span = q.span := by
  obtain ⟨xs, hmem, hy⟩ := hx.mem_intervals.1 hy
  obtain ⟨-, -, -, hplaced⟩ := Problem.mem_run_table hx.matching hmem
  obtain ⟨q, hplace, hspan, -⟩ := hplaced y hy
  exact ⟨q, hplace.getElem?, hspan⟩

theorem intervalAt?_eq (s : String) (a : Int) : x.intervalAt? s a =
    if countUpTo (x.intervals s) a = 0 then none
    else ((x.intervals s)[countUpTo (x.intervals s) a - 1]?).filter fun y => y.span.contains a := by
  rw [intervalAt?, hx.ranges, Keyed.get?_map, intervals]
  cases Keyed.get? x.matching.table s with
  | none => simp
  | some xs =>
      simp only [Option.map_some, Option.getD_some, countUpTo, ← List.getElem?_toArray]
      rfl

/-- The search finds the interval that contains the address, if there is one. -/
theorem intervalAt?_eq_some_iff {s : String} {a : Int} {y : Interval} :
    x.intervalAt? s a = some y ↔ y ∈ x.intervals s ∧ y.span.contains a = true := by
  rw [hx.intervalAt?_eq]
  constructor
  · intro h
    split at h
    · cases h
    · obtain ⟨hget, hcontains⟩ := Option.filter_eq_some_iff.1 h
      exact ⟨List.mem_of_getElem? hget, hcontains⟩
  · rintro ⟨hy, hcontains⟩
    obtain ⟨i, hi, rfl⟩ := List.getElem_of_mem hy
    rw [(hx.apart_intervals s).countUpTo_eq hi hcontains, if_neg (by omega), Nat.add_sub_cancel,
      List.getElem?_eq_getElem hi]
    exact Option.filter_eq_some_iff.2 ⟨rfl, hcontains⟩

theorem intervalAt?_eq_find? (s : String) (a : Int) :
    x.intervalAt? s a = (x.intervals s).find? (·.span.contains a) := by
  apply Option.ext
  intro y
  rw [hx.intervalAt?_eq_some_iff, (hx.apart_intervals s).find?_contains_eq_some_iff]

/-- An interval reaches over all addresses of its sequence. -/
theorem contains_of_positionsAt? {s : String} {y : Interval} (hy : y ∈ x.intervals s)
    {q : LineSequence} (hq : x.sequences[y.index]? = some q) {a : Int} {ps : List SourcePosition}
    (hps : q.positionsAt? a = some ps) : y.span.contains a = true := by
  obtain ⟨q', hq', hspan⟩ := hx.exists_sequence hy
  obtain rfl : q = q' := Option.some.inj (hq.symm.trans hq')
  rw [hspan]
  exact LineSequence.span_contains_of_positionsAt? hps

theorem resolve?_eq_some_iff {s : String} {a : Int} {ps : List SourcePosition} :
    x.resolve? s a = some ps ↔
      ∃ i q, x.matching.table.Binds i s ∧ x.sequences[i]? = some q ∧
        q.positionsAt? a = some ps := by
  rw [x.resolve?_eq]
  simp only [Option.bind_eq_some_iff, hx.binds_iff]
  constructor
  · rintro ⟨y, hy, q, hq, hps⟩
    exact ⟨y.index, q, ⟨y, (hx.intervalAt?_eq_some_iff.1 hy).1, rfl⟩, hq, hps⟩
  · rintro ⟨_, q, ⟨y, hy, rfl⟩, hq, hps⟩
    have hcontains := hx.contains_of_positionsAt? hy hq hps
    exact ⟨y, hx.intervalAt?_eq_some_iff.2 ⟨hy, hcontains⟩, q, hq, hps⟩

theorem eq_of_positionsAt? {s : String} {i j : Nat} (hi : x.matching.table.Binds i s)
    (hj : x.matching.table.Binds j s) {q r : LineSequence} (hq : x.sequences[i]? = some q)
    (hr : x.sequences[j]? = some r) {a : Int} {ps qs : List SourcePosition}
    (hps : q.positionsAt? a = some ps) (hqs : r.positionsAt? a = some qs) : i = j := by
  obtain ⟨y, hy, rfl⟩ := hx.binds_iff.1 hi
  obtain ⟨z, hz, rfl⟩ := hx.binds_iff.1 hj
  have hyz : y = z := (hx.apart_intervals s).eq_of_contains hy hz
    (hx.contains_of_positionsAt? hy hq hps) (hx.contains_of_positionsAt? hz hr hqs)
  rw [hyz]

end Assembled

/-- A lookup in a snapshot of four dumps answers exactly when a sequence bound to the section has a
row at the address, and then with all positions that the line program recorded for the address in
that sequence, in the order in which it recorded them. There is one such sequence at most. To scan
all intervals of the section for the address comes to the same. -/
theorem resolve?_recorded {d : Dumps} {compilationDirectory path : Option String} {x : Snapshot}
    (h : (ofDumps d compilationDirectory path).outcome = .ok x) (s : String) (a : Int) :
    let recorded := LineProgram.recordedSequences d.lines
    x.sequences = recorded.map .ofList ∧
      (∀ ps, x.resolve? s a = some ps ↔
        ∃ i rows, x.matching.table.Binds i s ∧ recorded[i]? = some rows ∧
          recordedAt rows a = ps ∧ ps ≠ []) ∧
      (∀ i j rows rows', x.matching.table.Binds i s → x.matching.table.Binds j s →
        recorded[i]? = some rows → recorded[j]? = some rows' →
        recordedAt rows a ≠ [] → recordedAt rows' a ≠ [] → i = j) ∧
      x.resolve? s a = ((x.intervals s).find? (·.span.contains a)).bind fun y =>
        x.sequences[y.index]?.bind (·.positionsAt? a) := by
  obtain ⟨hx, hsequences⟩ := assembled_of_ofDumps h
  intro recorded
  have hsome : ∀ {i : Nat} {rows}, recorded[i]? = some rows →
      x.sequences[i]? = some (.ofList rows) := by
    intro i rows hrows
    rw [hsequences, List.getElem?_map, hrows, Option.map_some]
  refine ⟨hsequences, ?_, ?_, ?_⟩
  · intro ps
    rw [hx.resolve?_eq_some_iff]
    constructor
    · rintro ⟨i, q, hbinds, hq, hps⟩
      rw [hsequences, List.getElem?_map] at hq
      obtain ⟨rows, hrows, rfl⟩ := Option.map_eq_some_iff.1 hq
      exact ⟨i, rows, hbinds, hrows, LineSequence.positionsAt?_ofList_eq_some_iff.1 hps⟩
    · rintro ⟨i, rows, hbinds, hrows, hps⟩
      exact ⟨i, _, hbinds, hsome hrows, LineSequence.positionsAt?_ofList_eq_some_iff.2 hps⟩
  · intro i j rows rows' hi hj hrows hrows' hne hne'
    have hps := LineSequence.positionsAt?_ofList_eq_some_iff.2 ⟨rfl, hne⟩
    have hps' := LineSequence.positionsAt?_ofList_eq_some_iff.2 ⟨rfl, hne'⟩
    exact hx.eq_of_positionsAt? hi hj (hsome hrows) (hsome hrows') hps hps'
  · rw [x.resolve?_eq, hx.intervalAt?_eq_find?]

/-- A function of one instruction, with two positions recorded for its address. The second of them is
that of the end of the sequence. -/
def oneFunction : Dumps where
  code := ["Disassembly of section .text:", "0000000000000000 <f>:", "   0:\tc3   \tret"]
  symbols := []
  info := []
  lines := ["  1\t0\t(line_strp)\t(offset: 0x1): a.c", "  [0x1]  Copy", "  [0x2]  Set column to 5",
    "  [0x3]  Extended opcode 1: End of Sequence"]

theorem resolve?_recorded_oneFunction :
    let positions := [⟨some "a.c", 1, 0, true, 0⟩, ⟨some "a.c", 1, 5, true, 0⟩]
    ∃ x, (ofDumps oneFunction none none).outcome = .ok x ∧ x.resolve? ".text" 0 = some positions ∧
      ∃ i rows, x.matching.table.Binds i ".text" ∧
        (LineProgram.recordedSequences oneFunction.lines)[i]? = some rows ∧
        recordedAt rows 0 = positions := by
  intro positions
  have hanswer : ((ofDumps oneFunction none none).outcome.toOption.bind
      (·.resolve? ".text" 0)) = some positions := by
    decide +kernel
  cases hx : (ofDumps oneFunction none none).outcome with
  | error f =>
      rw [hx] at hanswer
      cases hanswer
  | ok x =>
      rw [hx] at hanswer
      obtain ⟨-, hrecorded, -, -⟩ := resolve?_recorded hx ".text" 0
      obtain ⟨i, rows, hbinds, hrows, hpositions, -⟩ := (hrecorded positions).1 hanswer
      exact ⟨x, rfl, hanswer, i, rows, hbinds, hrows, hpositions⟩

end Snapshot

end LineAtlas
