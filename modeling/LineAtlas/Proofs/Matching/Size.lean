import LineAtlas.Proofs.Matching.Alignment

/-!
# The extent of a section and what fits into it

A sequence fits into a section when its span lies in the extent of the section. Where the extent is exact,
the size filter keeps every section in which all rows lie at instructions; where an entry goes back, it may
drop such a section.
-/

namespace LineAtlas.Matching.Problem

variable (p : Problem)

def entriesIn (s : String) : Entries :=
  (p.code.get? s).getD []

theorem mem_linesIn_iff {s : String} {i : Instruction} :
    i ∈ p.linesIn s ↔ ∃ e ∈ p.entriesIn s, i ∈ e.2 :=
  List.mem_flatMap

theorem linesIn_eq_nil_iff {s : String} : p.linesIn s = [] ↔ ∀ e ∈ p.entriesIn s, e.2 = [] :=
  List.flatMap_eq_nil_iff

theorem extent?_eq_ofEntries? (s : String) : p.extent? s = Extent.ofEntries? (p.entriesIn s) := by
  rw [extent?, entriesIn]
  cases p.code.get? s <;> rfl

/-- Nothing of a section lies outside its extent. -/
structure ExactExtent (s : String) (x : Extent) : Prop where
  low : IsLeast (Extent.starts (p.entriesIn s)) x.low
  high : IsGreatest (Extent.stops (p.entriesIn s)) x.high

theorem ExactExtent.covers_line {p : Problem} {s : String} {x : Extent} (h : p.ExactExtent s x)
    {i : Instruction} (hi : i ∈ p.linesIn s) : x.low ≤ i.address ∧ i.address ≤ x.high := by
  obtain ⟨e, he, hi⟩ := p.mem_linesIn_iff.1 hi
  have hlow : x.low ≤ i.address := h.low.2 ⟨e, he, i, hi, rfl⟩
  have hhigh : i.stop ≤ x.high := h.high.2 ⟨e, he, i, hi, rfl⟩
  have hstop : i.address ≤ i.stop := by
    rw [Instruction.stop]
    omega
  exact ⟨hlow, hstop.trans hhigh⟩

theorem ExactExtent.low_le_high {p : Problem} {s : String} {x : Extent} (h : p.ExactExtent s x) :
    x.low ≤ x.high := by
  obtain ⟨e, he, i, hi, hlow⟩ := h.low.1
  have hi := h.covers_line (p.mem_linesIn_iff.2 ⟨e, he, hi⟩)
  exact hi.1.trans hi.2

/-- An exact extent covers the addresses at which an aligned row may lie. -/
theorem ExactExtent.covers_row {p : Problem} {s : String} {x : Extent} (h : p.ExactExtent s x) {a : Int}
    (ha : (∃ l ∈ p.linesIn s, l.address = a) ∨ a = x.high) : x.low ≤ a ∧ a ≤ x.high := by
  rcases ha with ⟨l, hl, rfl⟩ | rfl
  · exact h.covers_line hl
  · exact ⟨h.low_le_high, Int.le_refl _⟩

theorem fits_iff {q : LineSequence} {s : String} {x : Extent} (hx : p.extent? s = some x) :
    p.fits q s = true ↔ x.low ≤ q.span.start ∧ q.span.stop ≤ x.high := by
  simp [fits, hx, Extent.covers]

/-- A section without an extent is one without an instruction. An extent goes from the first address of some
entry to the end of some entry. It begins at the least address of the section exactly when some entry begins
there, and ends at the greatest end exactly when some entry does; so it is exact when the instructions of
every entry come in order. The size filter keeps the sections in whose extent the span of a sequence lies;
where the extent is exact, these include every section of which each row is at an instruction or at the
end. -/
theorem extent_exact_iff (p : Problem) (s : String) :
    (p.extent? s = none ↔ p.linesIn s = []) ∧
    ∀ x, p.extent? s = some x →
      (IsLeast (Extent.firstAddresses (p.entriesIn s)) x.low ∧
        IsGreatest (Extent.lastStops (p.entriesIn s)) x.high) ∧
      (IsLeast (Extent.starts (p.entriesIn s)) x.low ↔ ∃ a ∈ Extent.firstAddresses (p.entriesIn s),
        a ∈ lowerBounds (Extent.starts (p.entriesIn s))) ∧
      (IsGreatest (Extent.stops (p.entriesIn s)) x.high ↔ ∃ a ∈ Extent.lastStops (p.entriesIn s),
        a ∈ upperBounds (Extent.stops (p.entriesIn s))) ∧
      ((∀ e ∈ p.entriesIn s, Extent.Ascending e.2) → p.ExactExtent s x) ∧
      ∀ (c : Candidates) (i : Nat) (q : LineSequence), p.sequences[i]? = some q →
        (s ∈ candidatesOf (p.filterBySize c) i ↔
          s ∈ candidatesOf c i ∧ x.low ≤ q.span.start ∧ q.span.stop ≤ x.high) ∧
        (p.ExactExtent s x → q.isEmpty = false → s ∈ candidatesOf c i →
          (∀ a ∈ q.addresses, (∃ l ∈ p.linesIn s, l.address = a) ∨ a = x.high) →
            s ∈ candidatesOf (p.filterBySize c) i) := by
  rw [p.extent?_eq_ofEntries?, p.linesIn_eq_nil_iff]
  refine ⟨Extent.ofEntries?_eq_none_iff, ?_⟩
  intro x hx
  refine ⟨Extent.bounds_of_ofEntries? hx, Extent.isLeast_low_iff hx, Extent.isGreatest_high_iff hx,
    fun hasc => ?_, ?_⟩
  · obtain ⟨hlow, hhigh⟩ := Extent.exact_of_ascending hx hasc
    exact ⟨hlow, hhigh⟩
  · intro c i q hq
    rw [p.mem_filterBySize hq, p.fits_iff ((p.extent?_eq_ofEntries? s).trans hx)]
    refine ⟨Iff.rfl, ?_⟩
    intro hexact hempty hs hrows
    obtain ⟨hstart, hstop, -⟩ := q.span_bounds hempty
    exact ⟨hs, (hexact.covers_row (hrows _ hstart)).1, (hexact.covers_row (hrows _ hstop)).2⟩

/-- The first section is named again, and its entry with an instruction it already has. -/
def namedAgain : List String :=
  ["Disassembly of section .text:", "0000000000000000 <f>:", "   0:\t55 \tpush   %rbp",
    "   1:\t48 89 e5 \tmov    %rsp,%rbp", "   4:\tc3 \tret",
    "Disassembly of section .init:", "0000000000000000 <g>:", "   0:\t55 \tpush   %rbp",
    "   1:\t48 89 e5 \tmov    %rsp,%rbp", "   4:\tc3 \tret",
    "Disassembly of section .text:", "0000000000000000 <f>:", "   0:\tc3 \tret"]

def goneBack : Problem where
  listed := [".text", ".init"]
  code :=
    [(".text", [("f", [⟨0x0, "55", some "push   %rbp"⟩, ⟨0x1, "48 89 e5", some "mov    %rsp,%rbp"⟩,
        ⟨0x4, "c3", some "ret"⟩, ⟨0x0, "c3", some "ret"⟩])]),
      (".init", [("g", [⟨0x0, "55", some "push   %rbp"⟩, ⟨0x1, "48 89 e5", some "mov    %rsp,%rbp"⟩,
        ⟨0x4, "c3", some "ret"⟩])])]
  sequences :=
    [.ofList [(0x0, ⟨some "a.c", 1, 0, true, 0⟩), (0x1, ⟨some "a.c", 2, 0, true, 0⟩),
      (0x4, ⟨some "a.c", 3, 0, true, 0⟩)]]
  symbols := []
  declarations := []

/-- All rows lie at instructions of both sections. The section that is in order is kept; the extent of the
other ends before its last two instructions, and the section is dropped. -/
theorem extent_exact_iff_goneBack :
    (Listing.read namedAgain).outcome.toOption.map (·.state.code) = some goneBack.code ∧
      (∀ s ∈ goneBack.listed, ∀ a ∈ goneBack.sequences[0].addresses,
        ∃ l ∈ goneBack.linesIn s, l.address = a) ∧
      goneBack.extent? ".init" = some ⟨0x0, 0x5⟩ ∧ goneBack.ExactExtent ".init" ⟨0x0, 0x5⟩ ∧
      ".init" ∈ candidatesOf (goneBack.filterBySize [[".text", ".init"]]) 0 ∧
      goneBack.extent? ".text" = some ⟨0x0, 0x1⟩ ∧ ¬ goneBack.ExactExtent ".text" ⟨0x0, 0x1⟩ ∧
      ".text" ∉ candidatesOf (goneBack.filterBySize [[".text", ".init"]]) 0 := by
  have hrows : ∀ s ∈ goneBack.listed, ∀ a ∈ goneBack.sequences[0].addresses,
      ∃ l ∈ goneBack.linesIn s, l.address = a := by decide
  have hinit : goneBack.extent? ".init" = some ⟨0x0, 0x5⟩ := by decide
  have htext : goneBack.extent? ".text" = some ⟨0x0, 0x1⟩ := by decide
  obtain ⟨-, -, -, hascending, hfilter⟩ := (extent_exact_iff goneBack ".init").2 _ hinit
  have hexact : goneBack.ExactExtent ".init" ⟨0x0, 0x5⟩ := hascending (by decide)
  have hkept : ".init" ∈ candidatesOf (goneBack.filterBySize [[".text", ".init"]]) 0 :=
    (hfilter [[".text", ".init"]] 0 goneBack.sequences[0] rfl).2 hexact (by decide) (by decide)
      fun a ha => .inl (hrows ".init" (by decide) a ha)
  obtain ⟨-, -, -, -, hfilter⟩ := (extent_exact_iff goneBack ".text").2 _ htext
  have hdropped : ".text" ∉ candidatesOf (goneBack.filterBySize [[".text", ".init"]]) 0 := by
    rw [(hfilter [[".text", ".init"]] 0 goneBack.sequences[0] rfl).1]
    decide
  have hshort : ¬ goneBack.ExactExtent ".text" ⟨0x0, 0x1⟩ := by
    intro h
    have hlast : (⟨0x4, "c3", some "ret"⟩ : Instruction) ∈ goneBack.linesIn ".text" := by decide
    exact absurd (h.covers_line hlast).2 (by decide)
  exact ⟨by decide +kernel, hrows, hinit, hexact, hkept, htext, hshort, hdropped⟩

end LineAtlas.Matching.Problem
