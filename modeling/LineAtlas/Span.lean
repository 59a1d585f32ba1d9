import LineAtlas.Instruction
import LineAtlas.LineSequence

/-!
# Spans

The addresses a sequence speaks about, from its first row to its last. Both ends belong to a span, so spans
that merely touch overlap.
-/

namespace LineAtlas

structure Span where
  start : Int
  stop : Int
  deriving DecidableEq, Repr

namespace Span

def overlaps (a b : Span) : Bool :=
  a.start ≤ b.stop && b.start ≤ a.stop

def contains (a : Span) (address : Int) : Bool :=
  a.start ≤ address && address ≤ a.stop

def length (a : Span) : Int :=
  a.stop - a.start

theorem overlaps_iff {a b : Span} : a.overlaps b = true ↔ a.start ≤ b.stop ∧ b.start ≤ a.stop := by
  simp [overlaps]

theorem overlaps_eq_false_iff {a b : Span} :
    a.overlaps b = false ↔ a.stop < b.start ∨ b.stop < a.start := by
  simp only [overlaps, Bool.and_eq_false_iff, decide_eq_false_iff_not]
  omega

theorem overlaps_comm (a b : Span) : a.overlaps b = b.overlaps a := by
  simp [overlaps, Bool.and_comm]

theorem contains_iff {a : Span} {x : Int} : a.contains x = true ↔ a.start ≤ x ∧ x ≤ a.stop := by
  simp [contains]

end Span

/-- Whether a section covers a span; the last address may be the one just after the section. -/
def Extent.covers (e : Extent) (s : Span) : Bool :=
  e.low ≤ s.start && s.stop ≤ e.high

/-- The span of a sequence; one without rows is put at address 0. -/
def LineSequence.span (q : LineSequence) : Span :=
  ⟨q.start?.getD 0, q.stop?.getD 0⟩

end LineAtlas
