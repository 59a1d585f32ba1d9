import LineAtlas.Matching.Completion
import LineAtlas.Matching.Evidence
import LineAtlas.Matching.Filters

/-!
# Matching sequences to sections

The filters run in order until the candidates leave no choice. When they never do, the sequences are placed
as well as they go. Every sequence ends bound to one range of one section, or as the repetition of
another, or unmatched. The only fault is a mean distance beyond all doubles.
-/

namespace LineAtlas.Matching

inductive Stage
  | size
  | overlap
  | alignment
  | symbol
  | symbolOverlap
  | bestEffort
  deriving DecidableEq, Repr

namespace Stage

def label : Stage → String
  | size => "size"
  | overlap => "overlap"
  | alignment => "alignment"
  | symbol => "symbol"
  | symbolOverlap => "symbol-overlap"
  | bestEffort => "best-effort"

def filters : List Stage :=
  [size, overlap, alignment, symbol, symbolOverlap]

end Stage

structure Result where
  table : Table
  stage : Stage
  duplicates : Keyed Nat Nat
  unmatched : List Nat
  evidence : Evidence
  replacements : List Replacement
  deriving DecidableEq, Repr

namespace Problem

variable (p : Problem)

def filter (c : Candidates) : Stage → Candidates
  | .size => p.filterBySize c
  | .overlap => p.filterByOverlap c
  | .alignment => p.filterByAlignment c
  | .symbol => p.filterBySymbol c
  | .symbolOverlap => p.filterByOverlap c
  | .bestEffort => c

def evidenceAt (c : Candidates) : Stage → Except Fault Evidence
  | .symbol => p.evidence c
  | _ => .ok []

structure Outcome where
  stage : Stage
  table : Table
  evidence : Evidence
  replacements : List Replacement

/-- Applies filters until one leaves no choice, and else places the sequences as well as they go. -/
def runFilters : List Stage → Candidates → Evidence → Except Fault Outcome
  | [], c, found =>
    .ok ⟨.bestEffort, p.bestEffort c, found, (p.bestEffortPlacement c).replacements⟩
  | stage :: rest, c, found => do
    let found := found ++ (← p.evidenceAt c stage)
    let c := p.filter c stage
    match p.complete? c with
    | some table => .ok ⟨stage, table, found, []⟩
    | none => runFilters rest c found

def unmatched (table : Table) : List Nat :=
  let bound := table.flatMap fun (_, xs) => xs.map Interval.index
  (List.range p.sequences.length).filter fun i =>
    !p.duplicates.keys.contains i && !bound.contains i

def run : Except Fault Result := do
  let o ← p.runFilters Stage.filters p.initial []
  return ⟨o.table, o.stage, p.duplicates, p.unmatched o.table, o.evidence, o.replacements⟩

end Problem

def Replacement.notice (r : Replacement) : Notice :=
  ⟨.debug, s!"Sequence {r.newIndex} replaces sequence {r.oldIndex} on {r.place}"⟩

namespace Result

def sectionOf? (r : Result) (i : Nat) : Option String :=
  let i := (Keyed.get? r.duplicates i).getD i
  (r.table.find? fun (_, xs) => xs.any (·.index == i)).map Prod.fst

def notices (r : Result) : List Notice :=
  let ending : Notice :=
    match r.stage with
    | .bestEffort => ⟨.debug, "Section matching still ambiguous, using best effort"⟩
    | stage => ⟨.debug, "Section matching complete after " ++ stage.label ++ " filter"⟩
  let left : List Notice :=
    if r.unmatched.isEmpty then []
    else [⟨.info, s!"{r.unmatched.length} line sequences could not be bound to a section"⟩]
  ending :: r.replacements.map Replacement.notice ++ left

end Result

end LineAtlas.Matching
