import LineAtlas.Matching
import LineAtlas.Proofs.Keyed

/-!
# Matching with look-ups that can fail

The matching once more, as it has an answer only if everything that it looks up on its way is there: the
sequence of an index and its first and last address, the extent and the code of a candidate, the distances
of a mean, and the range that stands in the way of another. What is looked up is looked up without regard
to what is known of it, and a look-up without an answer leaves the whole run without one. Excluding has an
answer only if it ends. Apart from all this a mean may be too large for a double, which is a fault.
-/

namespace LineAtlas.Matching.Checked

variable (p : Problem)

/-! ## Sequences -/

def span (q : LineSequence) : Option Span :=
  if q.isEmpty then some ⟨0, 0⟩ else do return ⟨← q.start?, ← q.stop?⟩

def spanAt (i : Nat) : Option Span := do
  (← p.sequences.mapM span)[i]?

def narrow (f : Nat → List String → Option (List String)) (c : Candidates) : Option Candidates :=
  c.zipIdx.mapM fun (candidates, i) => f i candidates

def whenAmbiguous (f : List String → Option (List String)) (candidates : List String) :
    Option (List String) :=
  if candidates.length ≤ 1 then some candidates else f candidates

/-! ## Filters by place -/

def extents : Keyed String Extent :=
  p.listed.filterMap fun s => (p.extent? s).map fun e => (s, e)

def filterBySize : Candidates → Option Candidates :=
  narrow fun i candidates => do
    let a ← spanAt p i
    candidates.filterM fun s => do return (← (extents p).get? s).covers a

def reservation (i : Nat) : List String → Option (Option (String × Span))
  | [s] => (spanAt p i).map fun a => some (s, a)
  | _ => some none

def reservations (c : Candidates) : Option (List (String × Span)) := do
  let found ← c.zipIdx.mapM fun (candidates, i) => reservation p i candidates
  return found.filterMap id

def exclude (c : Candidates) : Option Candidates := do
  let reserved ← reservations p c
  narrow (fun i => whenAmbiguous fun candidates => do
    let a ← spanAt p i
    return candidates.filter fun s => !reserved.any fun r => r.1 == s && a.overlaps r.2) c

/-- Excludes until nothing changes, which has to be so within `n` rounds. -/
def settle : Nat → Candidates → Option Candidates
  | 0, _ => none
  | n + 1, c => do
    let d ← exclude p c
    if d = c then return c else settle n d

def filterByOverlap (c : Candidates) : Option Candidates :=
  settle p (c.flatten.length + 1) c

/-- Whether every row starts an instruction of the section. The last address has to be there to be treated
apart, and the extent where it starts none. -/
def isAligned (q : LineSequence) (s : String) : Option Bool := do
  let entries ← p.code.get? s
  let last ← q.addresses.getLast?
  let allowed := entries.flatMap fun e => e.2.map Instruction.address
  if allowed.contains last then return q.addresses.dropLast.all allowed.contains
  else
    let e ← (extents p).get? s
    return e.high == last && q.addresses.dropLast.all allowed.contains

def filterByAlignment : Candidates → Option Candidates :=
  narrow fun i => whenAmbiguous fun candidates => do
    let q ← p.sequences[i]?
    candidates.filterM (isAligned p q)

/-! ## Evidence from symbols -/

/-- What may be without an answer, and may be at fault. -/
abbrev Attempt := OptionT (Except Fault)

def found (answer : Option α) : Attempt α :=
  OptionT.mk (.ok answer)

def quotient (num den : Nat) : Attempt Binary64 :=
  if den = 0 then found none
  else
    match Binary64.ofQuotient? num den with
    | some x => found (some x)
    | none => OptionT.mk (.error .quotientTooLarge)

/-- The mean distance for a name, if it has a declaration and there are distances; then there has to be a
mean. -/
def corroboration (positions : List SourcePosition) (a : SymbolAlias) : Attempt (Option Binary64) :=
  match p.declarations.get? a.name with
  | none => return none
  | some d =>
    match lineDistances d positions with
    | [] => return none
    | gaps => do return some (← quotient (gaps.foldl (· + ·) 0) gaps.length)

def distancesAt (q : LineSequence) (address : Int) (names : List SymbolAlias) :
    Attempt (List (Option Binary64)) :=
  match q.positionsAt? address with
  | none => return []
  | some positions => names.mapM (corroboration p positions)

def symbolDistances (q : LineSequence) (s : String) : Attempt (List Binary64) := do
  let means ← (p.symbols.inSection s).mapM fun x => distancesAt p q x.1 x.2
  return means.flatten.filterMap id

def spokenFor (i : Nat) (candidates : List String) : Attempt (Keyed String (List Binary64)) := do
  let q ← found (p.sequences[i]?)
  let means ← candidates.mapM fun s => do return (s, ← symbolDistances p q s)
  return Keyed.collect (fun m => if m.2.isEmpty then none else some m) means

def filterBySymbol (c : Candidates) : Attempt (Candidates × Evidence) := do
  let spoken ← c.zipIdx.mapM fun (candidates, i) =>
    if candidates.length ≤ 1 then return [] else spokenFor p i candidates
  let kept := List.zipWith (fun candidates (means : Keyed String (List Binary64)) =>
    if means.isEmpty then candidates else candidates.filter means.keys.contains) c spoken
  return (kept, spoken.zipIdx.filterMap fun (means, i) =>
    if means.isEmpty then none else some (i, means))

def filter (c : Candidates) : Stage → Attempt (Candidates × Evidence)
  | .size => do return (← found (filterBySize p c), [])
  | .overlap => do return (← found (filterByOverlap p c), [])
  | .alignment => do return (← found (filterByAlignment p c), [])
  | .symbol => filterBySymbol p c
  | .symbolOverlap => do return (← found (filterByOverlap p c), [])
  | .bestEffort => return (c, [])

/-! ## Tables -/

def places (c : Candidates) : Option (List (Interval × List String)) :=
  c.zipIdx.mapM fun (candidates, i) => do
    let _ ← p.sequences[i]?
    return (⟨← spanAt p i, i⟩, candidates)

def gather (places : List (Interval × List String)) : Keyed String (List Interval) :=
  places.foldl (fun placed (x, candidates) =>
    match candidates with
    | [s] => placed.alter s fun xs => xs.getD [] ++ [x]
    | _ => placed) []

def settled (places : List (Interval × List String)) : Keyed String (List Interval) :=
  (gather places).map fun t => (t.1, sortByStart t.2)

def ordered (placed : Keyed String (List Interval)) : Table :=
  p.sections.eraseDups.filterMap fun s => (placed.get? s).map fun xs => (s, xs)

def complete (c : Candidates) : Option (Option Table) := do
  let pending ← places p c
  if pending.all fun y => y.2.length ≤ 1 then
    return if (settled pending).all fun t => neighboursApart t.2 then
      some (ordered p (settled pending)) else none
  else return none

/-- The ranges of a section: the last address and the index of a sequence, by the first address. -/
abbrev Ranges := Keyed Int (Int × Nat)

def starts (ranges : Ranges) : List Int :=
  ranges.keys.mergeSort (· ≤ ·)

def takeOut (ranges : Ranges) (start : Int) : Option Ranges :=
  (ranges.get? start).map fun _ => ranges.filter (·.1 ≠ start)

def conflicts (x : Interval) (ranges : Ranges) (start : Int) : Option Bool := do
  let (stop, _) ← ranges.get? start
  return x.span.overlaps ⟨start, stop⟩

/-- The ranges with one more among them, and the index of the one it replaces; `none` inside if the range
is turned down. -/
def makeRoom (x : Interval) (ranges : Ranges) : Option (Option (Ranges × Option Nat)) := do
  match ← (starts ranges).filterM (conflicts x ranges) with
  | [] => return some (ranges.put x.span.start (x.span.stop, x.index), none)
  | [start] =>
    let (stop, index) ← ranges.get? start
    if stop - start < x.span.length then
      let ranges ← takeOut ranges start
      return some (ranges.put x.span.start (x.span.stop, x.index), some index)
    else return none
  | _ => return none

structure Placement where
  reserved : Keyed String Ranges
  replacements : List Replacement

namespace Placement

def empty : Placement :=
  ⟨[], []⟩

def place (r : Placement) (x : Interval) : List String → Option Placement
  | [] => some r
  | s :: rest => do
    match ← makeRoom x ((r.reserved.get? s).getD []) with
    | none => place r x rest
    | some (ranges, old) =>
      return ⟨r.reserved.put s ranges,
        r.replacements ++ old.toList.map fun index => ⟨x.index, index, s⟩⟩

end Placement

def intervals (ranges : Ranges) : Option (List Interval) :=
  (starts ranges).mapM fun start => do
    let (stop, index) ← ranges.get? start
    let _ ← p.sequences[index]?
    return ⟨⟨start, stop⟩, index⟩

def bestEffort (c : Candidates) : Option (Table × List Replacement) := do
  let pending ← places p c
  let r ← pending.foldlM (fun r y => Placement.place r y.1 y.2) Placement.empty
  let placed ← r.reserved.mapM fun (s, ranges) => do return (s, ← intervals p ranges)
  return (ordered p (placed.filter fun t => !t.2.isEmpty), r.replacements)

/-! ## Runs -/

def runFilters : List Stage → Candidates → Evidence → Attempt Problem.Outcome
  | [], c, evidence => do
    let (table, replacements) ← found (bestEffort p c)
    return ⟨.bestEffort, table, evidence, replacements⟩
  | stage :: rest, c, evidence => do
    let (c, more) ← filter p c stage
    match ← found (complete p c) with
    | some table => return ⟨stage, table, evidence ++ more, []⟩
    | none => runFilters rest c (evidence ++ more)

def run : Attempt Result := do
  let o ← runFilters p Stage.filters p.initial []
  return ⟨o.table, o.stage, p.duplicates, p.unmatched o.table, o.evidence, o.replacements⟩

end LineAtlas.Matching.Checked
