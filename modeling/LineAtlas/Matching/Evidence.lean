import LineAtlas.Binary64
import LineAtlas.Matching.Problem

/-!
# Evidence from symbols

A symbol of a section with a known declaration speaks for the section when the sequence has, at the address
of the symbol, rows in the declaring file at or after the declaring line. The mean distance from that line
is recorded but decides nothing. It is a double, and a mean beyond all doubles is a fault.
-/

namespace LineAtlas.Matching

/-- For ambiguous sequences the sections spoken for, each with a mean for every symbol that does. -/
abbrev Evidence := Keyed Nat (Keyed String (List Binary64))

def mean (distances : List Nat) : Except Fault Binary64 :=
  match Binary64.ofQuotient? (distances.foldl (· + ·) 0) distances.length with
  | some x => .ok x
  | none => .error .quotientTooLarge

/-- How far the positions in the declaring file lie after the declaration; earlier ones do not count. -/
def lineDistances (d : Declaration) (positions : List SourcePosition) : List Nat :=
  positions.filterMap fun x =>
    if x.file = some d.file ∧ d.line ≤ x.line then some (x.line - d.line).toNat else none

namespace Problem

variable (p : Problem)

def distancesFor? (positions : List SourcePosition) (a : SymbolAlias) : Option (List Nat) :=
  ((p.declarations.get? a.name).map fun d => lineDistances d positions).filter (· ≠ [])

def symbolDistances (q : LineSequence) (s : String) : List (List Nat) :=
  (p.symbols.inSection s).flatMap fun (address, names) =>
    match q.positionsAt? address with
    | none => []
    | some positions => names.filterMap (p.distancesFor? positions)

def corroborates (q : LineSequence) (s : String) : Bool :=
  !(p.symbolDistances q s).isEmpty

/-- Where a symbol speaks for some candidate of an ambiguous sequence, keeps those candidates. -/
def filterBySymbol (c : Candidates) : Candidates :=
  p.narrow (fun q => whenAmbiguous fun candidates =>
    match candidates.filter (p.corroborates q) with
    | [] => candidates
    | kept => kept) c

def distances (c : Candidates) : Keyed Nat (Keyed String (List (List Nat))) :=
  (p.sequences.zip c).zipIdx.filterMap fun ((q, candidates), i) =>
    if candidates.length ≤ 1 then none
    else
      match (candidates.filter (p.corroborates q)).eraseDups with
      | [] => none
      | kept => some (i, kept.map fun s => (s, p.symbolDistances q s))

def evidence (c : Candidates) : Except Fault Evidence :=
  Keyed.traverse (Keyed.traverse (List.mapM mean)) (p.distances c)

end Problem

end LineAtlas.Matching
