import LineAtlas.Matching.Problem

/-!
# Matching tables

A table binds ranges of addresses of a section to sequences. It can be read off candidates that leave no
choice; otherwise sequences are placed one after the other as well as they go.
-/

namespace LineAtlas.Matching

structure Interval where
  span : Span
  index : Nat
  deriving DecidableEq, Repr

abbrev Table := Keyed String (List Interval)

def insertByStart (x : Interval) : List Interval → List Interval
  | [] => [x]
  | y :: rest =>
    if y.span.start ≤ x.span.start then y :: insertByStart x rest else x :: y :: rest

def sortByStart (xs : List Interval) : List Interval :=
  xs.foldl (fun sorted x => insertByStart x sorted) []

def neighboursApart : List Interval → Bool
  | x :: y :: rest => !x.span.overlaps y.span && neighboursApart (y :: rest)
  | _ => true

structure Replacement where
  newIndex : Nat
  oldIndex : Nat
  place : String
  deriving DecidableEq, Repr

/-- The intervals of a section with one more among them, and the one it replaces. It is turned down when it
overlaps several, or a single one that is not shorter. -/
def makeRoom? (x : Interval) (ranges : List Interval) : Option (List Interval × Option Interval) :=
  match ranges.filter fun y => x.span.overlaps y.span with
  | [] => some (insertByStart x ranges, none)
  | [old] =>
    if old.span.length < x.span.length then
      some (insertByStart x (ranges.filter (· ≠ old)), some old)
    else none
  | _ => none

structure Placement where
  reserved : Table
  replacements : List Replacement

namespace Placement

def empty : Placement :=
  ⟨[], []⟩

def intervals (r : Placement) (s : String) : List Interval :=
  (Keyed.get? r.reserved s).getD []

def place (r : Placement) (x : Interval) : List String → Placement
  | [] => r
  | s :: rest =>
    match makeRoom? x (r.intervals s) with
    | none => place r x rest
    | some (ranges, old) =>
      ⟨Keyed.put r.reserved s ranges,
        r.replacements ++ old.toList.map fun y => ⟨x.index, y.index, s⟩⟩

end Placement

namespace Problem

variable (p : Problem)

def tableOf (intervals : String → List Interval) : Table :=
  p.sections.eraseDups.filterMap fun s =>
    match intervals s with
    | [] => none
    | xs => some (s, xs)

def places (c : Candidates) : List (Interval × List String) :=
  (p.sequences.zip c).zipIdx.map fun ((q, candidates), i) => (⟨q.span, i⟩, candidates)

def settled (c : Candidates) (s : String) : List Interval :=
  sortByStart ((p.places c).filterMap fun (x, candidates) => if candidates = [s] then some x else none)

/-- The table that candidates leave as the only choice: no sequence has several candidates and no two
intervals of a section overlap. -/
def complete? (c : Candidates) : Option Table :=
  if c.all (fun candidates => candidates.length ≤ 1) &&
      p.sections.all fun s => neighboursApart (p.settled c s) then
    some (p.tableOf (p.settled c))
  else none

/-- Places the sequences in order. One turned down by all its candidates, or replaced later, stays without
a section. -/
def bestEffortPlacement (c : Candidates) : Placement :=
  (p.places c).foldl (fun r (x, candidates) => r.place x candidates) .empty

def bestEffort (c : Candidates) : Table :=
  p.tableOf (p.bestEffortPlacement c).intervals

end Problem

end LineAtlas.Matching
