import LineAtlas.Matching.Problem

/-!
# Filters by place

Three filters that take candidates away because of where a sequence lies: it must fit into the section,
it must not overlap what is already settled there, and its rows must start instructions.
-/

namespace LineAtlas.Matching.Problem

variable (p : Problem)

def fits (q : LineSequence) (s : String) : Bool :=
  (p.extent? s).any (·.covers q.span)

def filterBySize (c : Candidates) : Candidates :=
  p.narrow (fun q => List.filter (p.fits q)) c

def reservations (c : Candidates) : List (String × Span) :=
  (p.sequences.zip c).filterMap fun (q, candidates) =>
    match candidates with
    | [s] => some (s, q.span)
    | _ => none

def isFree (reserved : List (String × Span)) (q : LineSequence) (s : String) : Bool :=
  !reserved.any fun r => r.1 == s && q.span.overlaps r.2

/-- Takes from every ambiguous sequence the sections on which it overlaps a reservation. -/
def exclude (c : Candidates) : Candidates :=
  p.narrow (fun q => whenAmbiguous (List.filter (isFree (p.reservations c) q))) c

def settle : Nat → Candidates → Candidates
  | 0, c => c
  | n + 1, c => if p.exclude c = c then c else settle n (p.exclude c)

/-- Makes the span of a settled sequence its own. Each round that changes anything takes a candidate away,
so there are no more rounds than candidates. -/
def filterByOverlap (c : Candidates) : Candidates :=
  p.settle c.flatten.length c

def instructionAddresses (s : String) : List Int :=
  ((p.code.get? s).getD []).flatMap fun e => e.2.map Instruction.address

/-- Whether every row starts an instruction of the section; the last may lie just after the section. -/
def isAligned (q : LineSequence) (s : String) : Bool :=
  let allowed := p.instructionAddresses s
  match q.addresses.getLast? with
  | none => true
  | some last =>
    (allowed.contains last || (p.extent? s).any (·.high == last)) &&
      q.addresses.dropLast.all allowed.contains

def filterByAlignment (c : Candidates) : Candidates :=
  p.narrow (fun q => whenAmbiguous (List.filter (p.isAligned q))) c

@[simp]
theorem settle_zero (c : Candidates) : p.settle 0 c = c := rfl

theorem settle_succ (n : Nat) (c : Candidates) :
    p.settle (n + 1) c = if p.exclude c = c then c else p.settle n (p.exclude c) := rfl

end LineAtlas.Matching.Problem
