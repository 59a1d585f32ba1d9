import LineAtlas.Path
import LineAtlas.Snapshot
import LineAtlas.Text.Blank

/-!
# Annotated listings

Instructions with the source positions they come from, and the other way round source lines with the
instructions that come from them.
-/

namespace LineAtlas

structure AnnotatedInstruction where
  home : String
  entry : String
  instruction : Instruction
  positions : Option (List SourcePosition)
  deriving DecidableEq, Repr

structure AnnotatedSourceLine where
  number : Int
  text : String
  instructions : List Nat
  deriving DecidableEq, Repr

namespace Snapshot

variable (x : Snapshot)

def annotatedEntry (s entry : String) : List AnnotatedInstruction :=
  ((x.instructions? s entry).getD []).map fun i => ⟨s, entry, i, x.resolve? s i.address⟩

def annotatedInstructions (s : String) (entry : Option String) : List AnnotatedInstruction :=
  let entries := match entry with
    | some e => [e]
    | none => (x.entries? s).getD []
  entries.flatMap (x.annotatedEntry s)

end Snapshot

/-- The lines of a file, given by its normal path, that an instruction comes from, each once. -/
def AnnotatedInstruction.linesIn (a : AnnotatedInstruction) (normalPath : String) : List Int :=
  let hit := (a.positions.getD []).filterMap fun p =>
    if p.file.map Path.normalize = some normalPath then some p.line else none
  hit.eraseDups

def noteLines (t : Keyed Int (List Nat)) (k : Nat) (lines : List Int) : Keyed Int (List Nat) :=
  lines.foldl (fun t n => t.alter n fun found => found.getD [] ++ [k]) t

/-- The indices of the instructions by line, given for each the lines that it comes from. -/
def indexByLine (hits : List (List Int)) : Keyed Int (List Nat) :=
  hits.zipIdx.foldl (fun t (hit, k) => noteLines t k hit) []

def annotateSource (file : String) (text : List String) (listing : List AnnotatedInstruction) :
    List AnnotatedSourceLine :=
  let index := indexByLine (listing.map (·.linesIn (Path.normalize file)))
  text.zipIdx.map fun (line, k) =>
    ⟨k + 1, String.ofList (Text.dropTrailing (· == '\n') line.toList), (index.get? (k + 1)).getD []⟩

end LineAtlas
