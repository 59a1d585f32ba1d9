import LineAtlas.Fault
import LineAtlas.Snapshot.Annotation
import LineAtlas.Text.Column

/-!
# Rendering

Listings as lines of text: an instruction with its positions behind it, a header before each entry, a source
line with the addresses of its instructions behind it. No line ends in blanks.
-/

namespace LineAtlas.Rendering

open Text

def trimmed (line : String) : String :=
  String.ofList (trimEnd line.toList)

/-- Each position once, in order of first appearance. -/
def positions (ps : Option (List SourcePosition)) : String :=
  ", ".intercalate ((ps.getD []).map SourcePosition.text).eraseDups

def instruction (a : AnnotatedInstruction) : String :=
  let i := a.instruction
  let line := alignRight 8 (hexInt i.address) ++ ":  " ++ alignLeft 24 i.encoded ++ " " ++
    i.text.getD ""
  let behind := positions a.positions
  trimmed (if behind = "" then line else alignLeft 72 line ++ " ; " ++ behind)

def header (a : AnnotatedInstruction) : String :=
  zeroFilledHex "" 16 a.instruction.address ++ " <" ++ a.entry ++ ">:"

def listingAfter (previous : Option String) : List AnnotatedInstruction → List String
  | [] => []
  | a :: rest =>
    let tail := instruction a :: listingAfter (some a.entry) rest
    if previous = some a.entry then tail
    else if previous.isSome then "" :: header a :: tail
    else header a :: tail

def listing (xs : List AnnotatedInstruction) : List String :=
  listingAfter none xs

def addressAt (xs : List AnnotatedInstruction) (k : Nat) : Except Fault String :=
  match xs[k]? with
  | some a => .ok (hexInt a.instruction.address)
  | none => .error (.noSuchInstruction k)

def annotated (l : AnnotatedSourceLine) (addresses : List String) : String :=
  let line := alignRight 6 (toString l.number) ++ "  " ++ l.text
  trimmed (if addresses.isEmpty then line
    else alignLeft 80 line ++ " ; " ++ " ".intercalate addresses)

def sourceLine (xs : List AnnotatedInstruction) (l : AnnotatedSourceLine) : Except Fault String :=
  (l.instructions.mapM (addressAt xs)).map (annotated l)

def source (lines : List AnnotatedSourceLine) (xs : List AnnotatedInstruction) :
    Except Fault (List String) :=
  lines.mapM (sourceLine xs)

end LineAtlas.Rendering
