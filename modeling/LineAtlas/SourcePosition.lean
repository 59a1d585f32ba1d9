/-!
# Source positions

One row of the line number table: a place in a source file. The file is missing when the line program
names none that it has listed.
-/

namespace LineAtlas

structure SourcePosition where
  file : Option String
  line : Int
  column : Int
  isStmt : Bool
  discriminator : Int
  deriving DecidableEq, Repr

namespace SourcePosition

/-- The name of the file; a missing one is written `None`. -/
def fileText (p : SourcePosition) : String :=
  p.file.getD "None"

def text (p : SourcePosition) : String :=
  s!"{p.fileText}:{p.line}:{p.column}"

end SourcePosition

end LineAtlas
