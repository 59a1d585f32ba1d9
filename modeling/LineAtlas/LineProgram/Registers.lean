import LineAtlas.SourcePosition

/-!
# Registers of the line number machine

A statement of the line program sets registers; some record the position they stand for at the current
address.
-/

namespace LineAtlas.LineProgram

structure Registers where
  address : Int := 0
  file : Option String := none
  line : Int := 1
  column : Int := 0
  isStmt : Bool := true
  discriminator : Int := 0
  deriving DecidableEq, Repr

namespace Registers

def position (r : Registers) : SourcePosition :=
  ⟨r.file, r.line, r.column, r.isStmt, r.discriminator⟩

/-- A recorded position uses up the discriminator. -/
def afterRow (r : Registers) : Registers :=
  { r with discriminator := 0 }

end Registers

end LineAtlas.LineProgram
