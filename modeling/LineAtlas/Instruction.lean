import LineAtlas.Keyed

/-!
# Instructions

An instruction of the listing: where it lies, its bytes as they are printed and its text, which a line that
only continues the bytes of the one before does not have.
-/

namespace LineAtlas

structure Instruction where
  address : Int
  encoded : String
  text : Option String
  deriving DecidableEq, Repr

namespace Instruction

/-- The number of bytes, two digits each; the spaces between them do not count. -/
def size (i : Instruction) : Nat :=
  (i.encoded.toList.filter (· != ' ')).length / 2

def stop (i : Instruction) : Int :=
  i.address + i.size

end Instruction

abbrev Entries := Keyed String (List Instruction)

structure Extent where
  low : Int
  high : Int
  deriving DecidableEq, Repr

namespace Extent

def join (a b : Extent) : Extent :=
  ⟨min a.low b.low, max a.high b.high⟩

/-- The extent of one run of instructions, from the first of them to the end of the last. -/
def ofRun? : List Instruction → Option Extent
  | [] => none
  | i :: rest => some ⟨i.address, ((i :: rest).getLast (by simp)).stop⟩

def ofEntries? (entries : Entries) : Option Extent :=
  match entries.filterMap fun e => ofRun? e.2 with
  | [] => none
  | x :: xs => some (xs.foldl join x)

end Extent

end LineAtlas
