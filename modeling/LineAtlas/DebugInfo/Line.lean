import LineAtlas.Text.Numeral

/-!
# Lines of the debug info tree

A header line opens a node and tells its id and its tag. The attributes of interest are found anywhere in
a line. A name may be preceded by a note on where the string is stored, which is not part of it.
-/

namespace LineAtlas.DebugInfo

open Text

inductive Attribute (ν : Type)
  | name (value : String)
  | linkageName (value : String)
  | origin (id : String)
  | declFile (index : ν)
  | declLine (line : ν)
  deriving DecidableEq, Repr

def Attribute.read : Attribute Numeral → Except Fault (Attribute Nat)
  | .name v => .ok (.name v)
  | .linkageName v => .ok (.linkageName v)
  | .origin id => .ok (.origin id)
  | .declFile n => n.read.map .declFile
  | .declLine n => n.read.map .declLine

def headerAt? (cs : List Char) : Option (String × String) := do
  let (id, cs) ← hexDigits? (← skip? "<" cs)
  let rest := dropBlanks (← skip? ">:" cs)
  let _ ← oneLine? rest
  let tag ← afterLast? "(DW_TAG_".toList (← before? ")" rest)
  return (String.ofList id, String.ofList tag)

def header? (line : List Char) : Option (String × String) :=
  search? headerAt? line

/-- The value after the first `):` that a value can follow. -/
def afterNote? : List Char → Option String
  | [] => none
  | c :: cs =>
    match (skip? "):" (c :: cs)).bind value? with
    | some v => some v
    | none => if c = '\n' then none else afterNote? cs

/-- The value after a note such as `(indirect string, offset: 0x1c):`. -/
def notedValue? (cs : List Char) : Option String := do
  let cs ← skip? "(indirect " (dropBlanks cs)
  afterNote? (← skip? "string" ((skip? "line " cs).getD cs))

def nameAt? (cs : List Char) : Option (Attribute Numeral) := do
  let cs ← skip? "DW_AT" cs
  let linkage := skip? "_linkage" cs
  let cs ← skip? "_name" (linkage.getD cs)
  let value ← orElse? notedValue? value? (← skip? ":" (dropBlanks cs))
  return if linkage.isSome then .linkageName value else .name value

def attributeValue? (mark : String) (cs : List Char) : Option (List Char) := do
  blanks? (← skip? ":" (dropBlanks (← skip? mark cs)))

def originAt? (cs : List Char) : Option (Attribute Numeral) := do
  let (id, cs) ← hexDigits? (← skip? "<0x" (← attributeValue? "DW_AT_abstract_origin" cs))
  atEnd? (← skip? ">" cs)
  return .origin (String.ofList id)

def numberAt? (mark : String) (cs : List Char) : Option Numeral := do
  let (n, cs) ← numeral? (← attributeValue? mark cs)
  atEnd? cs
  return n

def declFileAt? (cs : List Char) : Option (Attribute Numeral) :=
  (numberAt? "DW_AT_decl_file" cs).map .declFile

def declLineAt? (cs : List Char) : Option (Attribute Numeral) :=
  (numberAt? "DW_AT_decl_line" cs).map .declLine

/-- The attribute that a line carries; a name wins over an origin, that over a file and that over a line. -/
def attribute? (line : List Char) : Option (Attribute Numeral) :=
  [nameAt?, originAt?, declFileAt?, declLineAt?].findSome? fun form => search? form line

end LineAtlas.DebugInfo
