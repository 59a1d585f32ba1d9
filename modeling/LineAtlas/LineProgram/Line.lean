import LineAtlas.Dump
import LineAtlas.Text.Numeral

/-!
# Lines of the line program dump

Besides the statements a dump lists directories and files, in a current and in an older layout, and says
which value the statement flag starts with. Headings and layout lines are known and carry nothing.
-/

namespace LineAtlas.LineProgram

open Text

inductive Line
  | statement (text : String)
  | fileRow (index directory : Numeral) (name : String)
  | directoryRow (index : Numeral) (name : String)
  | initialIsStmt (flag : Bool)
  | heading
  deriving DecidableEq, Repr

def statement? (cs : List Char) : Option Line := do
  let (_, cs) ← hexDigits? (← skip? "[0x" (← blanks? cs))
  return .statement (← value? (← skip? "]" cs))

/-- The value after the last `):` on its line that a value can follow. -/
def afterForm? : List Char → Option String
  | [] => none
  | c :: cs =>
    match if c = '\n' then none else afterForm? cs with
    | some v => some v
    | none => (skip? "):" (c :: cs)).bind value?

def column? (cs : List Char) : Option (Numeral × List Char) := do
  numeral? (← blanks? cs)

def name? (cs : List Char) : Option String :=
  (value? cs).bind fun name => if name.isEmpty then none else some name

def fileRow? (cs : List Char) : Option Line := do
  let (index, cs) ← column? cs
  let (directory, cs) ← column? cs
  let name ← afterForm? (← skip? "(" (← blanks? cs))
  return .fileRow index directory name

def oldFileRow? (cs : List Char) : Option Line := do
  let (index, cs) ← column? cs
  let (directory, cs) ← column? cs
  let (_, cs) ← column? cs
  let (_, cs) ← column? cs
  return .fileRow index directory (← name? cs)

def directoryRow? (cs : List Char) : Option Line := do
  let (index, cs) ← column? cs
  let name ← afterForm? (← skip? "(" (← blanks? cs))
  return .directoryRow index name

/-- In the older layout the name follows at once, so it starts with no bracket. -/
def oldDirectoryRow? (cs : List Char) : Option Line := do
  let (index, cs) ← column? cs
  let name ← name? cs
  if name.toList.head? = some '(' then none
  else return .directoryRow index name

def initialIsStmt? (cs : List Char) : Option Line := do
  let cs ← blanks? (← skip? "Initial value of 'is_stmt':" (← blanks? cs))
  match cs with
  | [c] => if isDigit c then return .initialIsStmt (c != '0') else none
  | _ => none

def isNumber (cs : List Char) : Bool :=
  let cs := (skip? "-" cs).getD cs
  (((skip? "0x" cs).bind hexDigits?).any (·.2.isEmpty)) || ((digits? cs).any (·.2.isEmpty))

/-- Whether some colon on the first line is followed by blanks and a number up to the end. -/
def endsInNumber : List Char → Bool
  | [] => false
  | c :: cs =>
    (c == ':' && (blanks? cs).any isNumber) || (c != '\n' && endsInNumber cs)

def words? (cs : List Char) : List String → Option Unit
  | [] => atEnd? cs
  | w :: ws => do words? (← skip? w (← blanks? cs)) ws

def isTableHeading (cs : List Char) : Bool :=
  match skip? "The " cs with
  | some rest =>
    !rest.contains '\n' &&
      (((before? "):" rest).map (containsText " Table (offset ")).getD false)
  | none => false

def isIndentedHeading (line : List Char) : Bool :=
  match blanks? line with
  | none => false
  | some cs =>
    ((skip? "Opcode" cs).any fun rest => !rest.contains '\n') || endsInNumber cs ||
      isTableHeading cs ||
      ["Line Number Statements:", "No Line Number Statements.", "The Directory Table is empty.",
        "The File Name Table is empty."].any fun text => cs == text.toList

def isTitle (line : List Char) : Bool :=
  match skip? "Raw dump of debug contents of section .debug_line" line with
  | some rest => !rest.contains '\n' && rest.getLast? == some ':'
  | none => false

def heading? (line : List Char) : Option Line :=
  if line.isEmpty || isIndentedHeading line || isTitle line || isBanner line ||
      [["Entry", "Name"], ["Entry", "Dir", "Name"],
        ["Entry", "Dir", "Time", "Size", "Name"]].any fun ws => (words? line ws).isSome then
    some .heading
  else none

/-- What a line says, by the first form it has; `none` for a line of no known form. -/
def Line.ofText? (line : String) : Option Line :=
  let forms := [statement?, fileRow?, oldFileRow?, directoryRow?, oldDirectoryRow?,
    initialIsStmt?, heading?]
  forms.findSome? fun form => form line.toList

end LineAtlas.LineProgram
