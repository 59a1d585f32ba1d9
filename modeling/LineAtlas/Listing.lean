import LineAtlas.Instruction
import LineAtlas.Listing.Line
import LineAtlas.Text.Template

/-!
# The disassembly listing

The sections of an object in listing order, each with its entries and their instructions. Lines add to the
section and the entry named last; a section or entry named again is continued.
-/

namespace LineAtlas

open Text

abbrev CodeTable := Keyed String Entries

structure Listing where
  code : CodeTable
  current : Option String
  currentEntry : Option String
  deriving DecidableEq, Repr

namespace Listing

def empty : Listing :=
  ⟨[], none, none⟩

def sections (l : Listing) : List String :=
  l.code.keys

def place? (l : Listing) : Option (String × String) :=
  match l.current, l.currentEntry with
  | some s, some e => some (s, e)
  | _, _ => none

def instructions? (code : CodeTable) (s e : String) : Option (List Instruction) :=
  (code.get? s).bind (·.get? e)

def currentInstructions (l : Listing) : List Instruction :=
  match l.place? with
  | some (s, e) => (instructions? l.code s e).getD []
  | none => []

def change (l : Listing) (s e : String) (f : List Instruction → List Instruction) : Listing :=
  { l with code := l.code.change s fun entries => entries.change e f }

def isOperand (cs : List Char) : Bool :=
  cs.head? == some '<' && (trimEnd cs).getLast? == some '>' && !(trimEnd cs).contains '\n'

/-- The text before the first place from which all of it is an operand, and the operand. -/
def splitOperand? : List Char → Option (List Char × List Char)
  | [] => none
  | c :: cs =>
    if isOperand (c :: cs) then some ([], c :: cs)
    else (splitOperand? cs).map fun (front, found) => (c :: front, found)

/-- The text with its operand replaced by `<symbol>`. The replacement is a template, so a symbol with a
backslash may have a defect; a text without an operand stays as it is. -/
def relocate (symbol text : List Char) : Except Template.Defect (List Char) :=
  let template := '<' :: symbol ++ ['>']
  match splitOperand? text with
  | none => (Template.expand [] template).map fun _ => text
  | some (front, found) => (Template.expand found template).map (front ++ ·)

/-- Relocates the last instruction of a run; one without text is left alone. -/
def relocateLast (symbol : String) : List Instruction → Except Fault (List Instruction)
  | [] => .ok []
  | [i] =>
    match i.text with
    | none => .ok [i]
    | some text =>
      match relocate (withoutOffset symbol.toList) text.toList with
      | .error d => .error (.template d)
      | .ok text => .ok [{ i with text := some (String.ofList text) }]
  | i :: rest => (relocateLast symbol rest).map (i :: ·)

/-- What the listing is after a line, `none` when the line has no place in it. -/
def step (l : Listing) : Line → Except Fault (Option Listing)
  | .instruction address encoded text =>
    match l.place? with
    | none => .ok none
    | some (s, e) => .ok (some (l.change s e (· ++ [⟨address, encoded, text⟩])))
  | .relocation symbol =>
    match l.place?, l.currentInstructions with
    | none, _ | _, [] => .ok none
    | some (s, e), run => do
      let run ← relocateLast symbol run
      return some (l.change s e fun _ => run)
  | .entry name =>
    match l.current with
    | none => .ok none
    | some s =>
      .ok (some { l with
        code := l.code.change s fun entries => entries.alter name fun run => run.getD []
        currentEntry := some name })
  | .header name =>
    .ok (some ⟨l.code.alter name fun entries => entries.getD [], some name, none⟩)
  | .filler | .banner => .ok (some l)

def readLine (l : Listing) (line : String) : Except Fault (Option (Listing × List Notice)) :=
  match Line.ofText? line with
  | none => .ok none
  | some content => (l.step content).map fun next => next.map fun l => (l, [])

def format : DumpFormat Listing :=
  ⟨"disassembly", empty, readLine⟩

def read (lines : List String) : Logged (Reading Listing) := do
  let r ← format.read lines
  Logged.notice .debug s!"Parsed {r.state.code.length} sections from disassembly"
  return r

end Listing

end LineAtlas
