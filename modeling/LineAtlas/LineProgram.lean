import LineAtlas.Declaration
import LineAtlas.LineProgram.Line
import LineAtlas.LineProgram.Registers
import LineAtlas.LineProgram.Statement
import LineAtlas.LineSequence

/-!
# The line program

Reading the dump runs the line number machine: statements act on its registers and record rows of the open
sequence, and an end of sequence closes it and starts the machine anew. The tables of directories and
files may grow at any time; a path is put together when its row is read.
-/

namespace LineAtlas

open LineProgram

structure LineProgram where
  directories : Keyed Nat String
  files : FileTable
  defaultIsStmt : Bool
  registers : Registers
  rows : LineSequence
  sequences : List LineSequence
  unknownStatements : List String

namespace LineProgram

def empty : LineProgram where
  directories := []
  files := []
  defaultIsStmt := true
  registers := {}
  rows := .empty
  sequences := []
  unknownStatements := []

def firstFile : Nat := 1

def initialRegisters (p : LineProgram) : Registers :=
  { file := p.files.get? firstFile, isStmt := p.defaultIsStmt }

/-- The name of a directory; one that no row has given is written `None`. -/
def directoryText (p : LineProgram) (directory : Nat) : String :=
  (p.directories.get? directory).getD "None"

/-- Directory 0 is the one of the compilation and is left out of the path. -/
def path (p : LineProgram) (directory : Nat) (name : String) : String :=
  if directory = 0 then name else p.directoryText directory ++ "/" ++ name

def addFile (p : LineProgram) (index directory : Nat) (name : String) : LineProgram :=
  let path := p.path directory name
  { p with
    files := p.files.put index path
    registers := if index = firstFile then { p.registers with file := some path } else p.registers }

def emit (p : LineProgram) : LineProgram :=
  { p with
    rows := p.rows.add p.registers.address p.registers.position
    registers := p.registers.afterRow }

def close (p : LineProgram) : LineProgram :=
  let p := p.emit
  { p with
    sequences := p.sequences ++ [p.rows]
    rows := .empty
    registers := p.initialRegisters }

def execute (p : LineProgram) : Statement Nat → LineProgram
  | .setColumn n => { p with registers := { p.registers with column := n } }
  | .setAddress n => { p with registers := { p.registers with address := n } }
  | .setLine n => { p with registers := { p.registers with line := n } }
  | .special address line =>
    emit { p with registers := { p.registers with address, line } }
  | .copy => p.emit
  | .setIsStmt flag => { p with registers := { p.registers with isStmt := flag } }
  | .setDiscriminator n => { p with registers := { p.registers with discriminator := n } }
  | .setFile index _ => { p with registers := { p.registers with file := p.files.get? index } }
  | .endSequence => p.close

def executionNotices (p : LineProgram) : Statement Nat → List Notice
  | .setFile index written =>
    if (p.files.get? index).isSome then []
    else [⟨.warning, s!"Line program refers to unknown file entry {written}"⟩]
  | .endSequence =>
    [⟨.debug, s!"Sequence {p.sequences.length} closed with {p.emit.rows.size} addresses"⟩]
  | _ => []

/-- A statement before any file row is a fault, since no row of the dump could be trusted then. -/
def stepStatement (p : LineProgram) (text : String) : Except Fault (LineProgram × List Notice) :=
  if p.files.isEmpty then .error (.statementBeforeFiles text)
  else
    match Statement.ofText? text with
    | some s => do
      let s ← s.read
      return (p.execute s, p.executionNotices s)
    | none =>
      .ok ({ p with unknownStatements := p.unknownStatements ++ [text] },
        [⟨.warning, s!"Unknown line program instruction: '{text}'"⟩])

def step (p : LineProgram) : Line → Except Fault (LineProgram × List Notice)
  | .statement text => p.stepStatement text
  | .fileRow index directory name => do
    let index ← index.read
    let directory ← directory.read
    return (p.addFile index directory name,
      [⟨.debug, s!"File table [{index}] = '{p.path directory name}'"⟩])
  | .directoryRow index name => do
    return ({ p with directories := p.directories.put (← index.read) name },
      [⟨.debug, s!"Directory table [{index.text}] = '{name}'"⟩])
  | .initialIsStmt flag =>
    .ok ({ p with defaultIsStmt := flag, registers := { p.registers with isStmt := flag } }, [])
  | .heading => .ok (p, [])

def readLine (p : LineProgram) (line : String) :
    Except Fault (Option (LineProgram × List Notice)) :=
  match Line.ofText? line with
  | none => .ok none
  | some content => (p.step content).map some

def format : DumpFormat LineProgram :=
  ⟨"line program", empty, readLine⟩

/-- Drops a sequence that the dump never closed. -/
def finish (p : LineProgram) : LineProgram :=
  { p with rows := .empty }

def finishNotices (p : LineProgram) : List Notice :=
  if p.rows.isEmpty then []
  else [⟨.warning, s!"Discarding unterminated line sequence of {p.rows.size} addresses"⟩]

def read (lines : List String) : Logged (Reading LineProgram) := do
  let r ← format.read lines
  Logged.say r.state.finishNotices
  Logged.notice .debug s!"Decoded {r.state.sequences.length} line sequences"
  return { r with state := r.state.finish }

end LineProgram

end LineAtlas
