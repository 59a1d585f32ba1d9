import LineAtlas.DumpTool
import LineAtlas.Snapshot

/-!
# Loading an object

An object that passes inspection is dumped four times, each dump is read, and a snapshot is put together.
The dumps do not depend on each other: all are taken and read even when one fails. Of several faults
the first in the order of the dumps is reported.
-/

namespace LineAtlas.Loading

/-- What is known of an object before it is loaded: its compilation directory, or why it cannot be. -/
abbrev Inspection := Except Fault (Option String)

abbrev ToolRuns := DumpKind → ToolRun

def readDump (program path : String) (kind : DumpKind) (run : ToolRun)
    (read : List String → Logged (Reading σ)) : Logged σ := do
  let lines ← DumpTool.dump program path kind.arguments run
  let r ← read lines
  unless r.unrecognized.isEmpty do
    Logged.notice .info s!"{r.unrecognized.size} unrecognized lines in {kind.label} dump"
  return r.state

/-- Two computations of which neither waits for the other. -/
def both (x : Logged α) (y : Logged β) : Logged (α × β) :=
  ⟨x.notices ++ y.notices, do return (← x.outcome, ← y.outcome)⟩

def commands (program path : String) : Inspection → List (List String)
  | .error _ => []
  | .ok _ => DumpKind.all.map fun k => DumpTool.command program path k.arguments

def load (inspection : Inspection) (program path : String) (runs : ToolRuns) :
    Logged Snapshot :=
  match inspection with
  | .error f => Logged.fail f
  | .ok compilationDirectory => do
    let dump {σ : Type} (k : DumpKind) (read : List String → Logged (Reading σ)) : Logged σ :=
      readDump program path k (runs k) read
    let (listing, symbols, info, lines) ←
      both (dump .code Listing.read) <| both (dump .symbols SymbolTable.read) <|
        both (dump .info DebugInfo.read) (dump .lines LineProgram.read)
    Snapshot.assemble listing symbols info.nodes lines compilationDirectory (some path)

def reload (x : Snapshot) (inspection : Inspection) (environment : Option String)
    (runs : ToolRuns) : Logged Snapshot :=
  match x.path with
  | none => Logged.fail .notFromFile
  | some path => load inspection (DumpTool.defaultProgram environment) path runs

end LineAtlas.Loading
