import LineAtlas.CommandLine.Invocation
import LineAtlas.Loading
import LineAtlas.Rendering
import LineAtlas.SourceReader

/-!
# Commands

What each command prints for a snapshot, and how it ends: with status 0, or with status 1 and a notice that
says why.
-/

namespace LineAtlas.CommandLine

open Text

structure Response where
  status : Nat
  output : List String
  notices : List Notice

namespace Response

def success (output : List String) : Response :=
  ⟨0, output, []⟩

def failure (text : String) : Response :=
  ⟨1, [], [⟨.error, text⟩]⟩

end Response

def given : Value → Except Fault String
  | some text => .ok text
  | none => .error .missingValue

def sectionLine (x : Snapshot) (s : String) : String :=
  let entries := (x.entries? s).getD []
  match (entries.head?.bind (x.instructions? s)).bind Snapshot.startOf? with
  | none => alignLeft 24 s ++ " " ++ alignLeft 10 "(empty)"
  | some first =>
    alignLeft 24 s ++ " " ++ zeroFilledHex "0x" 10 first ++ "  " ++
      alignRight 5 (toString entries.length) ++ " entries  " ++
      alignRight 4 (toString (x.intervals s).length) ++ " line sequences"

def listSections (x : Snapshot) (withEntries : Bool) : Response :=
  let body := x.sections.flatMap fun s =>
    sectionLine x s ::
      if withEntries then ((x.entries? s).getD []).map ("    " ++ ·) else []
  let left := x.matching.unmatched.length
  .success (body ++
    if left = 0 then [] else ["", s!"{left} line sequences not bound to any section"])

def disassemble (x : Snapshot) (s : String) (entry : Option String) : Response :=
  if (x.entries? s).isNone then .failure s!"No section '{s}' in disassembly"
  else
    match entry.filter fun e => (x.instructions? s e).isNone with
    | some e => .failure s!"No entry '{e}' in section '{s}'"
    | none => .success (Rendering.listing (x.annotatedInstructions s entry))

/-- The path under which the line program knows a file: the one asked for, or else the only one that ends
with it as its last components. -/
def recordedName (x : Snapshot) (requested : String) : String :=
  let files := x.sourceFiles
  if requested ∈ files then requested
  else
    match files.filter fun f => (before? ("/" ++ requested) f.toList).isSome with
    | [f] => f
    | _ => requested

/-- The reader of source files: it knows the search directories before the first whose value is missing. -/
def sourceReader (x : Snapshot) (searchDirectories : List Value) : SourceReader :=
  .new x.compilationDirectory ((searchDirectories.takeWhile Option.isSome).filterMap id)

def comesToMissing (r : SourceReader) (v : FileView) (path : String) (searchDirectories : List Value) :
    Bool :=
  searchDirectories.contains none && !Path.isAbsolute path &&
    !(r.namedDirectories.any fun base => v.isFile (Path.join base path))

def showSource (x : Snapshot) (v : FileView) (file home : Value) (searchDirectories : List Value) :
    Except Fault Response := do
  let file ← given file
  let recorded := recordedName x file
  let reader := sourceReader x searchDirectories
  if comesToMissing reader v recorded searchDirectories then .error .missingValue
  else
    match (reader.read v recorded).2 with
    | none =>
      return ⟨1, [], [SourceReader.missingNotice recorded,
        ⟨.error, s!"Cannot read source file {recorded}"⟩]⟩
    | some text => do
      let listing := x.annotatedInstructions (← given home) none
      return .success (← Rendering.source (annotateSource recorded text listing) listing)

def Command.sourcePaths (x : Snapshot) (workingPath : String) : Command → List String
  | .source (some file) _ searchDirectories =>
    (sourceReader x searchDirectories).choices workingPath (recordedName x file)
  | _ => []

def Command.run (x : Snapshot) (v : FileView) : Command → Except Fault Response
  | .sections withEntries => .ok (listSections x withEntries)
  | .disassembly home entry => do return disassemble x (← given home) entry
  | .source file home searchDirectories => showSource x v file home searchDirectories

/-- Loads the object of an invocation. Once it has passed inspection, the program and the number of jobs are
needed. -/
def Invocation.load (i : Invocation) (inspection : Loading.Inspection) (runs : Loading.ToolRuns) :
    Logged Snapshot :=
  match inspection, i.program, i.jobs with
  | .error f, _, _ => Logged.fail f
  | .ok _, some program, some _ => Loading.load inspection program i.path runs
  | .ok _, _, _ => Logged.fail .missingValue

def Invocation.run (i : Invocation) (loaded : Logged Snapshot) (v : FileView) :
    Except Fault Response :=
  match loaded.outcome with
  | .ok x =>
    (i.command.run x v).map fun r => { r with notices := loaded.notices ++ r.notices }
  | .error f =>
    if f.kind.isReported then
      .ok ⟨1, [], loaded.notices ++
        [⟨.error, s!"Could not read debug information from {i.path}: {f.message}"⟩]⟩
    else .error f

end LineAtlas.CommandLine
