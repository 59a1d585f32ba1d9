import LineAtlas.CommandLine
import LineAtlas.CommandLine.Help
import LineAtlas.ObjectFile

/-!
# The program

Reads an object, its dumps and the source files a command asks for, and prints what the command answers.
The dump tool is not started from here: each dump is read from a capture beside the object, named after
the object and the dump. Notices go to the error stream, all of them when asked to be verbose.
-/

namespace LineAtlas.Program

open CommandLine

def bytesOf (path : String) : IO (Except String (List UInt8)) := do
  try return .ok (← IO.FS.readBinFile path).toList
  catch e => return .error (toString e)

def magic : List UInt8 :=
  [0x7F, 0x45, 0x4C, 0x46]

def objectAt (path : String) : IO ObjectFile := do
  match ← bytesOf path with
  | .error reason => return .unreadable reason
  | .ok bytes =>
    if bytes.take 4 = magic then
      let number := (bytes.drop 18).head?.map UInt8.toNat
      return .object (toString (number.getD 0)) []
    else return .invalid "Magic number does not match"

/-- A run of the dump tool, as its capture tells it. -/
def captured (path : String) (kind : DumpKind) : IO ToolRun := do
  match ← bytesOf (path ++ "." ++ kind.label) with
  | .error reason => return .notStarted reason
  | .ok bytes =>
    match String.fromUTF8? ⟨bytes.toArray⟩ with
    | some output => return .ended 0 output ""
    | none => return .undecodable

def capturedRuns (path : String) : IO Loading.ToolRuns := do
  let code ← captured path .code
  let symbols ← captured path .symbols
  let info ← captured path .info
  let lines ← captured path .lines
  return fun
    | .code => code
    | .symbols => symbols
    | .info => info
    | .lines => lines

def viewOf (workingPath : String) (paths : List String) : IO FileView := do
  let found ← paths.filterMapM fun path => do
    match ← bytesOf path with
    | .ok bytes => return some (path, bytes)
    | .error _ => return none
  return ⟨workingPath, Keyed.get? found⟩

def report (verbose : Bool) (ns : List Notice) : IO Unit := do
  let out ← IO.getStderr
  for n in Notice.atLeast (if verbose then .debug else .warning) ns do
    out.putStrLn n.line

def runInvocation (i : Invocation) : IO UInt32 := do
  let inspection := (← objectAt i.path).inspect i.path
  report i.verbose inspection.notices
  let loaded := i.load (inspection.outcome.map ObjectInfo.compilationDirectory)
    (← capturedRuns i.path)
  let workingPath := toString (← IO.currentDir)
  let paths := match loaded.outcome with
    | .ok x => i.command.sourcePaths x workingPath
    | .error _ => []
  match i.run loaded (← viewOf workingPath paths) with
  | .error f =>
    report i.verbose [⟨.error, f.message⟩]
    return 1
  | .ok r =>
    for line in r.output do
      IO.println line
    report i.verbose r.notices
    return r.status.toUInt32

end LineAtlas.Program

def main (arguments : List String) : IO UInt32 := do
  let environment ← IO.getEnv LineAtlas.DumpTool.environmentName
  match LineAtlas.CommandLine.Invocation.read environment arguments with
  | .error (.help command) =>
    for line in LineAtlas.CommandLine.Help.text environment command do
      IO.println line
    return 0
  | .error .misuse => return 2
  | .ok i => LineAtlas.Program.runInvocation i
