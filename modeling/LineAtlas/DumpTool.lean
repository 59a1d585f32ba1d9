import LineAtlas.Logged
import LineAtlas.Text.Blank
import LineAtlas.Text.Lines

/-!
# The dump tool

Dumps are taken by an external program. What it prints is a dump; a run that cannot be started, that prints
no text or that ends with a status other than zero is a fault.
-/

namespace LineAtlas

open Text

inductive DumpKind
  | code
  | symbols
  | info
  | lines
  deriving DecidableEq, Repr

namespace DumpKind

def all : List DumpKind :=
  [code, symbols, info, lines]

theorem mem_all (k : DumpKind) : k ∈ all := by
  cases k <;> decide

def label : DumpKind → String
  | code => "code"
  | symbols => "symbols"
  | info => "info"
  | lines => "lines"

def arguments : DumpKind → List String
  | code => ["-dCr"]
  | symbols => ["--syms"]
  | info => ["--dwarf=info"]
  | lines => ["--dwarf=rawline"]

end DumpKind

/-- How a run of the program went. What it prints may be no text in the encoding of the system. -/
inductive ToolRun
  | notStarted (reason : String)
  | undecodable
  | ended (status : Int) (output complaint : String)
  deriving DecidableEq, Repr

namespace DumpTool

def environmentName : String := "ASMEX_OBJDUMP"

/-- The program named by the environment, unless that is empty, and else `objdump`. -/
def defaultProgram (environment : Option String) : String :=
  (environment.filter (· ≠ "")).getD "objdump"

def command (program path : String) (arguments : List String) : List String :=
  program :: arguments ++ [path]

def dump (program path : String) (arguments : List String) (run : ToolRun) :
    Logged (List String) := do
  let words := " ".intercalate (command program path arguments)
  Logged.notice .debug s!"Running: {words}"
  match run with
  | .notStarted reason =>
    Logged.notice .error s!"Failed to run {program}: {reason}"
    Logged.fail (.commandNotRun words reason)
  | .undecodable => Logged.fail (.undecodableOutput words)
  | .ended status output complaint =>
    if status = 0 then return linesOf output
    else
      let complaint := String.ofList (trim complaint.toList)
      Logged.notice .error s!"{program} exited with status {status}: {complaint}"
      Logged.fail (.commandFailed words status complaint)

theorem outcome_dump_ended (program path : String) (arguments : List String) (status : Int)
    (output complaint : String) :
    (dump program path arguments (.ended status output complaint)).outcome =
      if status = 0 then .ok (linesOf output)
      else .error (.commandFailed (" ".intercalate (command program path arguments)) status
        (String.ofList (trim complaint.toList))) := by
  by_cases hstatus : status = 0 <;> simp [dump, Logged.notice, Logged.say, Logged.fail, hstatus]

end DumpTool

end LineAtlas
