import LineAtlas.CommandLine.Grammar
import LineAtlas.DumpTool

/-!
# Invocations

What a command line asks for. Options that hold for every command come before it; the options of a command
may stand between its arguments.
-/

namespace LineAtlas.CommandLine

open Text

/-- A command with what it was given; an entry whose value is missing counts as not given. -/
inductive Command
  | sections (withEntries : Bool)
  | disassembly (home : Value) (entry : Option String)
  | source (file home : Value) (searchDirectories : List Value)
  deriving DecidableEq, Repr

structure Invocation where
  program : Value
  jobs : Option Int
  verbose : Bool
  path : String
  command : Command
  deriving DecidableEq, Repr

def programName : String := "asmex"

def defaultJobs : Int := 4

def defaultSection : String := ".text"

/-- The options that hold for every command, given the program that the environment names. The number of jobs
and the time limit only have to be numbers. -/
def globalOptions (program : String) : List OptionForm :=
  [OptionForm.help,
   { names := ["--objdump"]
     description := s!"objdump executable (default: ${DumpTool.environmentName} or {program})"
     value := some { placeholder := "OBJDUMP" } },
   { names := ["--jobs"]
     description := s!"Number of objdump dumps taken concurrently (default: {defaultJobs})"
     value := some ⟨"JOBS", fun v => (Integer.read? v.toList).isSome⟩ },
   { names := ["--timeout"]
     description := "Seconds after which an objdump run is abandoned"
     value := some ⟨"TIMEOUT", fun v => Fraction.isNumeral v.toList⟩ },
   { names := ["--verbose", "-v"]
     description := "Enable verbose output" }]

structure ArgumentForm where
  name : String
  description : String
  required : Bool := true

structure CommandForm where
  name : String
  summary : String
  arguments : List ArgumentForm
  options : List OptionForm
  closing : List String := []

def objectArgument : ArgumentForm where
  name := "elf_path"
  description := "Path to the ELF object (built with -g)"

def sectionsForm : CommandForm where
  name := "sections"
  summary := "List sections with their address range and matched line sequences"
  arguments := [objectArgument]
  options :=
    [OptionForm.help,
     { names := ["--entries"], description := "Also list the entries of every section" }]

def disassemblyForm : CommandForm where
  name := "disasm"
  summary := "Print the annotated disassembly of a section or entry"
  arguments :=
    [objectArgument,
     { name := "section", description := "Section name, e.g. .text" },
     { name := "entry", description := "Entry (symbol) name", required := false }]
  options := [OptionForm.help]
  closing :=
    ["examples:", "  # Whole section", s!"  {programName} disasm prog .text", "",
     "  # Single function", s!"  {programName} disasm prog .text main", "        "]

def sourceForm : CommandForm where
  name := "source"
  summary := "Print a source file with the addresses of the instructions of every line"
  arguments :=
    [objectArgument,
     { name := "file", description := "Source file, as recorded in the line program" }]
  options :=
    [OptionForm.help,
     { names := ["--section"]
       description := s!"Section whose instructions are mapped (default: {defaultSection})"
       value := some { placeholder := "SECTION" } },
     { names := ["--search-dir"]
       description := "Extra directory to look for relative source paths (repeatable)"
       value := some { placeholder := "DIR" } }]

def commandForms : List CommandForm :=
  [sectionsForm, disassemblyForm, sourceForm]

def commandForm? (name : String) : Option CommandForm :=
  commandForms.find? fun c => c.name = name

structure Collected where
  given : Given
  arguments : List Value
  leftOver : Bool

/-- Where the reading of arguments stands: how many may still come, whether the word before was one, to
which a separator then belongs, and whether a separator is waiting for the next one. -/
structure Intake where
  room : Nat
  touching : Bool
  waiting : Bool

namespace Intake

def start (room : Nat) : Intake :=
  ⟨room, false, false⟩

def next (t : Intake) : Intake :=
  ⟨t.room - 1, true, false⟩

def apart (t : Intake) : Intake :=
  { t with touching := false }

/-- The value of an argument. The first `--` among its words is dropped, be it the separator or, after that,
the argument itself. -/
def value (t : Intake) (text : String) : Value :=
  if text = "--" ∧ ¬ t.waiting then none else some text

end Intake

def collect (forms : List OptionForm) (t : Intake) : List (Word × String) → Except Halt Collected
  | [] => .ok ⟨[], [], false⟩
  | (.plain text, _) :: rest =>
    if t.room = 0 then do
      let c ← collect forms t.apart rest
      return { c with leftOver := true }
    else do
      let c ← collect forms t.next rest
      return { c with arguments := t.value text :: c.arguments }
  | (.separator, _) :: rest => do
    let c ← collect forms { t with touching := false, waiting := !t.touching } rest
    return { c with leftOver := c.leftOver || !(t.touching || (t.room ≠ 0 && !rest.isEmpty)) }
  | (.unknownOption, _) :: rest => do
    let c ← collect forms t.apart rest
    return { c with leftOver := true }
  | (.option o name (some value), _) :: rest => do
    let g ← giveAttached forms o name value
    let c ← collect forms t.apart rest
    return { c with given := g ++ c.given }
  | (.option o _ none, _) :: rest =>
    match h : giveNext o rest with
    | .error e => .error e
    | .ok (g, tail) => do
      have : tail.length ≤ rest.length := length_le_of_giveNext h
      let c ← collect forms t.apart tail
      return { c with given := g ++ c.given }
termination_by words => words.length
decreasing_by
  all_goals simp only [List.length_cons]
  all_goals omega

/-- The command that collected words ask for. A separator before the first argument belongs to it, so its
value is never missing. -/
def command? (name : String) (c : Collected) : Option (String × Command) :=
  match name, c.arguments with
  | "sections", [some path] => some (path, .sections (c.given.has "--entries"))
  | "disasm", [some path, home] => some (path, .disassembly home none)
  | "disasm", [some path, home, entry] => some (path, .disassembly home entry)
  | "source", [some path, file] =>
    some (path, .source file ((c.given.last? "--section").getD (some defaultSection))
      (c.given.all "--search-dir"))
  | _, _ => none

def jobs? (g : Given) : Option Int :=
  match g.last? "--jobs" with
  | none => some defaultJobs
  | some value => value.bind fun v => Integer.read? v.toList

def readCommand (program : String) (g : Given) (name : String) (words : List String) :
    Except Halt Invocation :=
  match commandForm? name with
  | none => .error .misuse
  | some form =>
    match classifyAll? form.options words with
    | none => .error .misuse
    | some words => do
      let c ← (collect form.options (.start form.arguments.length) words).mapError (Halt.within name)
      if c.leftOver then .error .misuse
      else
        match command? name c with
        | none => .error .misuse
        | some (path, command) =>
          return ⟨(g.last? "--objdump").getD (some program), jobs? g, g.has "--verbose", path, command⟩

def readGlobal (program : String) (given : Given) (leftOver : Bool) :
    List (Word × String) → Except Halt Invocation
  | [] => .error .misuse
  | (.plain name, _) :: rest => do
    let i ← readCommand program given name (rest.map Prod.snd)
    if leftOver then .error .misuse else return i
  | (.separator, _) :: _ => .error .misuse
  | (.unknownOption, _) :: rest => readGlobal program given true rest
  | (.option o name (some value), _) :: rest => do
    let g ← giveAttached (globalOptions program) o name value
    readGlobal program (given ++ g) leftOver rest
  | (.option o _ none, _) :: rest =>
    match h : giveNext o rest with
    | .error e => .error e
    | .ok (g, tail) =>
      have : tail.length ≤ rest.length := length_le_of_giveNext h
      readGlobal program (given ++ g) leftOver tail
termination_by words => words.length
decreasing_by
  all_goals simp only [List.length_cons]
  all_goals omega

def Invocation.read (environment : Option String) (words : List String) :
    Except Halt Invocation :=
  let program := DumpTool.defaultProgram environment
  match classifyAll? (globalOptions program) words with
  | none => .error .misuse
  | some words => readGlobal program [] false words

end LineAtlas.CommandLine
