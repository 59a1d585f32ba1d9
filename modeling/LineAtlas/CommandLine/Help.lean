import LineAtlas.CommandLine.Invocation
import LineAtlas.Text.Column
import LineAtlas.Text.Paragraph

/-!
# Help

What the program says of itself and of its commands: how to call them, and a table of arguments and options
with a column of descriptions, two places behind the longest name.
-/

namespace LineAtlas.CommandLine.Help

open Text

def purpose : String :=
  "Navigate between the assembly and the source of an ELF object"

def width : Nat := 78

structure Row where
  indent : Nat
  label : String
  description : String

structure Table where
  title : String
  rows : List Row

def Row.length (r : Row) : Nat :=
  r.indent + r.label.length

def spaces (n : Nat) : String :=
  alignLeft n ""

def Row.lines (column : Nat) (r : Row) : List String :=
  let label := spaces r.indent ++ r.label
  match Paragraph.wrap (width - column) r.description with
  | [] => [label]
  | line :: more => (alignLeft column label ++ line) :: more.map (spaces column ++ ·)

def column (tables : List Table) : Nat :=
  (tables.flatMap fun t => t.rows.map Row.length).foldl max 0 + 2

def Table.lines (column : Nat) (t : Table) : List String :=
  (t.title ++ ":") :: t.rows.flatMap (Row.lines column)

def setWords (indent : Nat) (line : String) : List String → List String
  | [] => [line]
  | w :: ws =>
    if width < line.length + 1 + w.length then line :: setWords indent (spaces indent ++ w) ws
    else setWords indent (line ++ " " ++ w) ws

/-- How to call a command. Where one line does not hold it, the arguments follow the options on a line of
their own. -/
def usage (name : String) (options arguments : List String) : List String :=
  let lead := "usage: " ++ name
  let short := " ".intercalate (lead :: options ++ arguments)
  if short.length ≤ width then [short]
  else
    let indent := lead.length + 1
    setWords indent lead options ++ [spaces indent ++ " ".intercalate arguments]

def spelled (o : OptionForm) (name : String) : String :=
  match o.value with
  | none => name
  | some v => name ++ " " ++ v.placeholder

def optionUsage (o : OptionForm) : String :=
  "[" ++ spelled o o.key ++ "]"

def argumentUsage (a : ArgumentForm) : String :=
  if a.required then a.name else "[" ++ a.name ++ "]"

def optionTable (options : List OptionForm) : Table :=
  ⟨"options", options.map fun o => ⟨2, ", ".intercalate (o.names.map (spelled o)), o.description⟩⟩

def argumentTable (rows : List Row) : Table :=
  ⟨"positional arguments", rows⟩

def blocks (bs : List (List String)) : List String :=
  [""].intercalate (bs.filter (!·.isEmpty))

def page (usage description : List String) (tables : List Table) (closing : List String) :
    List String :=
  blocks ([usage, description] ++ tables.map (Table.lines (column tables)) ++ [closing])

def general (defaultProgram : String) : List String :=
  let options := globalOptions defaultProgram
  page (usage programName (options.map optionUsage) ["COMMAND", "..."])
    (Paragraph.wrap width purpose)
    [argumentTable (⟨2, "COMMAND", ""⟩ :: commandForms.map fun c => ⟨4, c.name, c.summary⟩),
      optionTable options]
    []

def ofCommand (c : CommandForm) : List String :=
  page (usage (programName ++ " " ++ c.name) (c.options.map optionUsage)
      (c.arguments.map argumentUsage))
    []
    [argumentTable (c.arguments.map fun a => ⟨2, a.name, a.description⟩), optionTable c.options]
    c.closing

def text (environment : Option String) (command : Option String) : List String :=
  match command.bind commandForm? with
  | some c => ofCommand c
  | none => general (DumpTool.defaultProgram environment)

end LineAtlas.CommandLine.Help
