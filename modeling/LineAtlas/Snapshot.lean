import LineAtlas.Halving
import LineAtlas.Matching

/-!
# Snapshots

All that the dumps of one object say, put together: its code, its symbols, the source positions of its
instructions and where its subprograms are declared. A snapshot is never changed.
-/

namespace LineAtlas

open Matching

structure Snapshot where
  path : Option String
  compilationDirectory : Option String
  code : CodeTable
  symbols : SymbolTable
  sequences : List LineSequence
  files : FileTable
  declarations : DeclarationTable
  matching : Matching.Result
  ranges : Keyed String (Array Interval)

namespace Snapshot

def assemble (listing : Listing) (symbols : SymbolTable) (nodes : NodeTable) (lines : LineProgram)
    (compilationDirectory path : Option String) : Logged Snapshot := do
  let resolved := NodeTable.resolve nodes
  let declarations := DeclarationTable.join resolved lines.files
  Logged.say (NodeTable.unresolvedNotices nodes)
  Logged.say (DeclarationTable.unjoinedNotices resolved lines.files)
  let matching ← Logged.attempt <| Problem.run
    ⟨listing.sections, listing.code, lines.sequences, symbols, declarations⟩
  Logged.say matching.notices
  Logged.say [⟨.debug, s!"Matched {lines.sequences.length} line sequences over " ++
    s!"{listing.sections.length} sections (stage: " ++ matching.stage.label ++ ")"⟩]
  return {
    path
    compilationDirectory
    code := listing.code
    symbols
    sequences := lines.sequences
    files := lines.files
    declarations
    matching
    ranges := matching.table.map fun (s, xs) => (s, xs.toArray) }

structure Dumps where
  code : List String
  symbols : List String
  info : List String
  lines : List String

def ofDumps (d : Dumps) (compilationDirectory path : Option String) : Logged Snapshot := do
  let listing ← Listing.read d.code
  let symbols ← SymbolTable.read d.symbols
  let info ← DebugInfo.read d.info
  let lines ← LineProgram.read d.lines
  assemble listing.state symbols.state info.state.nodes lines.state compilationDirectory path

variable (x : Snapshot)

def sections : List String :=
  x.code.keys

def startOf? (run : List Instruction) : Option Int :=
  run.head?.map Instruction.address

/-- The entries with instructions, by their first address; ties in listing order. -/
def sortedEntries (entries : Entries) : Entries :=
  (entries.filter fun e => !e.2.isEmpty).mergeSort fun a b =>
    (startOf? a.2).getD 0 ≤ (startOf? b.2).getD 0

def entries? (s : String) : Option (List String) :=
  (x.code.get? s).map fun entries => (sortedEntries entries).keys

def entryAt? (entries : Entries) (address : Int) : Option (List Instruction) :=
  (entries.find? fun e => startOf? e.2 = some address).map Prod.snd

/-- The instructions of an entry. An entry may also be called by any name that the symbol table has for the
address at which it starts. -/
def instructions? (s name : String) : Option (List Instruction) := do
  let entries ← x.code.get? s
  match entries.get? name with
  | some run => return run
  | none =>
    (x.symbols.inSection s).findSome? fun (address, names) =>
      if names.any (·.name = name) then entryAt? entries address else none

def intervalAt? (s : String) (address : Int) : Option Interval := do
  let xs ← x.ranges.get? s
  let n := Halving.partitionPoint (fun y => decide (y.span.start ≤ address)) xs
  if n = 0 then none
  else (xs[n - 1]?).filter fun y => y.span.contains address

def resolve? (s : String) (address : Int) : Option (List SourcePosition) := do
  let y ← x.intervalAt? s address
  (← x.sequences[y.index]?).positionsAt? address

def intervals (s : String) : List Interval :=
  (Keyed.get? x.matching.table s).getD []

def boundSequences : List LineSequence :=
  x.matching.table.flatMap fun (_, xs) => xs.filterMap fun y => x.sequences[y.index]?

def sourceFiles : List String :=
  let files := x.boundSequences.flatMap fun q =>
    q.rows.flatMap fun row => row.2.filterMap SourcePosition.file
  files.eraseDups.mergeSort fun a b => !(b < a)

end Snapshot

end LineAtlas
