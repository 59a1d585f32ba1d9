import LineAtlas.DebugInfo.Line
import LineAtlas.Dump
import LineAtlas.Keyed

/-!
# Subprograms of the debug info tree

The nodes of the tree with what they say about where a subprogram is declared. A node declares a
subprogram itself or names as its origin the node that does, and one such step is followed.
-/

namespace LineAtlas

open Text

structure SubprogramNode where
  id : String
  name : Option String := none
  linkageName : Option String := none
  fileIndex : Option Nat := none
  line : Option Nat := none
  origin : Option String := none
  deriving DecidableEq, Repr

namespace SubprogramNode

/-- The name by which the symbol table knows the subprogram. -/
def symbolName (n : SubprogramNode) : Option String :=
  n.linkageName.or n.name

def location? (n : SubprogramNode) : Option (Nat × Nat) :=
  match n.fileIndex, n.line with
  | some f, some l => some (f, l)
  | _, _ => none

def record (n : SubprogramNode) : DebugInfo.Attribute Nat → SubprogramNode
  | .name v => { n with name := some v }
  | .linkageName v => { n with linkageName := some v }
  | .origin id => { n with origin := some id }
  | .declFile f => { n with fileIndex := some f }
  | .declLine l => { n with line := some l }

end SubprogramNode

abbrev NodeTable := Keyed String SubprogramNode

/-- The node table read so far, with the id of the node that the next line belongs to, and the tag of
the last header. -/
structure DebugInfo where
  nodes : NodeTable
  current : Option String
  tag : String
  deriving DecidableEq, Repr

namespace DebugInfo

def empty : DebugInfo :=
  ⟨[], none, ""⟩

/-- A header opens a node anew; other lines count only within a subprogram, and a number is read only there. -/
def step (d : DebugInfo) (line : List Char) : Except Fault DebugInfo :=
  match header? line with
  | some (id, tag) => .ok ⟨d.nodes.put id { id }, some id, tag⟩
  | none =>
    match d.current, attribute? line with
    | some id, some a =>
      if d.tag = "subprogram" then do
        let a ← a.read
        return { d with nodes := d.nodes.change id (·.record a) }
      else .ok d
    | _, _ => .ok d

/-- Every line is accepted: the dump says far more than is of interest here. -/
def readLine (d : DebugInfo) (line : String) : Except Fault (Option (DebugInfo × List Notice)) :=
  (d.step line.toList).map fun d => some (d, [])

def format : DumpFormat DebugInfo :=
  ⟨"debug info", empty, readLine⟩

def read (lines : List String) : Logged (Reading DebugInfo) := do
  let r ← format.read lines
  Logged.notice .debug s!"Parsed {r.state.nodes.length} debug info nodes"
  return r

end DebugInfo

end LineAtlas
