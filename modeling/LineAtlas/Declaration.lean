import LineAtlas.DebugInfo

/-!
# Declarations

Where every named subprogram is declared. The debug info gives file indices; they are the indices of the
file table of the line program.
-/

namespace LineAtlas

structure Declaration where
  file : String
  line : Int
  deriving DecidableEq, Repr

abbrev FileTable := Keyed Nat String

abbrev DeclarationTable := Keyed String Declaration

namespace NodeTable

/-- The location of a node: its own, or else that of its origin. -/
def location? (nodes : NodeTable) (n : SubprogramNode) : Option (Nat × Nat) :=
  match n.location? with
  | some l => some l
  | none => (n.origin.bind (Keyed.get? nodes)).bind SubprogramNode.location?

/-- The file index and line of every named subprogram that has a location. Of several nodes of one name
the last counts, at the place of the first. -/
def resolve (nodes : NodeTable) : Keyed String (Nat × Nat) :=
  List.foldl (fun found (_, n) =>
    match n.symbolName, location? nodes n with
    | some name, some l => Keyed.put found name l
    | _, _ => found) [] nodes

def unresolvedNotices (nodes : NodeTable) : List Notice :=
  List.filterMap (fun (_, n) =>
    match n.symbolName, location? nodes n with
    | some name, none =>
      some ⟨.debug, s!"Subprogram '{name}' at <{n.id}> has no declaration location"⟩
    | _, _ => none) nodes

end NodeTable

namespace DeclarationTable

/-- Replaces file indices by paths; subprograms of an unknown file are left out. -/
def join (resolved : Keyed String (Nat × Nat)) (files : FileTable) : DeclarationTable :=
  resolved.filterMap fun (name, index, line) =>
    (files.get? index).map fun path => (name, ⟨path, line⟩)

def unjoinedNotices (resolved : Keyed String (Nat × Nat)) (files : FileTable) : List Notice :=
  resolved.filterMap fun (name, index, _) =>
    if (files.get? index).isSome then none
    else some ⟨.debug, s!"Subprogram '{name}' refers to unknown file index {index}"⟩

end DeclarationTable

end LineAtlas
