import LineAtlas.Declaration
import LineAtlas.Proofs.DebugInfo
import LineAtlas.Proofs.Keyed

/-!
# Where subprograms are declared

A declaration takes its file index and its line from one node: the node that has the name, or the one
that it names as its origin. Of several nodes of a name that have a location the last counts, and only
then is its file looked for, so that a file that is not there leaves the name without a declaration.
-/

namespace LineAtlas

namespace SubprogramNode

/-- The node is known by its linkage name, or by its name if it has none. -/
def Named (n : SubprogramNode) (name : String) : Prop :=
  n.linkageName = some name ∨ n.linkageName = none ∧ n.name = some name

def States (n : SubprogramNode) (f l : Nat) : Prop :=
  n.fileIndex = some f ∧ n.line = some l

theorem symbolName_eq_some_iff {n : SubprogramNode} {name : String} :
    n.symbolName = some name ↔ n.Named name := by
  rw [symbolName, Named]
  cases n.linkageName <;> simp

theorem location?_eq_some_iff {n : SubprogramNode} {f l : Nat} :
    n.location? = some (f, l) ↔ n.States f l := by
  rw [location?, States]
  cases n.fileIndex <;> cases n.line <;> simp

theorem location?_eq_none_iff {n : SubprogramNode} :
    n.location? = none ↔ n.fileIndex = none ∨ n.line = none := by
  rw [location?]
  cases n.fileIndex <;> cases n.line <;> simp

end SubprogramNode

namespace NodeTable

variable (nodes : NodeTable)

/-- The location of a node: what it states itself, or what its origin states if it does not state both. -/
inductive Locates (n : SubprogramNode) (f l : Nat) : Prop
  | own (h : n.States f l)
  | origin {id : String} {o : SubprogramNode} (hown : n.fileIndex = none ∨ n.line = none)
      (hid : n.origin = some id) (ho : Keyed.get? nodes id = some o) (h : o.States f l)

/-- The last node of a name that has a location has this one. -/
def Declares (name : String) (f l : Nat) : Prop :=
  ∃ before x after, nodes = before ++ x :: after ∧ x.2.Named name ∧ Locates nodes x.2 f l ∧
    ∀ y ∈ after, y.2.Named name → ∀ f' l', ¬ Locates nodes y.2 f' l'

variable {nodes}

theorem location?_eq_some_iff {n : SubprogramNode} {f l : Nat} :
    location? nodes n = some (f, l) ↔ Locates nodes n f l := by
  rw [location?]
  cases hown : n.location? with
  | some at' =>
      obtain ⟨f', l'⟩ := at'
      have hstates := SubprogramNode.location?_eq_some_iff.1 hown
      constructor
      · intro h
        cases h
        exact .own hstates
      · rintro (h | ⟨hnot, -, -, -⟩)
        · rw [← SubprogramNode.location?_eq_some_iff, hown] at h
          exact h
        · rw [← SubprogramNode.location?_eq_none_iff, hown] at hnot
          cases hnot
  | none =>
      have hnot := SubprogramNode.location?_eq_none_iff.1 hown
      simp only [Option.bind_eq_some_iff]
      constructor
      · rintro ⟨o, ⟨id, hid, ho⟩, h⟩
        exact .origin hnot hid ho (SubprogramNode.location?_eq_some_iff.1 h)
      · rintro (h | ⟨-, hid, ho, h⟩)
        · rw [← SubprogramNode.location?_eq_some_iff, hown] at h
          cases h
        · exact ⟨_, ⟨_, hid, ho⟩, SubprogramNode.location?_eq_some_iff.2 h⟩

/-- A node that does not state both takes nothing from an origin that is not there or does not state
both either: whatever that has for its own origin, itself or another, is not looked at. -/
theorem not_locates {n : SubprogramNode} (hown : n.fileIndex = none ∨ n.line = none)
    (horigin : ∀ id o, n.origin = some id → Keyed.get? nodes id = some o →
      o.fileIndex = none ∨ o.line = none) (f l : Nat) : ¬ Locates nodes n f l := by
  rintro (h | ⟨-, hid, ho, h⟩)
  · rw [← SubprogramNode.location?_eq_none_iff, SubprogramNode.location?_eq_some_iff.2 h] at hown
    cases hown
  · have hnone := horigin _ _ hid ho
    rw [← SubprogramNode.location?_eq_none_iff, SubprogramNode.location?_eq_some_iff.2 h] at hnone
    cases hnone

/-! ## Resolving -/

def located? (nodes : NodeTable) (x : String × SubprogramNode) : Option (String × (Nat × Nat)) :=
  match x.2.symbolName, location? nodes x.2 with
  | some name, some l => some (name, l)
  | _, _ => none

theorem located?_eq_some_iff {x : String × SubprogramNode} {name : String} {f l : Nat} :
    located? nodes x = some (name, (f, l)) ↔ x.2.Named name ∧ Locates nodes x.2 f l := by
  rw [located?, ← SubprogramNode.symbolName_eq_some_iff, ← location?_eq_some_iff]
  cases x.2.symbolName <;> cases location? nodes x.2 <;> simp

/-- A node has nothing for a name that is not its own, and nothing at all without a location. -/
theorem located?_ne_iff {x : String × SubprogramNode} {name : String} :
    (∀ l, located? nodes x ≠ some (name, l)) ↔
      (x.2.Named name → ∀ f l, ¬ Locates nodes x.2 f l) := by
  simp only [Prod.forall, ne_eq, located?_eq_some_iff, not_and]
  exact ⟨fun h hname f l => h f l hname, fun h f l hname => h hname f l⟩

theorem resolve_eq (nodes : NodeTable) : resolve nodes = Keyed.collect (located? nodes) nodes := by
  rw [resolve, Keyed.collect]
  congr 1
  funext found x
  obtain ⟨id, n⟩ := x
  simp only [located?]
  cases n.symbolName <;> cases location? nodes n <;> rfl

theorem get?_resolve_eq_some_iff {name : String} {f l : Nat} :
    Keyed.get? (resolve nodes) name = some (f, l) ↔ Declares nodes name f l := by
  rw [resolve_eq, Keyed.get?_collect_eq_some_iff]
  simp only [located?_ne_iff, located?_eq_some_iff, Declares, and_assoc]

/-- A name is not resolved when no node of it has a location. -/
theorem get?_resolve_eq_none_iff {name : String} : Keyed.get? (resolve nodes) name = none ↔
    ∀ x ∈ nodes, x.2.Named name → ∀ f l, ¬ Locates nodes x.2 f l := by
  rw [resolve_eq, Keyed.get?_collect_eq_none_iff]
  simp only [located?_ne_iff]

end NodeTable

namespace DeclarationTable

/-- Joining looks for the file of the location that a name was resolved to. -/
theorem get?_join (nodes : NodeTable) (files : FileTable) (name : String) :
    (join (NodeTable.resolve nodes) files).get? name =
      (Keyed.get? (NodeTable.resolve nodes) name).bind fun l =>
        (files.get? l.1).map fun path => ⟨path, l.2⟩ := by
  have hkeys : (Keyed.keys (NodeTable.resolve nodes)).Nodup := by
    rw [NodeTable.resolve_eq]
    exact Keyed.nodup_keys_collect _ _
  rw [← Keyed.get?_filterMap hkeys, join]
  simp only [Option.map_map]
  rfl

theorem get?_join_eq_some_iff {nodes : NodeTable} {files : FileTable} {name path : String}
    {line : Int} : (join (NodeTable.resolve nodes) files).get? name = some ⟨path, line⟩ ↔
      ∃ f l, NodeTable.Declares nodes name f l ∧ files.get? f = some path ∧ line = (l : Nat) := by
  rw [get?_join]
  simp only [Option.bind_eq_some_iff, Option.map_eq_some_iff, Prod.exists,
    NodeTable.get?_resolve_eq_some_iff, Declaration.mk.injEq]
  constructor
  · rintro ⟨f, l, hl, path, hpath, rfl, rfl⟩
    exact ⟨f, l, hl, hpath, rfl⟩
  · rintro ⟨f, l, hl, hpath, rfl⟩
    exact ⟨f, l, hl, path, hpath, rfl, rfl⟩

theorem get?_join_eq_none_iff {nodes : NodeTable} {files : FileTable} {name : String} :
    (join (NodeTable.resolve nodes) files).get? name = none ↔
      (∀ x ∈ nodes, x.2.Named name → ∀ f l, ¬ NodeTable.Locates nodes x.2 f l) ∨
        ∃ f l, NodeTable.Declares nodes name f l ∧ files.get? f = none := by
  rw [get?_join, ← NodeTable.get?_resolve_eq_none_iff]
  cases hget : Keyed.get? (NodeTable.resolve nodes) name with
  | none => simp
  | some at' =>
      obtain ⟨f, l⟩ := at'
      have hunique : ∀ f' l', NodeTable.Declares nodes name f' l' ↔ f = f' ∧ l = l' := by
        intro f' l'
        rw [← NodeTable.get?_resolve_eq_some_iff, hget, Option.some.injEq, Prod.mk.injEq]
      simp [hunique]

end DeclarationTable

/-- The index of declarations that debug info, once read, and a file table make together. A name is declared in
the file and at the line of the last node of that name with a location, and it is not declared when there
is no such node or when its file is not in the table. A node that does not state both file index and line
takes both from its origin or neither, and the origin of an origin is not looked at. The nodes are those of
the dump: each is made from the last lines that belong to it. -/
theorem declarations_of_last_located {lines : List String} {r : Reading DebugInfo}
    (hread : (DebugInfo.read lines).outcome = .ok r) (files : FileTable) (name : String) :
    let nodes := r.state.nodes
    let declared := DeclarationTable.join (NodeTable.resolve nodes) files
    (∀ id n, nodes.get? id = some n ↔ n.id = id ∧ ∃ tag stretch,
      DebugInfo.LastStretch lines id tag stretch ∧ DebugInfo.Describes stretch tag n) ∧
    (∀ path line, declared.get? name = some ⟨path, line⟩ ↔
      ∃ f l, NodeTable.Declares nodes name f l ∧ files.get? f = some path ∧ line = (l : Nat)) ∧
    (declared.get? name = none ↔
      (∀ x ∈ nodes, x.2.Named name → ∀ f l, ¬ NodeTable.Locates nodes x.2 f l) ∨
        ∃ f l, NodeTable.Declares nodes name f l ∧ files.get? f = none) ∧
    ∀ n, n.fileIndex = none ∨ n.line = none →
      (∀ id o, n.origin = some id → Keyed.get? nodes id = some o →
        o.fileIndex = none ∨ o.line = none) →
      ∀ f l, ¬ NodeTable.Locates nodes n f l := by
  intro nodes declared
  refine ⟨fun id n => DebugInfo.get?_nodes_eq_some_iff hread, ?_, ?_, ?_⟩
  · exact fun path line => DeclarationTable.get?_join_eq_some_iff
  · exact DeclarationTable.get?_join_eq_none_iff
  · intro n hown horigin f l
    exact NodeTable.not_locates hown horigin f l

/-- Two nodes of one name, of which the later has only a line of its own and takes its location from its
origin, and a node whose origin is two steps away from a location. -/
def inlinedTwice : List String :=
  ["<1>: (DW_TAG_subprogram)", "DW_AT_name: f", "DW_AT_decl_file: 1", "DW_AT_decl_line: 3",
    "<2>: (DW_TAG_subprogram)", "DW_AT_decl_file: 2", "DW_AT_decl_line: 7",
    "<3>: (DW_TAG_subprogram)", "DW_AT_name: f", "DW_AT_decl_line: 9",
    "DW_AT_abstract_origin: <0x2>",
    "<4>: (DW_TAG_subprogram)", "DW_AT_name: g", "DW_AT_abstract_origin: <0x3>"]

theorem declarations_of_last_located_inlinedTwice :
    let files : FileTable := [(1, "a.c"), (2, "b.h")]
    ∃ r, (DebugInfo.read inlinedTwice).outcome = .ok r ∧
      (∃ f, NodeTable.Declares r.state.nodes "f" f 7 ∧ files.get? f = some "b.h") ∧
      (DeclarationTable.join (NodeTable.resolve r.state.nodes) files).get? "g" = none := by
  intro files
  have hread : (DebugInfo.read inlinedTwice).outcome.toOption.map (fun r =>
      let declared := DeclarationTable.join (NodeTable.resolve r.state.nodes) files
      (declared.get? "f", declared.get? "g")) = some (some ⟨"b.h", 7⟩, none) := by
    decide +kernel
  obtain ⟨r, hr, hnames⟩ := Logged.exists_outcome_eq_ok hread
  obtain ⟨hf, hg⟩ := Prod.mk.inj hnames
  obtain ⟨-, hdeclared, -, -⟩ := declarations_of_last_located hr files "f"
  obtain ⟨f, l, hlast, hpath, hline⟩ := (hdeclared "b.h" 7).1 hf
  obtain rfl : l = 7 := by omega
  exact ⟨r, hr, ⟨f, hlast, hpath⟩, hg⟩

end LineAtlas
