import LineAtlas.Dump
import LineAtlas.Keyed

/-!
# The symbol table

The names of every section by address. Several names may share an address; they are kept in dump order,
as are the sections and the addresses.
-/

namespace LineAtlas

open Text

structure SymbolAlias where
  name : String
  stop : Int
  deriving DecidableEq, Repr

abbrev SymbolTable := Keyed String (Keyed Int (List SymbolAlias))

namespace SymbolTable

structure Row where
  address : Nat
  home : String
  size : Nat
  name : String
  deriving DecidableEq, Repr

/-- The seven flag characters between two spaces, any but a line break. -/
def flags? (cs : List Char) : Option (List Char) := do
  let cs ← skip? " " cs
  if (cs.take 7).length = 7 ∧ '\n' ∉ cs.take 7 then skip? " " (cs.drop 7) else none

/-- A row: address, flags, section, size and name, of which only the name may hold blanks. -/
def Row.ofText? (line : String) : Option Row := do
  let (address, cs) ← hex? line.toList
  let (home, cs) ← run? (fun c => !isBlank c) (← flags? cs)
  let (size, cs) ← hex? (← blanks? cs)
  let name ← value? cs
  return ⟨address, String.ofList home, size, name⟩

def isFiller (line : String) : Bool :=
  line == "" || line == "SYMBOL TABLE:" || isBanner line.toList

def add (t : SymbolTable) (r : Row) : SymbolTable :=
  t.alter r.home fun addresses =>
    Keyed.alter (addresses.getD []) (r.address : Int) fun names =>
      names.getD [] ++ [⟨r.name, r.address + r.size⟩]

def readLine (t : SymbolTable) (line : String) : Except Fault (Option (SymbolTable × List Notice)) :=
  match Row.ofText? line with
  | some r => .ok (some (t.add r, []))
  | none => .ok (if isFiller line then some (t, []) else none)

def format : DumpFormat SymbolTable :=
  ⟨"symbol table", [], readLine⟩

def read (lines : List String) : Logged (Reading SymbolTable) := do
  let r ← format.read lines
  Logged.notice .debug s!"Parsed symbols for {r.state.length} sections"
  return r

def inSection (t : SymbolTable) (s : String) : Keyed Int (List SymbolAlias) :=
  (Keyed.get? t s).getD []

def namesAt (t : SymbolTable) (s : String) (address : Int) : List String :=
  (((t.inSection s).get? address).getD []).map SymbolAlias.name

end SymbolTable

end LineAtlas
