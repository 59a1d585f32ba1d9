import LineAtlas.Listing
import LineAtlas.LineProgram
import LineAtlas.Span
import LineAtlas.SymbolTable

/-!
# What is matched

Nothing in the line program says which section a sequence speaks about. The matching finds out from the
code, the symbols and the declarations. For every sequence it keeps the candidates, the sections that the
sequence may still speak about, in listing order.
-/

namespace LineAtlas.Matching

structure Problem where
  listed : List String
  code : CodeTable
  sequences : List LineSequence
  symbols : SymbolTable
  declarations : DeclarationTable

abbrev Candidates := List (List String)

namespace Problem

variable (p : Problem)

def extent? (s : String) : Option Extent :=
  (p.code.get? s).bind Extent.ofEntries?

/-- The listed sections with code in them; no sequence speaks about another. -/
def sections : List String :=
  p.listed.filter fun s => (p.extent? s).isSome

def firstEqual? (i : Nat) (q : LineSequence) : Option Nat :=
  (p.sequences.findIdx? (· = q)).filter (· < i)

def duplicates : Keyed Nat Nat :=
  p.sequences.zipIdx.filterMap fun (q, i) => (p.firstEqual? i q).map (i, ·)

/-- All sections for every sequence to be placed: repeated and empty ones are not. -/
def initial : Candidates :=
  p.sequences.zipIdx.map fun (q, i) =>
    if (p.firstEqual? i q).isSome || q.isEmpty then [] else p.sections

def narrow (f : LineSequence → List String → List String) (c : Candidates) : Candidates :=
  List.zipWith f p.sequences c

end Problem

def whenAmbiguous (f : List String → List String) (candidates : List String) : List String :=
  if candidates.length ≤ 1 then candidates else f candidates

end LineAtlas.Matching
