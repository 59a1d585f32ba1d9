import LineAtlas.Dump

/-!
# Lines of the disassembly listing

What a line of the listing says. An instruction line has an address, the bytes as pairs of digits with
single spaces between them, and perhaps a text; a relocation line names the symbol that the operand of the
instruction before it refers to.
-/

namespace LineAtlas.Listing

open Text

inductive Line
  | instruction (address : Nat) (encoded : String) (text : Option String)
  | relocation (symbol : String)
  | entry (name : String)
  | filler
  | header (name : String)
  | banner
  deriving DecidableEq, Repr

def atWordEnd : List Char → Bool
  | [] => true
  | c :: _ => isBlank c

/-- The longest run of byte pairs with single spaces between them in which every pair ends a word, and what
follows it. -/
def bytePairs? : List Char → Option (List Char × List Char)
  | a :: b :: cs =>
    if isHexDigit a && isHexDigit b && atWordEnd cs then
      match cs with
      | ' ' :: more =>
        match bytePairs? more with
        | some (bytes, rest) => some (a :: b :: ' ' :: bytes, rest)
        | none => some ([a, b], cs)
      | _ => some ([a, b], cs)
    else none
  | _ => none

def body? (cs : List Char) : Option (Nat × List Char) := do
  let (address, cs) ← hex? (dropBlanks cs)
  let cs ← blanks? (← skip? ":" cs)
  return (address, cs)

def instruction? (cs : List Char) : Option Line := do
  let (address, cs) ← body? cs
  let (bytes, rest) ← bytePairs? cs
  match trim rest with
  | [] => return .instruction address (String.ofList bytes) none
  | text => return .instruction address (String.ofList bytes) (some (← oneLine? text))

/-- The symbol at the end of `R_TYPE SYMBOL`, given what follows `R_`. The gap before it is the run of
blanks that holds a line break if there is one, and else the last run of blanks, so of a symbol with
spaces inside only the last word is taken. -/
def relocationSymbol? (body : List Char) : Option String :=
  if '\n' ∈ body then
    let kind := trimEnd (body.takeWhile (· != '\n'))
    if kind.isEmpty then none else oneLine? (dropBlanks (body.drop kind.length))
  else
    let word := (body.reverse.takeWhile fun c => !isBlank c).reverse
    let kind := trimEnd (body.take (body.length - word.length))
    if kind.isEmpty then none else some (String.ofList word)

def relocation? (cs : List Char) : Option Line := do
  let (_, cs) ← body? cs
  let body ← skip? "R_" (trimEnd cs)
  return .relocation (← relocationSymbol? body)

def entry? (cs : List Char) : Option Line := do
  let (_, cs) ← hex? cs
  let name ← before? ">:" (← skip? " <" (trimEnd cs))
  return .entry (← oneLine? name)

def filler? (cs : List Char) : Option Line :=
  if trim cs = [] ∨ trim cs = "...".toList then some .filler else none

def header? (cs : List Char) : Option Line := do
  let name ← before? ":" (← skip? "Disassembly of section " (trimEnd cs))
  return .header (← oneLine? name)

def banner? (cs : List Char) : Option Line :=
  if isBanner cs then some .banner else none

def Line.ofText? (line : String) : Option Line :=
  let forms := [instruction?, relocation?, entry?, filler?, header?, banner?]
  forms.findSome? fun form => form line.toList

def withoutOffset (symbol : List Char) : List Char :=
  let digits := symbol.reverse.takeWhile isHexDigit
  match symbol.reverse.dropWhile isHexDigit with
  | 'x' :: '0' :: sign :: rest =>
    if !digits.isEmpty && (sign == '-' || sign == '+') then rest.reverse else symbol
  | _ => symbol

end LineAtlas.Listing
