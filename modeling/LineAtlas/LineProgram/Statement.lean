import LineAtlas.Text.Numeral

/-!
# Statements of the line program

A statement is printed as a sentence with numbers in it. Only the numbers that the machine uses are kept:
increments are printed together with the value they lead to, and the value counts. Decimal numbers are
read when the statement is to be carried out.
-/

namespace LineAtlas.LineProgram

open Text

/-- A statement with its decimal numbers, as they are written or as they are read. -/
inductive Statement (ν : Type)
  | setColumn (column : ν)
  | setAddress (address : Nat)
  | setLine (line : ν)
  | special (address : Nat) (line : ν)
  | copy
  | setIsStmt (flag : Bool)
  | setDiscriminator (discriminator : ν)
  | setFile (index : ν) (written : String)
  | endSequence
  deriving DecidableEq, Repr

namespace Statement

def viewEnd? (cs : List Char) : Option Unit :=
  if cs.isEmpty then some ()
  else do
    let (_, cs) ← digits? (← skip? " (view " cs)
    atEnd? (← skip? ")" cs)

def extended? (cs : List Char) : Option (List Char) := do
  let (_, cs) ← digits? (← skip? "Extended opcode " cs)
  skip? ": " cs

def setColumn? (cs : List Char) : Option (Statement Numeral) := do
  let (n, cs) ← numeral? (← skip? "Set column to " cs)
  atEnd? cs
  return .setColumn n

def setAddress? (cs : List Char) : Option (Statement Numeral) := do
  let (n, cs) ← hex? (← skip? "Extended opcode 2: set Address to 0x" cs)
  atEnd? cs
  return .setAddress n

def setLine? (cs : List Char) : Option (Statement Numeral) := do
  let cs ← signedDecimal? (← skip? "Advance Line by " cs)
  let (n, cs) ← numeral? (← skip? " to " cs)
  atEnd? cs
  return .setLine n

def special? (cs : List Char) : Option (Statement Numeral) := do
  let (_, cs) ← digits? (← skip? "Special opcode " cs)
  let (_, cs) ← digits? (← skip? ": advance Address by " cs)
  let (address, cs) ← hex? (← skip? " to 0x" cs)
  let cs ← signedDecimal? (← skip? " and Line by " cs)
  let (line, cs) ← numeral? (← skip? " to " cs)
  viewEnd? cs
  return .special address line

def copy? (cs : List Char) : Option (Statement Numeral) := do
  viewEnd? (← skip? "Copy" cs)
  return .copy

/-- Any flag but a single zero counts as set. -/
def setIsStmt? (cs : List Char) : Option (Statement Numeral) := do
  let (flag, cs) ← digits? (← skip? "Set is_stmt to " cs)
  atEnd? cs
  return .setIsStmt (flag != ['0'])

def advanceAddress? (lead : String) (cs : List Char) : Option (Statement Numeral) := do
  let cs ← signedDecimal? (← skip? lead cs)
  let (n, cs) ← hex? (← skip? " to 0x" cs)
  atEnd? cs
  return .setAddress n

def setDiscriminator? (cs : List Char) : Option (Statement Numeral) := do
  let (n, cs) ← numeral? (← skip? "set Discriminator to " (← extended? cs))
  atEnd? cs
  return .setDiscriminator n

def setFile? (cs : List Char) : Option (Statement Numeral) := do
  let (index, cs) ← numeral? (← skip? "Set File Name to entry " cs)
  atEnd? (← skip? " in the File Name Table" cs)
  return .setFile index index.text

def endSequence? (cs : List Char) : Option (Statement Numeral) := do
  atEnd? (← skip? "End of Sequence" (← extended? cs))
  return .endSequence

def ofText? (text : String) : Option (Statement Numeral) :=
  let forms := [setColumn?, setAddress?, setLine?, special?, copy?, setIsStmt?,
    advanceAddress? "Advance PC by ", advanceAddress? "Advance PC by constant ",
    setDiscriminator?, setFile?, endSequence?]
  forms.findSome? fun form => form text.toList

def read : Statement Numeral → Except Fault (Statement Nat)
  | .setColumn n => n.read.map .setColumn
  | .setAddress n => .ok (.setAddress n)
  | .setLine n => n.read.map .setLine
  | .special address line => line.read.map (.special address)
  | .copy => .ok .copy
  | .setIsStmt flag => .ok (.setIsStmt flag)
  | .setDiscriminator n => n.read.map .setDiscriminator
  | .setFile index written => index.read.map (.setFile · written)
  | .endSequence => .ok .endSequence

end Statement

end LineAtlas.LineProgram
