import LineAtlas.Text.Blank
import LineAtlas.Text.Digit

/-!
# Scanning a line

Small scanners over the characters of a line. Each takes what it accepts from the front and answers with
what is left; `none` means that the text does not start that way. Dump lines are recognised by running
a few of them in turn.
-/

namespace LineAtlas.Text

def after? (lit : List Char) (cs : List Char) : Option (List Char) :=
  match lit, cs with
  | [], cs => some cs
  | _ :: _, [] => none
  | l :: lit, c :: cs => if l = c then after? lit cs else none

theorem after?_eq_some_iff {lit cs rest : List Char} :
    after? lit cs = some rest ↔ cs = lit ++ rest := by
  induction lit generalizing cs with
  | nil => simp [after?]
  | cons l lit ih =>
    cases cs with
    | nil => simp [after?]
    | cons c cs =>
      by_cases h : l = c
      · simp [after?, h, ih]
      · simp [after?, h, Ne.symm h]

theorem after?_append (lit rest : List Char) : after? lit (lit ++ rest) = some rest :=
  after?_eq_some_iff.2 rfl

def skip? (lit : String) (cs : List Char) : Option (List Char) :=
  after? lit.toList cs

/-- The longest run of characters satisfying `p`, which must not be empty, and what follows it. -/
def run? (p : Char → Bool) (cs : List Char) : Option (List Char × List Char) :=
  match cs.takeWhile p with
  | [] => none
  | taken => some (taken, cs.dropWhile p)

def blanks? (cs : List Char) : Option (List Char) :=
  (run? isBlank cs).map (·.2)

def digits? (cs : List Char) : Option (List Char × List Char) :=
  run? isDigit cs

def hexDigits? (cs : List Char) : Option (List Char × List Char) :=
  run? isHexDigit cs

def hex? (cs : List Char) : Option (Nat × List Char) :=
  (hexDigits? cs).map fun (ds, rest) => (hexValue ds, rest)

/-- A decimal number with an optional minus in front, of which only the end matters. -/
def signedDecimal? (cs : List Char) : Option (List Char) :=
  (digits? ((skip? "-" cs).getD cs)).map (·.2)

def oneLine? (cs : List Char) : Option String :=
  if '\n' ∈ cs then none else some (String.ofList cs)

def value? (cs : List Char) : Option String :=
  (blanks? cs).bind oneLine?

def atEnd? (cs : List Char) : Option Unit :=
  if cs.isEmpty then some () else none

def before? (lit : String) (cs : List Char) : Option (List Char) :=
  (after? lit.toList.reverse cs.reverse).map List.reverse

def search? (f : List Char → Option α) : List Char → Option α
  | [] => f []
  | c :: cs =>
    match f (c :: cs) with
    | some a => some a
    | none => search? f cs

def afterLast? (lit : List Char) : List Char → Option (List Char)
  | [] => after? lit []
  | c :: cs =>
    match afterLast? lit cs with
    | some rest => some rest
    | none => after? lit (c :: cs)

def containsText (lit : String) (cs : List Char) : Bool :=
  (search? (skip? lit) cs).isSome

def orElse? (f g : List Char → Option α) (cs : List Char) : Option α :=
  match f cs with
  | some a => some a
  | none => g cs

end LineAtlas.Text
