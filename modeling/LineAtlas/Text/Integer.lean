import LineAtlas.Text.Scan

/-!
# Numerals in arguments

Numbers as a user may write them: blanks around, a sign, digits of any script and single underscores
between digits. Integers have a value; of decimal fractions only the form is checked.
-/

namespace LineAtlas.Text

/-- The blanks that may stand around a numeral; the separators of the control range may not. -/
def isPadding (c : Char) : Bool :=
  isBlank c && !(28 ≤ c.toNat && c.toNat ≤ 31)

def withoutPadding (cs : List Char) : List Char :=
  dropTrailing isPadding (cs.dropWhile isPadding)

/-- The digits of `1_000` without the underscores, which may only stand between two digits. -/
def ungrouped? : List Char → Option (List Char)
  | [] => none
  | [c] => if isDigit c then some [c] else none
  | c :: '_' :: cs => if isDigit c then (ungrouped? cs).map (c :: ·) else none
  | c :: cs => if isDigit c then (ungrouped? cs).map (c :: ·) else none

def splitSign : List Char → Bool × List Char
  | '-' :: cs => (true, cs)
  | '+' :: cs => (false, cs)
  | cs => (false, cs)

namespace Integer

def read? (cs : List Char) : Option Int := do
  let (negative, digits) := splitSign (withoutPadding cs)
  let ds ← ungrouped? digits
  if maxDigits < ds.length then none
  else
    let n : Int := decimalValue ds
    return if negative then -n else n

end Integer

namespace Fraction

def exponentOk (cs : List Char) : Bool :=
  match cs with
  | [] => true
  | c :: cs => (c == 'e' || c == 'E') && (ungrouped? (splitSign cs).2).isSome

def digitRun (cs : List Char) : List Char × List Char :=
  let inRun c := isDigit c || c == '_'
  (cs.takeWhile inRun, cs.dropWhile inRun)

def runOk (run : List Char) : Bool :=
  run.isEmpty || (ungrouped? run).isSome

def plainOk (cs : List Char) : Bool :=
  let (whole, rest) := digitRun cs
  match rest with
  | '.' :: rest =>
    let (part, rest) := digitRun rest
    runOk whole && runOk part && !(whole.isEmpty && part.isEmpty) && exponentOk rest
  | rest => (ungrouped? whole).isSome && exponentOk rest

/-- Whether the text is a number with an optional fraction and exponent, or names an infinity or no number
at all, in any case of letters. -/
def isNumeral (cs : List Char) : Bool :=
  let (_, body) := splitSign (withoutPadding cs)
  let word := String.ofList (body.map Char.toLower)
  word == "inf" || word == "infinity" || word == "nan" || plainOk body

end Fraction

end LineAtlas.Text
