import LineAtlas.Text.Digit

/-!
# Columns

Numbers and words set in columns of a given width. A text wider than its column is never cut. Widths count
characters; a minus sign stands in front of the zeros that fill a number.
-/

namespace LineAtlas.Text

def fill (c : Char) (width : Nat) (s : String) : String :=
  String.ofList (List.replicate (width - s.length) c)

def alignRight (width : Nat) (s : String) : String :=
  fill ' ' width s ++ s

def alignLeft (width : Nat) (s : String) : String :=
  s ++ fill ' ' width s

def minus (n : Int) : String :=
  if n < 0 then "-" else ""

def hexInt (n : Int) : String :=
  minus n ++ hexText n.natAbs

/-- `mark` and the digits after the sign, with zeros between to fill the width. -/
def zeroFilledHex (mark : String) (width : Nat) (n : Int) : String :=
  let digits := hexText n.natAbs
  minus n ++ mark ++ fill '0' width (minus n ++ mark ++ digits) ++ digits

theorem length_alignLeft (width : Nat) (s : String) :
    (alignLeft width s).length = max width s.length := by
  simp [alignLeft, fill, String.length_append, String.length_ofList]
  omega

theorem length_alignRight (width : Nat) (s : String) :
    (alignRight width s).length = max width s.length := by
  simp [alignRight, fill, String.length_append, String.length_ofList]
  omega

end LineAtlas.Text
