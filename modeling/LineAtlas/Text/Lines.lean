/-!
# Lines of a text

A text is cut at every line boundary of Unicode, a carriage return followed by a line feed being one.
The boundary belongs to the line it ends, so a text that ends with one has no empty last line.
-/

namespace LineAtlas.Text

def isLineBreak (c : Char) : Bool :=
  let n := c.toNat
  (10 ≤ n && n ≤ 13) || (28 ≤ n && n ≤ 30) || n == 0x85 || n == 0x2028 || n == 0x2029

def splitLines : List Char → List (List Char)
  | [] => []
  | '\r' :: '\n' :: cs => [] :: splitLines cs
  | c :: cs =>
    if isLineBreak c then [] :: splitLines cs
    else
      match splitLines cs with
      | [] => [[c]]
      | line :: lines => (c :: line) :: lines

def linesOf (text : String) : List String :=
  (splitLines text.toList).map String.ofList

end LineAtlas.Text
