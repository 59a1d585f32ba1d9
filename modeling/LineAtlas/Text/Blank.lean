/-!
# Blanks

The blank characters that set the words of a dump line apart, and trimming by them. All the blanks of
Unicode count, the separators of the control range among them, so `isBlank` is a table and not the
ASCII test of `Char`.
-/

namespace LineAtlas.Text

def isBlank (c : Char) : Bool :=
  let n := c.toNat
  (9 ≤ n && n ≤ 13) || (28 ≤ n && n ≤ 32) || n == 0x85 || n == 0xA0 || n == 0x1680 ||
    (0x2000 ≤ n && n ≤ 0x200A) || n == 0x2028 || n == 0x2029 || n == 0x202F || n == 0x205F ||
    n == 0x3000

def dropBlanks (cs : List Char) : List Char :=
  cs.dropWhile isBlank

def dropTrailing (p : Char → Bool) : List Char → List Char
  | [] => []
  | c :: cs =>
    match dropTrailing p cs with
    | [] => if p c then [] else [c]
    | kept => c :: kept

def trimEnd (cs : List Char) : List Char :=
  dropTrailing isBlank cs

def trim (cs : List Char) : List Char :=
  trimEnd (dropBlanks cs)

/-- A dump line as it is read: without the line end it was captured with. -/
def withoutLineEnd (line : String) : String :=
  String.ofList (dropTrailing (fun c => c == '\r' || c == '\n') line.toList)

theorem dropTrailing_append_singleton (p : Char → Bool) (cs : List Char) (c : Char) :
    dropTrailing p (cs ++ [c]) = if p c then dropTrailing p cs else cs ++ [c] := by
  induction cs with
  | nil => simp [dropTrailing]
  | cons d ds ih =>
    by_cases h : p c
    · simp [dropTrailing, ih, h]
    · simp only [h, Bool.false_eq_true, if_false] at ih ⊢
      cases ds <;> simp_all [dropTrailing]

theorem trimEnd_eq_self_of_getLast {cs : List Char} {c : Char} (h : isBlank c = false) :
    trimEnd (cs ++ [c]) = cs ++ [c] := by
  simp [trimEnd, dropTrailing_append_singleton, h]

end LineAtlas.Text
