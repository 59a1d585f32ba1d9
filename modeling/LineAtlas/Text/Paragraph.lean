import LineAtlas.Text.Blank
import LineAtlas.Text.Letter

/-!
# Paragraphs

A text set in lines of a given width. Words are kept together where they fit, but a hyphen between letters
ends a piece after which a line may end, and a run of hyphens between words is a piece of its own. A piece
wider than a line is cut.
-/

namespace LineAtlas.Text.Paragraph

/-- The blanks between words; any other blank belongs to its word. -/
def isGap (c : Char) : Bool :=
  c == ' ' || (9 ≤ c.toNat && c.toNat ≤ 13)

def isWordOrMark (c : Char) : Bool :=
  isWordChar c || "!\"'&.,?".toList.contains c

/-- Whether a line may end between two parts of a word, the first given from its end: after a hyphen that
two letters precede, with or without a hyphen between them, and that two letters follow. -/
def hyphenEnds (before rest : List Char) : Bool :=
  let letters := match before with
    | '-' :: a :: '-' :: b :: _ => isLetter a && isLetter b
    | '-' :: a :: b :: _ => isLetter a && isLetter b
    | _ => false
  letters &&
    match rest with
    | a :: '-' :: b :: _ => isLetter a && isLetter b
    | a :: b :: _ => isLetter a && isLetter b
    | _ => false

def dashStarts (before rest : List Char) : Bool :=
  let after := rest.dropWhile (· == '-')
  before.head?.any isWordOrMark && 2 ≤ (rest.takeWhile (· == '-')).length &&
    after.head?.any isWordChar

/-- The first piece of a word and what follows it. `whole` tells whether no character was taken yet. -/
def splitWord (before : List Char) (whole : Bool) : List Char → List Char × List Char
  | [] => ([], [])
  | c :: cs =>
    if cs.head?.all isGap || dashStarts (c :: before) cs || (!whole && hyphenEnds (c :: before) cs) then
      ([c], cs)
    else
      let (piece, rest) := splitWord (c :: before) false cs
      (c :: piece, rest)

def splitPiece (before : List Char) : List Char → List Char × List Char
  | [] => ([], [])
  | c :: cs =>
    if isGap c then
      (c :: cs.takeWhile isGap, cs.dropWhile isGap)
    else if dashStarts before (c :: cs) then
      ((c :: cs).takeWhile (· == '-'), (c :: cs).dropWhile (· == '-'))
    else splitWord before true (c :: cs)

theorem splitWord_append (before : List Char) (whole : Bool) (cs : List Char) :
    (splitWord before whole cs).1 ++ (splitWord before whole cs).2 = cs := by
  induction cs generalizing before whole with
  | nil => rfl
  | cons c cs ih =>
    simp only [splitWord]
    split
    · rfl
    · simp [ih]

theorem splitPiece_append (before cs : List Char) :
    (splitPiece before cs).1 ++ (splitPiece before cs).2 = cs := by
  cases cs with
  | nil => rfl
  | cons c cs =>
    simp only [splitPiece]
    split
    · simp [List.takeWhile_append_dropWhile]
    · split
      · exact List.takeWhile_append_dropWhile
      · exact splitWord_append ..

theorem splitPiece_ne_nil (before : List Char) (c : Char) (cs : List Char) :
    (splitPiece before (c :: cs)).1 ≠ [] := by
  simp only [splitPiece]
  split
  · simp
  · split
    · rename_i h
      intro hnil
      have hlen : ((c :: cs).takeWhile (· == '-')).length = 0 := congrArg List.length hnil
      simp [dashStarts, hlen] at h
    · simp only [splitWord]
      split <;> simp

theorem length_splitPiece_lt (before : List Char) (c : Char) (cs : List Char) :
    (splitPiece before (c :: cs)).2.length < (c :: cs).length := by
  have happ := congrArg List.length (splitPiece_append before (c :: cs))
  have hpos := List.length_pos_iff.2 (splitPiece_ne_nil before c cs)
  simp only [List.length_append] at happ
  omega

def piecesAfter (before : List Char) : List Char → List (List Char)
  | [] => []
  | c :: cs =>
    let piece := (splitPiece before (c :: cs)).1
    piece :: piecesAfter (piece.reverse ++ before) (splitPiece before (c :: cs)).2
termination_by cs => cs.length
decreasing_by exact length_splitPiece_lt before c cs

/-- The pieces together are the text. -/
theorem flatten_piecesAfter (before cs : List Char) : (piecesAfter before cs).flatten = cs := by
  fun_induction piecesAfter before cs with
  | case1 => rfl
  | case2 before c cs piece ih =>
    rw [List.flatten_cons, ih]
    exact splitPiece_append before (c :: cs)

def takeFitting (room : Nat) : List (List Char) → List (List Char) × List (List Char)
  | [] => ([], [])
  | p :: ps =>
    if p.length ≤ room then
      let (taken, rest) := takeFitting (room - p.length) ps
      (p :: taken, rest)
    else ([], p :: ps)

/-- How much of a piece that is wider than a line goes into the room left: up to its last hyphen there, unless
only hyphens stand before that. -/
def cutLength (room : Nat) (piece : List Char) : Nat :=
  let front := dropTrailing (· != '-') (piece.take room)
  if front.dropLast.any (· != '-') then front.length else room

def isBlankPiece (piece : List Char) : Bool :=
  (trim piece).isEmpty

/-- One line, and the pieces left. No line but the first starts with a gap, and none ends with one. -/
def takeLine (width : Nat) (first : Bool) (pieces : List (List Char)) :
    List Char × List (List Char) :=
  let pieces :=
    if !first && pieces.head?.any isBlankPiece then pieces.tail else pieces
  let (taken, rest) := takeFitting width pieces
  let (taken, rest) := match rest with
    | p :: ps =>
      if width < p.length then
        let n := cutLength (width - taken.flatten.length) p
        (taken ++ [p.take n], p.drop n :: ps)
      else (taken, p :: ps)
    | [] => (taken, [])
  ((if taken.getLast?.any isBlankPiece then taken.dropLast else taken).flatten, rest)

def fillLines (width : Nat) (first : Bool) : Nat → List (List Char) → List (List Char)
  | 0, _ | _, [] => []
  | n + 1, pieces =>
    match takeLine width first pieces with
    | ([], rest) => fillLines width first n rest
    | (line, rest) => line :: fillLines width false n rest

def singleSpaced (cs : List Char) : List Char :=
  let words := cs.foldr (fun c ws =>
    if isGap c then [] :: ws
    else
      match ws with
      | w :: ws => (c :: w) :: ws
      | [] => [[c]]) [[]]
  trim ([' '].intercalate (words.filter (!·.isEmpty)))

/-- The lines of a text. Each takes a piece or a character at least, so there are no more than these. -/
def wrap (width : Nat) (text : String) : List String :=
  let cs := singleSpaced text.toList
  let pieces := piecesAfter [] cs
  (fillLines width true (cs.length + pieces.length) pieces).map String.ofList

end LineAtlas.Text.Paragraph
