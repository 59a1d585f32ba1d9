import LineAtlas.Text.Lines

/-!
# Cutting a text into lines

Cutting is undone by putting the breaks back. What the lines of a text are can therefore be said without telling
how they are found.
-/

namespace LineAtlas.Text

def Unbroken (line : List Char) : Prop :=
  ∀ c ∈ line, isLineBreak c = false

/-- The lines with the breaks that end them make up the text. A carriage return with a line feed is one break.
The last line may go without a break, and then it is not empty. -/
inductive IsCut : List Char → List (List Char) → Prop
  | nil : IsCut [] []
  | last {line : List Char} (hne : line ≠ []) (hline : Unbroken line) : IsCut line [line]
  | pair {line rest : List Char} {lines : List (List Char)} (hline : Unbroken line)
      (hrest : IsCut rest lines) : IsCut (line ++ '\r' :: '\n' :: rest) (line :: lines)
  | single {line rest : List Char} {c : Char} {lines : List (List Char)} (hline : Unbroken line)
      (hc : isLineBreak c = true) (hpair : c = '\r' → rest.head? ≠ some '\n')
      (hrest : IsCut rest lines) : IsCut (line ++ c :: rest) (line :: lines)

def pushFront (c : Char) : List (List Char) → List (List Char)
  | [] => [[c]]
  | line :: lines => (c :: line) :: lines

theorem splitLines_cons_of_unbroken {c : Char} (hc : isLineBreak c = false) (cs : List Char) :
    splitLines (c :: cs) = pushFront c (splitLines cs) := by
  have hreturn : c ≠ '\r' := by
    rintro rfl
    cases hc
  rw [splitLines]
  · rw [if_neg (by simp [hc])]
    cases splitLines cs <;> rfl
  · intro cs' heq
    exact absurd heq hreturn

theorem splitLines_cons_of_break {c : Char} {cs : List Char} (hc : isLineBreak c = true)
    (hpair : c = '\r' → cs.head? ≠ some '\n') : splitLines (c :: cs) = [] :: splitLines cs := by
  rw [splitLines]
  · exact if_pos hc
  · rintro cs' rfl rfl
    exact hpair rfl rfl

theorem splitLines_append_of_break {line rest : List Char} {lines : List (List Char)} (hline : Unbroken line)
    (hrest : splitLines rest = [] :: lines) : splitLines (line ++ rest) = line :: lines := by
  induction line with
  | nil => exact hrest
  | cons c line ih =>
      obtain ⟨hc, hline⟩ := List.forall_mem_cons.1 hline
      rw [List.cons_append, splitLines_cons_of_unbroken hc, ih hline]
      rfl

theorem splitLines_of_unbroken {line : List Char} (hne : line ≠ []) (hline : Unbroken line) :
    splitLines line = [line] := by
  induction line with
  | nil => exact absurd rfl hne
  | cons c line ih =>
      obtain ⟨hc, hline⟩ := List.forall_mem_cons.1 hline
      rw [splitLines_cons_of_unbroken hc]
      cases line with
      | nil => rfl
      | cons d line =>
          rw [ih (List.cons_ne_nil d line) hline]
          rfl

theorem IsCut.splitLines_eq {text : List Char} {lines : List (List Char)} (h : IsCut text lines) :
    splitLines text = lines := by
  induction h with
  | nil => rfl
  | last hne hline => exact splitLines_of_unbroken hne hline
  | pair hline _ ih => exact splitLines_append_of_break hline (by rw [splitLines, ih])
  | single hline hc hpair _ ih =>
      exact splitLines_append_of_break hline (by rw [splitLines_cons_of_break hc hpair, ih])

theorem IsCut.cons {c : Char} (hc : isLineBreak c = false) {text : List Char} {lines : List (List Char)}
    (h : IsCut text lines) : IsCut (c :: text) (pushFront c lines) := by
  have hfront {line : List Char} (hline : Unbroken line) : Unbroken (c :: line) :=
    List.forall_mem_cons.2 ⟨hc, hline⟩
  cases h with
  | nil => exact .last (List.cons_ne_nil c []) (hfront nofun)
  | last hne hline => exact .last (List.cons_ne_nil c _) (hfront hline)
  | pair hline hrest => exact .pair (hfront hline) hrest
  | single hline hbreak hpair hrest => exact .single (hfront hline) hbreak hpair hrest

theorem isCut_splitLines (text : List Char) : IsCut text (splitLines text) := by
  fun_induction splitLines text with
  | case1 => exact .nil
  | case2 cs ih => exact @IsCut.pair [] cs _ nofun ih
  | case3 c cs hpair hc ih =>
      refine @IsCut.single [] cs c _ nofun hc ?_ ih
      rintro rfl hnext
      obtain ⟨cs', rfl⟩ := List.head?_eq_some_iff.1 hnext
      exact hpair cs' rfl rfl
  | case4 c cs _ hc hnone ih =>
      rw [hnone] at ih
      exact ih.cons (Bool.eq_false_iff.2 hc)
  | case5 c cs _ hc line lines hlines ih =>
      rw [hlines] at ih
      exact ih.cons (Bool.eq_false_iff.2 hc)

def IsLinesOf (text : String) (lines : List String) : Prop :=
  IsCut text.toList (lines.map String.toList)

theorem isLinesOf_iff {text : String} {lines : List String} :
    IsLinesOf text lines ↔ lines = linesOf text := by
  have htext (cut : List (List Char)) : (cut.map String.ofList).map String.toList = cut := by
    simp
  constructor
  · intro h
    rw [linesOf, h.splitLines_eq]
    simp
  · rintro rfl
    rw [IsLinesOf, linesOf, htext]
    exact isCut_splitLines _

example : linesOf "a\r\n\r\nb\n" = ["a", "", "b"] := by
  decide +kernel

end LineAtlas.Text
