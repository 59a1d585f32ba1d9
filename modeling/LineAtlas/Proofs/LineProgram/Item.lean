import LineAtlas.LineProgram.Line
import LineAtlas.Proofs.LineProgram.Opcode
import Mathlib.Data.List.Infix

/-!
# Printed lines

The lines that the dump tool prints in the current layout for the rows of the two tables, the first value
of the statement flag and the statements. Each is read back as what it was printed for: of the many forms
that are tried, the first that takes the line is its own.
-/

namespace LineAtlas.LineProgram

open Text

/-- What a line is printed for; rows give the form in which their name is stored. -/
inductive Item
  | directoryRow (index : Nat) (form : String) (offset : Nat) (name : String)
  | fileRow (index directory : Nat) (form : String) (offset : Nat) (name : String)
  | initialIsStmt (digit : Fin 10)
  | statement (offset : Nat) (op : Opcode)
  deriving DecidableEq, Repr

/-- A name that a row can hold: it begins with no blank, and nothing in it looks like the end of the
form that precedes it. -/
structure IsName (name : String) : Prop where
  oneLine : OneLine name
  noBlank : name.toList.head?.any isBlank = false
  noFormEnd : ∀ c, isBlank c = true → ¬ [')', ':', c] <:+: name.toList

theorem IsName.of_no_blanks {name : String} (h : ∀ c ∈ name.toList, isBlank c = false) :
    IsName name where
  oneLine c hc := by
    have hblank := h c hc
    refine ⟨?_, ?_⟩ <;> rintro rfl <;> exact absurd hblank (by decide)
  noBlank := by
    rw [Option.any_eq_false]
    intro c hc
    exact h c (List.mem_of_head? hc)
  noFormEnd c hc hend := by
    have hmem : c ∈ name.toList := hend.subset (by simp)
    rw [h c hmem] at hc
    cases hc

namespace Item

/-- The line of an item; offsets of statements have at least `width` digits. -/
def text (width : Nat) : Item → String
  | directoryRow index form offset name =>
    s!"  {index}\t({form})\t(offset: 0x{hexText offset}): {name}"
  | fileRow index directory form offset name =>
    s!"  {index}\t{directory}\t({form})\t(offset: 0x{hexText offset}): {name}"
  | initialIsStmt digit => s!"  Initial value of 'is_stmt':  {digit.val}"
  | statement offset op => s!"  [0x{hexPadded width offset}]  {op.text}"

def Valid : Item → Prop
  | directoryRow _ form _ name => OneLine form ∧ IsName name
  | fileRow _ _ form _ name => OneLine form ∧ IsName name
  | initialIsStmt _ => True
  | statement _ _ => True

def line : Item → Line
  | directoryRow index _ _ name => .directoryRow (.ofNat index) name
  | fileRow index directory _ _ name => .fileRow (.ofNat index) (.ofNat directory) name
  | initialIsStmt digit => .initialIsStmt (digit.val != 0)
  | statement _ op => .statement op.text

end Item

/-! ## After the form -/

theorem value?_append {name : List Char} (hname : '\n' ∉ name)
    (hblank : name.head?.any isBlank = false) {gap : List Char} (hgap : isGap gap = true) :
    value? (gap ++ name) = some (String.ofList name) := by
  rw [value?, blanks?_append hgap hblank, Option.bind_some, oneLine?, if_neg hname]

theorem value?_eq_none {cs : List Char} (h : cs.head?.any isBlank = false) : value? cs = none := by
  rw [value?, blanks?, run?_eq_none h]
  rfl

theorem afterForm?_eq_none {cs : List Char}
    (h : ∀ c, isBlank c = true → ¬ [')', ':', c] <:+: cs) : afterForm? cs = none := by
  induction cs with
  | nil => rfl
  | cons d cs ih =>
      have hrest : afterForm? cs = none := by
        apply ih
        intro c hblank hend
        exact h c hblank (hend.trans (List.suffix_cons d cs).isInfix)
      have hhere : (skip? "):" (d :: cs)).bind value? = none := by
        cases hskip : skip? "):" (d :: cs) with
        | none => rfl
        | some rest =>
            rw [Option.bind_some]
            apply value?_eq_none
            have heq : d :: cs = [')', ':'] ++ rest := after?_eq_some_iff.1 hskip
            cases rest with
            | nil => rfl
            | cons c rest =>
                rw [heq] at h
                have hnot := mt (h c) (not_not_intro ⟨[], rest, by simp⟩)
                simpa using hnot
      rw [afterForm?, hrest, ite_self, hhere]

theorem afterForm?_append {front cs : List Char} (hfront : '\n' ∉ front) {name : String}
    (h : afterForm? cs = some name) : afterForm? (front ++ cs) = some name := by
  induction front with
  | nil => exact h
  | cons d front ih =>
      rw [List.mem_cons, not_or] at hfront
      rw [List.cons_append, afterForm?, if_neg (Ne.symm hfront.1), ih hfront.2]

/-- The name is what follows the form of a row and its offset. -/
theorem afterForm?_form {form name : String} (hform : OneLine form) (offset : Nat)
    (hname : IsName name) : afterForm? (form.toList ++ (")\t(offset: 0x".toList ++
      (Nat.toDigits 16 offset ++ ("): ".toList ++ name.toList)))) = some name := by
  have hdigits : '\n' ∉ Nat.toDigits 16 offset := fun hmem =>
    forall_mem_toDigits (P := (· ≠ '\n')) (by decide) (by decide) offset _ hmem rfl
  have hvalue : value? (' ' :: name.toList) = some name := by
    rw [← List.singleton_append, value?_append hname.oneLine.newline_not_mem hname.noBlank rfl,
      String.ofList_toList]
  have hnone : afterForm? name.toList = none := afterForm?_eq_none hname.noFormEnd
  have hclose : afterForm? ([')', ':', ' '] ++ name.toList) = some name := by
    have hcolon : afterForm? (':' :: ' ' :: name.toList) = none := by
      rw [afterForm?, afterForm?, hnone]
      rfl
    rw [List.cons_append, afterForm?]
    simp only [List.cons_append, List.nil_append, hcolon, ite_self]
    exact hvalue
  have hend : "): ".toList = [')', ':', ' '] := by
    simp
  rw [hend]
  exact afterForm?_append hform.newline_not_mem
    (afterForm?_append (by decide) (afterForm?_append hdigits hclose))

/-! ## Rows -/

theorem column?_append {gap digits rest : List Char} (hgap : isGap gap = true) (hne : digits ≠ [])
    (hdigits : ∀ c ∈ digits, isDigit c = true) (hrest : rest.head?.any isDigit = false) :
    column? (gap ++ (digits ++ rest)) = some (⟨digits⟩, rest) := by
  have hblank : (digits ++ rest).head?.any isBlank = false := by
    cases digits with
    | nil => exact absurd rfl hne
    | cons c digits => exact isBlank_of_isDigit (hdigits c List.mem_cons_self)
  simp only [column?, blanks?_append hgap hblank, numeral?, digits?, run?_append hdigits hne hrest,
    Option.bind_eq_bind, Option.bind_some, Option.map_some]

theorem column?_toDigits {gap : List Char} (hgap : isGap gap = true) (n : Nat) {rest : List Char}
    (hrest : rest.head?.any isDigit = false) :
    column? (gap ++ (Nat.toDigits 10 n ++ rest)) = some (.ofNat n, rest) :=
  column?_append hgap Nat.toDigits_ne_nil (isDigit_of_mem_toDigits n) hrest

theorem column?_eq_none {gap : List Char} (hgap : isGap gap = true)
    {rest : List Char} (hblank : rest.head?.any isBlank = false)
    (hdigit : rest.head?.any isDigit = false) : column? (gap ++ rest) = none := by
  simp only [column?, blanks?_append hgap hblank, numeral?, digits?, run?_eq_none hdigit,
    Option.bind_eq_bind, Option.bind_some, Option.map_none]

namespace Item

def forms : List (List Char → Option Line) :=
  [statement?, fileRow?, oldFileRow?, directoryRow?, oldDirectoryRow?, initialIsStmt?, heading?]

theorem ofText?_of_form {i : Nat} {form : List Char → Option Line} {line : Line} {text : String}
    {cs : List Char} (hat : forms[i]? = some form) (htext : text.toList = cs)
    (hbefore : (forms.take i).Forall (· cs = none)) (hform : form cs = some line) :
    Line.ofText? text = some line := by
  subst htext
  exact findSome?_eq_some_of_getElem? hat hbefore hform

theorem statement?_eq_none {gap rest : List Char} (hgap : isGap gap = true)
    (hblank : rest.head?.any isBlank = false) (hbracket : rest.head?.any ('[' == ·) = false) :
    statement? (gap ++ rest) = none := by
  have hskip : skip? "[0x" rest = none := after?_eq_none hbracket
  simp only [statement?, blanks?_append hgap hblank, hskip, Option.bind_eq_bind, Option.bind_some,
    Option.bind_none]

theorem statement?_row (index : Nat) (rest : List Char) :
    statement? ([' ', ' '] ++ (Nat.toDigits 10 index ++ rest)) = none :=
  statement?_eq_none rfl (head?_toDigits (by decide) index rest)
    (head?_toDigits (by decide) index rest)

theorem ofText?_directoryRow (width index : Nat) {form : String} (offset : Nat) {name : String}
    (hform : OneLine form) (hname : IsName name) :
    Line.ofText? ((directoryRow index form offset name).text width) =
      some (.directoryRow (.ofNat index) name) := by
  let row := form.toList ++ (")\t(offset: 0x".toList ++ (Nat.toDigits 16 offset ++
    ("): ".toList ++ name.toList)))
  let afterIndex := ['\t'] ++ ("(".toList ++ row)
  have htext : ((directoryRow index form offset name).text width).toList =
      [' ', ' '] ++ (Nat.toDigits 10 index ++ afterIndex) := by
    unfold text
    simp [hexText, row, afterIndex]
  have hindex : column? ([' ', ' '] ++ (Nat.toDigits 10 index ++ afterIndex)) = some _ :=
    column?_toDigits rfl index rfl
  have hcolumn : column? afterIndex = none := column?_eq_none rfl rfl rfl
  have hfile : fileRow? ([' ', ' '] ++ (Nat.toDigits 10 index ++ afterIndex)) = none := by
    simp only [fileRow?, hindex, hcolumn, Option.bind_eq_bind, Option.bind_some, Option.bind_none]
  have hold : oldFileRow? ([' ', ' '] ++ (Nat.toDigits 10 index ++ afterIndex)) = none := by
    simp only [oldFileRow?, hindex, hcolumn, Option.bind_eq_bind, Option.bind_some, Option.bind_none]
  have hrow : blanks? afterIndex = some ("(".toList ++ row) :=
    blanks?_append rfl rfl
  have hafter : afterForm? row = some name := afterForm?_form hform offset hname
  refine ofText?_of_form (i := 3) rfl htext ⟨statement?_row index _, hfile, hold⟩ ?_
  simp only [directoryRow?, hindex, hrow, skip?_append, hafter,
    Option.bind_eq_bind, Option.bind_some]
  rfl

theorem ofText?_fileRow (width index directory : Nat) {form : String} (offset : Nat) {name : String}
    (hform : OneLine form) (hname : IsName name) :
    Line.ofText? ((fileRow index directory form offset name).text width) =
      some (.fileRow (.ofNat index) (.ofNat directory) name) := by
  let row := form.toList ++ (")\t(offset: 0x".toList ++ (Nat.toDigits 16 offset ++
    ("): ".toList ++ name.toList)))
  let afterDirectory := ['\t'] ++ ("(".toList ++ row)
  let afterIndex := ['\t'] ++ (Nat.toDigits 10 directory ++ afterDirectory)
  have htext : ((fileRow index directory form offset name).text width).toList =
      [' ', ' '] ++ (Nat.toDigits 10 index ++ afterIndex) := by
    unfold text
    simp [hexText, row, afterDirectory, afterIndex]
  have hindex : column? ([' ', ' '] ++ (Nat.toDigits 10 index ++ afterIndex)) = some _ :=
    column?_toDigits rfl index rfl
  have hdirectory : column? afterIndex = some _ :=
    column?_toDigits rfl directory rfl
  have hrow : blanks? afterDirectory = some ("(".toList ++ row) :=
    blanks?_append rfl rfl
  have hafter : afterForm? row = some name := afterForm?_form hform offset hname
  refine ofText?_of_form (i := 1) rfl htext (statement?_row index _) ?_
  simp only [fileRow?, hindex, hdirectory, hrow, skip?_append, hafter,
    Option.bind_eq_bind, Option.bind_some]
  rfl

/-- The flag is printed as a single digit. -/
theorem initialIsStmt?_digit : ∀ digit : Fin 10, initialIsStmt?
    ([' ', ' '] ++ ("Initial value of 'is_stmt':".toList ++ [' ', ' ', Nat.digitChar digit])) =
      some (.initialIsStmt (digit.val != 0)) := by
  decide

theorem ofText?_initialIsStmt (width : Nat) (digit : Fin 10) :
    Line.ofText? ((initialIsStmt digit).text width) = some (.initialIsStmt (digit.val != 0)) := by
  let label := "Initial value of 'is_stmt':".toList ++ [' ', ' ', Nat.digitChar digit]
  have htext : ((initialIsStmt digit).text width).toList = [' ', ' '] ++ label := by
    unfold text
    simp [label, Nat.toDigits_of_lt_base digit.isLt]
  have hstatement : statement? ([' ', ' '] ++ label) = none :=
    statement?_eq_none rfl rfl rfl
  have hcolumn : column? ([' ', ' '] ++ label) = none :=
    column?_eq_none rfl rfl rfl
  refine ofText?_of_form (i := 5) rfl htext ⟨hstatement, ?_, ?_, ?_, ?_⟩ (initialIsStmt?_digit digit)
  · simp only [fileRow?, hcolumn, Option.bind_eq_bind, Option.bind_none]
  · simp only [oldFileRow?, hcolumn, Option.bind_eq_bind, Option.bind_none]
  · simp only [directoryRow?, hcolumn, Option.bind_eq_bind, Option.bind_none]
  · show oldDirectoryRow? ([' ', ' '] ++ label) = none
    simp only [oldDirectoryRow?, hcolumn, Option.bind_eq_bind, Option.bind_none]

theorem ofText?_statement (width offset : Nat) (op : Opcode) :
    Line.ofText? ((statement offset op).text width) = some (.statement op.text) := by
  have htext : ((statement offset op).text width).toList = [' ', ' '] ++ ("[0x".toList ++
      ((hexPadded width offset).toList ++ ("]".toList ++ ([' ', ' '] ++ op.text.toList)))) := by
    unfold text
    simp
  have hlead (cs : List Char) : blanks? ([' ', ' '] ++ ("[0x".toList ++ cs)) = some _ :=
    blanks?_append rfl rfl
  have hoffset (cs : List Char) :
      hexDigits? ((hexPadded width offset).toList ++ ("]".toList ++ cs)) = some _ :=
    hexDigits?_hexPadded width offset rfl
  have hvalue : value? ([' ', ' '] ++ op.text.toList) = some op.text := by
    rw [value?_append op.oneLine_text.newline_not_mem op.head?_text rfl,
      String.ofList_toList]
  refine ofText?_of_form (i := 0) rfl htext trivial ?_
  simp only [statement?, hlead, skip?_append, hoffset, hvalue, Option.bind_eq_bind, Option.bind_some]
  rfl

/-- Every printed line is read back. -/
theorem ofText?_text (width : Nat) {item : Item} (h : item.Valid) :
    Line.ofText? (item.text width) = some item.line := by
  cases item with
  | directoryRow index form offset name => exact ofText?_directoryRow width index offset h.1 h.2
  | fileRow index directory form offset name =>
      exact ofText?_fileRow width index directory offset h.1 h.2
  | initialIsStmt digit => exact ofText?_initialIsStmt width digit
  | statement offset op => exact ofText?_statement width offset op

example : (fileRow 1 2 "line_string" 0x1f "main.c").text 8 =
    "  1\t2\t(line_string)\t(offset: 0x1f): main.c" := by
  decide

example : (statement 0x2a (.special 15 0 0x1136 (-2) 3 (some 1))).text 8 = "  [0x0000002a]  " ++
    "Special opcode 15: advance Address by 0 to 0x1136 and Line by -2 to 3 (view 1)" := by
  decide

theorem oneLine_text (width : Nat) {item : Item} (h : item.Valid) : OneLine (item.text width) := by
  unfold text
  cases item with
  | directoryRow index form offset name => simp +decide [h.1, h.2.oneLine]
  | fileRow index directory form offset name => simp +decide [h.1, h.2.oneLine]
  | initialIsStmt digit => simp +decide
  | statement offset op => simp +decide [op.oneLine_text]

end Item

end LineAtlas.LineProgram
