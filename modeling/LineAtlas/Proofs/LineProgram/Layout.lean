import LineAtlas.Proofs.LineProgram.Item

/-!
# The layouts of statements and rows

A line is read as a statement, or as a row of one of the two tables, exactly when it is laid out as one. A
statement follows an offset in square brackets. In the current layout of a row the name follows a form in
brackets, in the older one it follows the numbers at once; in both it is the rest of the line. A form goes as
far as it can, so a name holds nothing that looks like the end of one. A line that is laid out as a file row is
none of a directory.
-/

namespace LineAtlas.LineProgram

open Text

def IsColumn (cs : List Char) (n : Nat) : Prop :=
  ∃ gap digits, isGap gap = true ∧ digits ≠ [] ∧ (∀ c ∈ digits, isDigit c = true) ∧
    decimalValue digits = n ∧ cs = gap ++ digits

def IsForm (cs : List Char) : Prop :=
  ∃ gap form, isGap gap = true ∧ '\n' ∉ form ∧ cs = gap ++ ('(' :: (form ++ [')', ':']))

structure IsRest (cs : List Char) (rest : String) : Prop where
  gap : ∃ gap, isGap gap = true ∧ cs = gap ++ rest.toList
  newline : '\n' ∉ rest.toList
  noBlank : rest.toList.head?.any isBlank = false

/-- The text holds nothing that looks like the end of a form before a name. -/
def NoFormEnd (s : String) : Prop :=
  ∀ c, isBlank c = true → ¬ [')', ':', c] <:+: s.toList

/-- The line of a row of the table of files. The blanks before a name may break the line; only on one line with
its form the name could hold a later end of that. -/
inductive FileLayout (line : String) (index directory : Nat) (name : String) : Prop
  | current {i d form rest : List Char} (hi : IsColumn i index) (hd : IsColumn d directory)
      (hform : IsForm form) (hrest : IsRest rest name) (hend : '\n' ∉ rest → NoFormEnd name)
      (hline : line.toList = i ++ (d ++ (form ++ rest)))
  | older {i d time size rest : List Char} {t s : Nat} (hi : IsColumn i index)
      (hd : IsColumn d directory) (ht : IsColumn time t) (hs : IsColumn size s)
      (hrest : IsRest rest name) (hname : name ≠ "")
      (hline : line.toList = i ++ (d ++ (time ++ (size ++ rest))))

inductive DirectoryLayout (line : String) (index : Nat) (name : String) : Prop
  | current {i form rest : List Char} (hi : IsColumn i index) (hform : IsForm form)
      (hrest : IsRest rest name) (hend : '\n' ∉ rest → NoFormEnd name)
      (hline : line.toList = i ++ (form ++ rest))
  | older {i rest : List Char} (hi : IsColumn i index) (hrest : IsRest rest name) (hname : name ≠ "")
      (hopen : name.toList.head? ≠ some '(') (hline : line.toList = i ++ rest)

def StatementLayout (line text : String) : Prop :=
  ∃ gap digits rest, isGap gap = true ∧ digits ≠ [] ∧ (∀ c ∈ digits, isHexDigit c = true) ∧
    IsRest rest text ∧ line.toList = gap ++ ("[0x".toList ++ (digits ++ ("]".toList ++ rest)))

/-! ## What the scanners take -/

theorem column?_eq_some {cs rest : List Char} {n : Numeral} (h : column? cs = some (n, rest)) :
    ∃ column, IsColumn column n.value ∧ cs = column ++ rest := by
  simp only [column?, numeral?, Option.bind_eq_bind, Option.bind_eq_some_iff, Option.map_eq_some_iff,
    Prod.exists] at h
  obtain ⟨afterGap, hblanks, digits, rest', hdigits, heq⟩ := h
  cases heq
  obtain ⟨gap, hgap, -, rfl⟩ := blanks?_eq_some hblanks
  obtain ⟨rfl, hne, hall, -⟩ := run?_eq_some hdigits
  exact ⟨gap ++ digits, ⟨gap, digits, hgap, hne, hall, rfl, rfl⟩, by rw [List.append_assoc]⟩

theorem head?_gap {gap : List Char} (hgap : isGap gap = true) (cs : List Char) :
    (gap ++ cs).head?.any isDigit = false := by
  cases gap with
  | nil => cases hgap
  | cons c gap =>
      rw [isGap, List.all_cons, Bool.and_eq_true, Bool.and_eq_true] at hgap
      cases hdigit : isDigit c with
      | false => exact hdigit
      | true =>
          rw [isBlank_of_isDigit hdigit] at hgap
          cases hgap.2.1

theorem after?_of_isDigit {l c : Char} {lit more : List Char} (hl : isDigit l = false)
    (hc : isDigit c = true) : after? (l :: lit) (c :: more) = none := by
  apply after?_eq_none
  rw [List.head?_cons, Option.any_some, beq_eq_false_iff_ne]
  rintro rfl
  rw [hl] at hc
  cases hc

namespace IsColumn

variable {column : List Char} {n : Nat} (h : IsColumn column n)
include h

theorem head? (rest : List Char) : (column ++ rest).head?.any isDigit = false := by
  obtain ⟨gap, digits, hgap, -, -, -, rfl⟩ := h
  rw [List.append_assoc]
  exact head?_gap hgap _

/-- The first character after the blanks is a digit. -/
theorem exists_blanks? (rest : List Char) : ∃ c more, isDigit c = true ∧
    blanks? (column ++ rest) = some (c :: more) := by
  obtain ⟨gap, digits, hgap, hne, hall, -, rfl⟩ := h
  cases digits with
  | nil => exact absurd rfl hne
  | cons c digits =>
      have hc : isDigit c = true := hall c List.mem_cons_self
      refine ⟨c, digits ++ rest, hc, ?_⟩
      rw [List.append_assoc]
      exact blanks?_append hgap (isBlank_of_isDigit hc)

theorem exists_column? {rest : List Char} (hrest : rest.head?.any isDigit = false) :
    ∃ numeral, numeral.value = n ∧ column? (column ++ rest) = some (numeral, rest) := by
  obtain ⟨gap, digits, hgap, hne, hall, hvalue, rfl⟩ := h
  refine ⟨⟨digits⟩, hvalue, ?_⟩
  rw [List.append_assoc]
  exact column?_append hgap hne hall hrest

theorem statement?_eq_none (rest : List Char) : statement? (column ++ rest) = none := by
  obtain ⟨c, more, hc, hblanks⟩ := h.exists_blanks? rest
  have hskip : skip? "[0x" (c :: more) = none := after?_of_isDigit (by decide) hc
  simp only [statement?, hblanks, hskip, Option.bind_eq_bind, Option.bind_some, Option.bind_none]

end IsColumn

theorem IsForm.head? {form : List Char} (h : IsForm form) (rest : List Char) :
    (form ++ rest).head?.any isDigit = false := by
  obtain ⟨gap, front, hgap, -, rfl⟩ := h
  rw [List.append_assoc]
  exact head?_gap hgap _

theorem IsRest.head? {cs : List Char} {rest : String} (h : IsRest cs rest) :
    cs.head?.any isDigit = false := by
  obtain ⟨⟨gap, hgap, rfl⟩, -, -⟩ := h
  exact head?_gap hgap _

theorem value?_eq_some_iff {cs : List Char} {rest : String} :
    value? cs = some rest ↔ IsRest cs rest := by
  constructor
  · intro h
    obtain ⟨rest', hblanks, hline⟩ := Option.bind_eq_some_iff.1 h
    obtain ⟨gap, hgap, hblank, hcs⟩ := blanks?_eq_some hblanks
    obtain ⟨rfl, hnewline⟩ := oneLine?_eq_some hline
    exact ⟨⟨gap, hgap, hcs⟩, hnewline, hblank⟩
  · rintro ⟨⟨gap, hgap, rfl⟩, hnewline, hblank⟩
    rw [value?_append hnewline hblank hgap, String.ofList_toList]

theorem name?_eq_some_iff {cs : List Char} {name : String} :
    name? cs = some name ↔ IsRest cs name ∧ name ≠ "" := by
  simp only [name?, Option.bind_eq_some_iff, value?_eq_some_iff]
  constructor
  · rintro ⟨rest, hrest, h⟩
    split at h
    · cases h
    · rename_i hne
      cases h
      refine ⟨hrest, ?_⟩
      rintro rfl
      exact hne rfl
  · rintro ⟨hrest, hne⟩
    exact ⟨name, hrest, by simp [hne]⟩

/-! ## The end of a form -/

theorem afterForm?_cons_of_ne {c : Char} (hc : c ≠ ')') (cs : List Char) :
    afterForm? (c :: cs) = if c = '\n' then none else afterForm? cs := by
  have hskip : after? [')', ':'] (c :: cs) = none := after?_eq_none (by simpa using hc.symm)
  have hskip : skip? "):" (c :: cs) = none := hskip
  rw [afterForm?, hskip, Option.bind_none]
  split <;> simp_all

theorem afterForm?_close (rest : List Char) :
    afterForm? ([')', ':'] ++ rest) = (afterForm? rest).or (value? rest) := by
  have hcolon : afterForm? (':' :: rest) = afterForm? rest :=
    afterForm?_cons_of_ne (by decide) rest
  have hskip : skip? "):" (')' :: ':' :: rest) = some rest := skip?_append "):" rest
  change afterForm? (')' :: ':' :: rest) = _
  rw [afterForm?, if_neg (by decide), hcolon, hskip, Option.bind_some]
  cases afterForm? rest <;> rfl

/-- No form ends in the blanks before a text, and none goes on after the end of a line. -/
theorem afterForm?_blanks {gap : List Char} (hgap : ∀ c ∈ gap, isBlank c = true) (cs : List Char) :
    afterForm? (gap ++ cs) = if '\n' ∈ gap then none else afterForm? cs := by
  induction gap with
  | nil => rfl
  | cons c gap ih =>
      obtain ⟨hc, hgap⟩ := List.forall_mem_cons.1 hgap
      have hne : c ≠ ')' := by
        rintro rfl
        exact absurd hc (by decide)
      rw [List.cons_append, afterForm?_cons_of_ne hne, ih hgap]
      by_cases hnewline : c = '\n'
      · simp [hnewline]
      · simp [hnewline, Ne.symm hnewline]

theorem isSome_value? {c : Char} (hc : isBlank c = true) {cs : List Char} (hnewline : '\n' ∉ cs) :
    (value? (c :: cs)).isSome = true := by
  have hrest : '\n' ∉ cs.dropWhile isBlank := fun h => hnewline ((List.dropWhile_sublist _).subset h)
  simp [value?, blanks?, run?, hc, oneLine?, hrest]

/-- Where no name is found on a line, nothing looks like the end of a form. -/
theorem noFormEnd_iff {s : String} (hnewline : '\n' ∉ s.toList) :
    NoFormEnd s ↔ afterForm? s.toList = none := by
  refine ⟨afterForm?_eq_none, ?_⟩
  rintro h c hblank ⟨front, back, hs⟩
  have hsplit : s.toList = front ++ ([')', ':'] ++ c :: back) := by
    rw [← hs]
    simp
  rw [hsplit] at hnewline h
  simp only [List.mem_append, List.mem_cons, not_or] at hnewline
  obtain ⟨name, hname⟩ : ∃ name, afterForm? ([')', ':'] ++ c :: back) = some name := by
    rw [afterForm?_close, ← Option.isSome_iff_exists, Option.isSome_or,
      isSome_value? hblank hnewline.2.2.2, Bool.or_true]
  rw [afterForm?_append hnewline.1 hname] at h
  cases h

theorem afterForm?_eq_none_iff {rest : List Char} {name : String} (h : IsRest rest name) :
    afterForm? rest = none ↔ ('\n' ∉ rest → NoFormEnd name) := by
  obtain ⟨⟨gap, hgap, rfl⟩, hnewline, -⟩ := h
  rw [isGap, Bool.and_eq_true, List.all_eq_true] at hgap
  rw [afterForm?_blanks hgap.2, noFormEnd_iff hnewline]
  simp [hnewline]

theorem afterForm?_eq_some_iff {cs : List Char} {name : String} : afterForm? cs = some name ↔
    ∃ front rest, '\n' ∉ front ∧ IsRest rest name ∧ ('\n' ∉ rest → NoFormEnd name) ∧
      cs = front ++ ([')', ':'] ++ rest) := by
  constructor
  · intro h
    induction cs with
    | nil => cases h
    | cons c cs ih =>
        rw [afterForm?] at h
        split at h
        · rename_i later hlater
          cases h
          split at hlater
          · cases hlater
          · rename_i hnewline
            obtain ⟨front, rest, hfront, hrest, hend, rfl⟩ := ih hlater
            exact ⟨c :: front, rest, by simp [Ne.symm hnewline, hfront], hrest, hend, rfl⟩
        · rename_i hnone
          obtain ⟨rest, hskip, hvalue⟩ := Option.bind_eq_some_iff.1 h
          have hclose : c :: cs = [')', ':'] ++ rest := after?_eq_some_iff.1 hskip
          obtain ⟨rfl, rfl⟩ : c = ')' ∧ cs = ':' :: rest := List.cons.inj hclose
          have hrest : IsRest rest name := value?_eq_some_iff.1 hvalue
          rw [if_neg (by decide), afterForm?_cons_of_ne (by decide), if_neg (by decide)] at hnone
          exact ⟨[], rest, by simp, hrest, (afterForm?_eq_none_iff hrest).1 hnone, rfl⟩
  · rintro ⟨front, rest, hfront, hrest, hend, rfl⟩
    apply afterForm?_append hfront
    rw [afterForm?_close, (afterForm?_eq_none_iff hrest).2 hend, Option.none_or]
    exact value?_eq_some_iff.2 hrest

/-- After blanks and an opening bracket a name is found where the text is a form with the rest of a line. -/
theorem exists_form_iff {cs : List Char} {name : String} :
    (∃ afterGap, blanks? cs = some afterGap ∧ ∃ afterOpen, skip? "(" afterGap = some afterOpen ∧
      afterForm? afterOpen = some name) ↔
    ∃ form rest, IsForm form ∧ IsRest rest name ∧ ('\n' ∉ rest → NoFormEnd name) ∧
      cs = form ++ rest := by
  constructor
  · rintro ⟨afterGap, hblanks, afterOpen, hskip, hname⟩
    obtain ⟨gap, hgap, -, rfl⟩ := blanks?_eq_some hblanks
    obtain ⟨front, rest, hfront, hrest, hend, rfl⟩ := afterForm?_eq_some_iff.1 hname
    have hopen : afterGap = ['('] ++ (front ++ ([')', ':'] ++ rest)) := after?_eq_some_iff.1 hskip
    refine ⟨gap ++ ('(' :: (front ++ [')', ':'])), rest, ⟨gap, front, hgap, hfront, rfl⟩, hrest, hend, ?_⟩
    rw [hopen]
    simp
  · rintro ⟨form, rest, ⟨gap, front, hgap, hfront, rfl⟩, hrest, hend, rfl⟩
    let opened := front ++ ([')', ':'] ++ rest)
    have hblanks : blanks? (gap ++ (['('] ++ opened)) = some (['('] ++ opened) :=
      blanks?_append hgap rfl
    have hname : afterForm? opened = some name :=
      afterForm?_eq_some_iff.2 ⟨front, rest, hfront, hrest, hend, rfl⟩
    refine ⟨['('] ++ opened, ?_, opened, skip?_append "(" opened, hname⟩
    rw [← hblanks]
    simp [opened]

/-! ## Rows -/

theorem fileRow?_eq_some {line : String} {l : Line} (h : fileRow? line.toList = some l) :
    ∃ index directory name, l = .fileRow index directory name ∧
      FileLayout line index.value directory.value name := by
  simp only [fileRow?, Option.bind_eq_bind, Option.bind_eq_some_iff, Option.pure_def,
    Option.some.injEq, Prod.exists] at h
  obtain ⟨index, afterIndex, hindex, directory, afterDirectory, hdirectory, afterGap, hblanks,
    afterOpen, hskip, name, hname, rfl⟩ := h
  obtain ⟨i, hi, hline⟩ := column?_eq_some hindex
  obtain ⟨d, hd, rfl⟩ := column?_eq_some hdirectory
  obtain ⟨form, rest, hform, hrest, hend, rfl⟩ :=
    exists_form_iff.1 ⟨afterGap, hblanks, afterOpen, hskip, hname⟩
  exact ⟨_, _, name, rfl, .current hi hd hform hrest hend hline⟩

theorem oldFileRow?_eq_some {line : String} {l : Line} (h : oldFileRow? line.toList = some l) :
    ∃ index directory name, l = .fileRow index directory name ∧
      FileLayout line index.value directory.value name := by
  simp only [oldFileRow?, Option.bind_eq_bind, Option.bind_eq_some_iff, Option.pure_def,
    Option.some.injEq, Prod.exists] at h
  obtain ⟨index, afterIndex, hindex, directory, afterDirectory, hdirectory, time, afterTime, htime,
    size, afterSize, hsize, name, hname, rfl⟩ := h
  obtain ⟨i, hi, hline⟩ := column?_eq_some hindex
  obtain ⟨d, hd, rfl⟩ := column?_eq_some hdirectory
  obtain ⟨t, ht, rfl⟩ := column?_eq_some htime
  obtain ⟨s, hs, rfl⟩ := column?_eq_some hsize
  obtain ⟨hrest, hne⟩ := name?_eq_some_iff.1 hname
  exact ⟨_, _, name, rfl, .older hi hd ht hs hrest hne hline⟩

theorem directoryRow?_eq_some {line : String} {l : Line} (h : directoryRow? line.toList = some l) :
    ∃ index name, l = .directoryRow index name ∧ DirectoryLayout line index.value name := by
  simp only [directoryRow?, Option.bind_eq_bind, Option.bind_eq_some_iff, Option.pure_def,
    Option.some.injEq, Prod.exists] at h
  obtain ⟨index, afterIndex, hindex, afterGap, hblanks, afterOpen, hskip, name, hname, rfl⟩ := h
  obtain ⟨i, hi, hline⟩ := column?_eq_some hindex
  obtain ⟨form, rest, hform, hrest, hend, rfl⟩ :=
    exists_form_iff.1 ⟨afterGap, hblanks, afterOpen, hskip, hname⟩
  exact ⟨_, name, rfl, .current hi hform hrest hend hline⟩

theorem oldDirectoryRow?_eq_some {line : String} {l : Line}
    (h : oldDirectoryRow? line.toList = some l) :
    ∃ index name, l = .directoryRow index name ∧ DirectoryLayout line index.value name := by
  simp only [oldDirectoryRow?, Option.bind_eq_bind, Option.bind_eq_some_iff, Option.pure_def,
    Prod.exists] at h
  obtain ⟨index, afterIndex, hindex, name, hname, h⟩ := h
  split at h
  · cases h
  · rename_i hopen
    cases h
    obtain ⟨i, hi, hline⟩ := column?_eq_some hindex
    obtain ⟨hrest, hne⟩ := name?_eq_some_iff.1 hname
    exact ⟨_, name, rfl, .older hi hrest hne hopen hline⟩

def Line.LaidOut (line : String) : Line → Prop
  | .statement text => StatementLayout line text
  | .fileRow index directory name => FileLayout line index.value directory.value name
  | .directoryRow index name => DirectoryLayout line index.value name
  | _ => True

theorem statement?_laidOut {line : String} {l : Line} (h : statement? line.toList = some l) :
    l.LaidOut line := by
  simp only [statement?, Option.bind_eq_bind, Option.bind_eq_some_iff, Option.pure_def,
    Option.some.injEq, Prod.exists] at h
  obtain ⟨afterGap, hblanks, afterOpen, hopen, digits, afterDigits, hdigits, afterClose, hclose, text, hvalue,
    rfl⟩ := h
  obtain ⟨gap, hgap, -, hline⟩ := blanks?_eq_some hblanks
  obtain ⟨rfl, hne, hall, -⟩ := run?_eq_some hdigits
  obtain rfl : afterGap = "[0x".toList ++ (digits ++ afterDigits) := after?_eq_some_iff.1 hopen
  obtain rfl : afterDigits = "]".toList ++ afterClose := after?_eq_some_iff.1 hclose
  exact ⟨gap, digits, afterClose, hgap, hne, hall, value?_eq_some_iff.1 hvalue, hline⟩

theorem initialIsStmt?_laidOut {line : String} {l : Line}
    (h : initialIsStmt? line.toList = some l) : l.LaidOut line := by
  simp only [initialIsStmt?, Option.bind_eq_bind, Option.bind_eq_some_iff, Option.pure_def] at h
  obtain ⟨afterGap, -, afterWords, -, flag, -, h⟩ := h
  split at h
  · split at h
    · cases h
      trivial
    · cases h
  · cases h

theorem heading?_laidOut {line : String} {l : Line} (h : heading? line.toList = some l) :
    l.LaidOut line := by
  rw [heading?] at h
  split at h
  · cases h
    trivial
  · cases h

theorem laidOut_of_ofText? {line : String} {l : Line} (h : Line.ofText? line = some l) :
    l.LaidOut line := by
  obtain ⟨form, hform, h⟩ := List.exists_of_findSome?_eq_some h
  simp only [List.mem_cons, List.not_mem_nil, or_false] at hform
  rcases hform with rfl | rfl | rfl | rfl | rfl | rfl | rfl
  · exact statement?_laidOut h
  · obtain ⟨index, directory, name, rfl, hlayout⟩ := fileRow?_eq_some h
    exact hlayout
  · obtain ⟨index, directory, name, rfl, hlayout⟩ := oldFileRow?_eq_some h
    exact hlayout
  · obtain ⟨index, name, rfl, hlayout⟩ := directoryRow?_eq_some h
    exact hlayout
  · obtain ⟨index, name, rfl, hlayout⟩ := oldDirectoryRow?_eq_some h
    exact hlayout
  · exact initialIsStmt?_laidOut h
  · exact heading?_laidOut h

theorem ofText?_of_statementLayout {line text : String} (h : StatementLayout line text) :
    Line.ofText? line = some (.statement text) := by
  obtain ⟨gap, digits, rest, hgap, hne, hall, hrest, hline⟩ := h
  have hblanks : blanks? (gap ++ ("[0x".toList ++ (digits ++ ("]".toList ++ rest)))) =
      some ("[0x".toList ++ (digits ++ ("]".toList ++ rest))) := blanks?_append hgap rfl
  have hdigits : hexDigits? (digits ++ ("]".toList ++ rest)) = some (digits, "]".toList ++ rest) :=
    run?_append hall hne rfl
  refine Item.ofText?_of_form (i := 0) rfl hline trivial ?_
  simp only [statement?, hblanks, skip?_append, hdigits, value?_eq_some_iff.2 hrest, Option.bind_eq_bind,
    Option.bind_some, Option.pure_def]

theorem ofText?_of_fileLayout {line name : String} {index directory : Nat}
    (h : FileLayout line index directory name) :
    ∃ i d, i.value = index ∧ d.value = directory ∧ Line.ofText? line = some (.fileRow i d name) := by
  cases h with
  | current hi hd hform hrest hend hline =>
      rename_i i d form rest
      obtain ⟨index, rfl, hindex⟩ := hi.exists_column? (hd.head? (form ++ rest))
      obtain ⟨directory, rfl, hdirectory⟩ := hd.exists_column? (hform.head? rest)
      obtain ⟨afterGap, hblanks, afterOpen, hskip, hname⟩ :=
        exists_form_iff.2 ⟨form, rest, hform, hrest, hend, rfl⟩
      refine ⟨index, directory, rfl, rfl, ?_⟩
      refine Item.ofText?_of_form (i := 1) rfl hline (hi.statement?_eq_none _) ?_
      simp only [fileRow?, hindex, hdirectory, hblanks, hskip, hname, Option.bind_eq_bind,
        Option.bind_some]
      rfl
  | older hi hd ht hs hrest hname hline =>
      rename_i i d time size rest t s
      obtain ⟨index, rfl, hindex⟩ := hi.exists_column? (hd.head? (time ++ (size ++ rest)))
      obtain ⟨directory, rfl, hdirectory⟩ := hd.exists_column? (ht.head? (size ++ rest))
      obtain ⟨_, -, htime⟩ := ht.exists_column? (hs.head? rest)
      obtain ⟨_, -, hsize⟩ := hs.exists_column? hrest.head?
      have hcurrent : fileRow? (i ++ (d ++ (time ++ (size ++ rest)))) = none := by
        obtain ⟨c, more, hc, hblanks⟩ := ht.exists_blanks? (size ++ rest)
        have hskip : skip? "(" (c :: more) = none := after?_of_isDigit (by decide) hc
        simp only [fileRow?, hindex, hdirectory, hblanks, hskip, Option.bind_eq_bind, Option.bind_some,
          Option.bind_none]
      have hfound : name? rest = some name := name?_eq_some_iff.2 ⟨hrest, hname⟩
      refine ⟨index, directory, rfl, rfl, ?_⟩
      refine Item.ofText?_of_form (i := 2) rfl hline ⟨hi.statement?_eq_none _, hcurrent⟩ ?_
      simp only [oldFileRow?, hindex, hdirectory, htime, hsize, hfound, Option.bind_eq_bind,
        Option.bind_some]
      rfl

/-- A line that is laid out as a file row in neither way is not read as one. -/
theorem fileRow?_eq_none {line : String}
    (hnot : ∀ index directory name, ¬ FileLayout line index directory name) :
    fileRow? line.toList = none ∧ oldFileRow? line.toList = none := by
  constructor
  · rw [Option.eq_none_iff_forall_ne_some]
    intro l hl
    obtain ⟨_, _, _, -, hlayout⟩ := fileRow?_eq_some hl
    exact hnot _ _ _ hlayout
  · rw [Option.eq_none_iff_forall_ne_some]
    intro l hl
    obtain ⟨_, _, _, -, hlayout⟩ := oldFileRow?_eq_some hl
    exact hnot _ _ _ hlayout

/-- No form opens before a name that does not begin with a bracket. -/
theorem directoryRow?_eq_none {cs rest : List Char} {index : Numeral} {name : String}
    (hindex : column? cs = some (index, rest)) (hrest : IsRest rest name)
    (hopen : name.toList.head? ≠ some '(') : directoryRow? cs = none := by
  obtain ⟨gap, hgap, hgapped⟩ := hrest.gap
  have hblanks : blanks? rest = some name.toList := by
    rw [hgapped]
    exact blanks?_append hgap hrest.noBlank
  have hskip : skip? "(" name.toList = none := by
    apply after?_eq_none
    rw [Option.any_eq_false]
    intro c hc
    rw [beq_eq_false_iff_ne]
    rintro rfl
    exact hopen hc
  simp only [directoryRow?, hindex, hblanks, hskip, Option.bind_eq_bind, Option.bind_some,
    Option.bind_none]

theorem ofText?_of_directoryLayout {line name : String} {index : Nat}
    (h : DirectoryLayout line index name)
    (hnot : ∀ index directory name, ¬ FileLayout line index directory name) :
    ∃ i, i.value = index ∧ Line.ofText? line = some (.directoryRow i name) := by
  obtain ⟨hfile, holdFile⟩ := fileRow?_eq_none hnot
  cases h with
  | current hi hform hrest hend hline =>
      rename_i i form rest
      rw [hline] at hfile holdFile
      obtain ⟨index, rfl, hindex⟩ := hi.exists_column? (hform.head? rest)
      obtain ⟨afterGap, hblanks, afterOpen, hskip, hname⟩ :=
        exists_form_iff.2 ⟨form, rest, hform, hrest, hend, rfl⟩
      refine ⟨index, rfl, Item.ofText?_of_form (i := 3) rfl hline
        ⟨hi.statement?_eq_none _, hfile, holdFile⟩ ?_⟩
      simp only [directoryRow?, hindex, hblanks, hskip, hname, Option.bind_eq_bind, Option.bind_some]
      rfl
  | older hi hrest hname hopen hline =>
      rename_i i rest
      rw [hline] at hfile holdFile
      obtain ⟨index, rfl, hindex⟩ := hi.exists_column? hrest.head?
      have hcurrent : directoryRow? (i ++ rest) = none := directoryRow?_eq_none hindex hrest hopen
      have hfound : name? rest = some name := name?_eq_some_iff.2 ⟨hrest, hname⟩
      refine ⟨index, rfl, Item.ofText?_of_form (i := 4) rfl hline
        ⟨hi.statement?_eq_none _, hfile, holdFile, hcurrent⟩ ?_⟩
      simp only [oldDirectoryRow?, hindex, hfound, if_neg hopen, Option.bind_eq_bind, Option.bind_some]
      rfl

theorem ofText?_eq_statement_iff {line text : String} :
    Line.ofText? line = some (.statement text) ↔ StatementLayout line text :=
  ⟨laidOut_of_ofText?, ofText?_of_statementLayout⟩

theorem ofText?_eq_fileRow_iff {line name : String} {index directory : Nat} :
    (∃ i d, i.value = index ∧ d.value = directory ∧ Line.ofText? line = some (.fileRow i d name)) ↔
      FileLayout line index directory name := by
  refine ⟨?_, ofText?_of_fileLayout⟩
  rintro ⟨i, d, rfl, rfl, h⟩
  exact laidOut_of_ofText? h

/-- Of a line that could be a row of either table the files have it. -/
theorem ofText?_eq_directoryRow_iff {line name : String} {index : Nat} :
    (∃ i, i.value = index ∧ Line.ofText? line = some (.directoryRow i name)) ↔
      DirectoryLayout line index name ∧
        ∀ index directory name, ¬ FileLayout line index directory name := by
  constructor
  · rintro ⟨i, rfl, h⟩
    refine ⟨laidOut_of_ofText? h, ?_⟩
    intro index directory name' hfile
    obtain ⟨_, _, -, -, hrow⟩ := ofText?_of_fileLayout hfile
    rw [hrow] at h
    cases h
  · rintro ⟨hlayout, hnot⟩
    exact ofText?_of_directoryLayout hlayout hnot

end LineAtlas.LineProgram
