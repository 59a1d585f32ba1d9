import LineAtlas.DebugInfo.Line
import LineAtlas.Proofs.LineProgram.Layout
import LineAtlas.Proofs.Text.Search

/-!
# The layouts of headers and attributes

A header is found where the bracket of an id opens first, and its tag follows the last mark of one. A name is
the rest of the line; where a note on its storage stands before it, it is what follows the end of the note. The
other attributes stand at the end of a line and have one place only, so no line has two of them. Only a name may
hold what looks like another attribute, and it is the name that counts then.
-/

namespace LineAtlas.DebugInfo

open Text LineProgram

/-- A header from the bracket that opens the id to the end of the line, with the id and the tag. The tag is the
text after the last mark of one. -/
def HeaderAt (cs : List Char) (header : String × String) : Prop :=
  ∃ digits gap front, digits ≠ [] ∧ (∀ c ∈ digits, isHexDigit c = true) ∧ header.1 = String.ofList digits ∧
    (∀ c ∈ gap, isBlank c = true) ∧ '\n' ∉ front ∧ '\n' ∉ header.2.toList ∧
    ¬ "(DW_TAG_".toList <:+: header.2.toList ∧
    cs = "<".toList ++ (digits ++ (">:".toList ++ (gap ++ (front ++ ("(DW_TAG_".toList ++
      (header.2.toList ++ ")".toList))))))

def NoteEnd (cs : List Char) (value : String) : Prop :=
  ∃ rest, IsRest rest value ∧ cs = "):".toList ++ rest

/-- A note such as `(indirect string, offset: 0x1c):` on one line with the value after it. The first end counts. -/
def Noted (cs : List Char) (value : String) : Prop :=
  ∃ gap kind rest inner, (∀ c ∈ gap, isBlank c = true) ∧ (kind = "" ∨ kind = "line ") ∧ '\n' ∉ inner ∧
    FirstAt NoteEnd rest inner value ∧
    cs = gap ++ ("(indirect ".toList ++ (kind.toList ++ ("string".toList ++ rest)))

/-- What follows the colon of a name: the note, if there is one, is not part of it. A note comes before blanks and
a value, which may be empty; text in the form of one that ends the line is a name itself. -/
def IsName (cs : List Char) (value : String) : Prop :=
  Noted cs value ∨ (∀ other, ¬ Noted cs other) ∧ IsRest cs value

def MarkedBy (mark : String) (cs rest : List Char) : Prop :=
  ∃ gap, (∀ c ∈ gap, isBlank c = true) ∧ cs = mark.toList ++ (gap ++ (":".toList ++ rest))

def IsNumeral (cs : List Char) (n : Numeral) : Prop :=
  ∃ gap, isGap gap = true ∧ n.digits ≠ [] ∧ (∀ c ∈ n.digits, isDigit c = true) ∧ cs = gap ++ n.digits

inductive NameAt (cs : List Char) : Attribute Numeral → Prop
  | name {rest : List Char} {value : String} (hmark : MarkedBy "DW_AT_name" cs rest)
      (hvalue : IsName rest value) : NameAt cs (.name value)
  | linkageName {rest : List Char} {value : String} (hmark : MarkedBy "DW_AT_linkage_name" cs rest)
      (hvalue : IsName rest value) : NameAt cs (.linkageName value)

inductive NumberAt (cs : List Char) : Attribute Numeral → Prop
  | origin {gap digits : List Char} (hgap : isGap gap = true) (hne : digits ≠ [])
      (hdigits : ∀ c ∈ digits, isHexDigit c = true)
      (hmark : MarkedBy "DW_AT_abstract_origin" cs (gap ++ ("<0x".toList ++ (digits ++ ">".toList)))) :
      NumberAt cs (.origin (String.ofList digits))
  | declFile {column : List Char} {n : Numeral} (hcolumn : IsNumeral column n)
      (hmark : MarkedBy "DW_AT_decl_file" cs column) : NumberAt cs (.declFile n)
  | declLine {column : List Char} {n : Numeral} (hcolumn : IsNumeral column n)
      (hmark : MarkedBy "DW_AT_decl_line" cs column) : NumberAt cs (.declLine n)

/-- The attribute that a line carries: the first name in it and, when there is none, what stands at its end. -/
def Carries (cs : List Char) (a : Attribute Numeral) : Prop :=
  FirstIn NameAt cs a ∨ (∀ b, ¬ FirstIn NameAt cs b) ∧ ∃ front rest, cs = front ++ rest ∧ NumberAt rest a

/-! ## Headers -/

/-- The rest of a header: its last mark of a tag, the tag, and the bracket that ends the line. -/
theorem exists_tag_iff {cs tag : List Char} :
    (∃ line body, oneLine? (dropBlanks cs) = some line ∧ before? ")" (dropBlanks cs) = some body ∧
      afterLast? "(DW_TAG_".toList body = some tag) ↔
    ∃ gap front, (∀ c ∈ gap, isBlank c = true) ∧ '\n' ∉ front ∧ '\n' ∉ tag ∧ ¬ "(DW_TAG_".toList <:+: tag ∧
      cs = gap ++ (front ++ ("(DW_TAG_".toList ++ (tag ++ ")".toList))) := by
  have hmark : "(DW_TAG_".toList = '(' :: "DW_TAG_".toList := rfl
  have hlast {body : List Char} : afterLast? "(DW_TAG_".toList body = some tag ↔
      (∃ front, body = front ++ ("(DW_TAG_".toList ++ tag)) ∧ ¬ "(DW_TAG_".toList <:+: tag := by
    have hopen : '(' ∉ "DW_TAG_".toList := by decide
    rw [hmark, afterLast?_eq_some_iff hopen]
  constructor
  · rintro ⟨line, body, hline, hbody, htag⟩
    obtain ⟨gap, hgap, hcs⟩ := exists_dropBlanks cs
    obtain ⟨⟨front, rfl⟩, hnone⟩ := hlast.1 htag
    obtain ⟨hnewline, -⟩ := oneLine?_eq_some_iff.1 hline
    rw [before?_eq_some_iff] at hbody
    rw [hbody] at hnewline hcs
    simp only [List.mem_append, not_or] at hnewline
    exact ⟨gap, front, hgap, hnewline.1.1, hnewline.1.2.2, hnone, by simpa only [List.append_assoc] using hcs⟩
  · rintro ⟨gap, front, hgap, hfront, htag, hnone, rfl⟩
    have hdrop : dropBlanks (gap ++ (front ++ ("(DW_TAG_".toList ++ (tag ++ ")".toList)))) =
        (dropBlanks front ++ ("(DW_TAG_".toList ++ tag)) ++ ")".toList := by
      rw [dropBlanks, List.dropWhile_append_of_pos hgap, ← dropBlanks, hmark, List.cons_append,
        dropBlanks_append_cons rfl]
      simp only [List.append_assoc, List.cons_append]
    have hkept : '\n' ∉ dropBlanks front := fun hmem => hfront ((List.dropWhile_sublist _).subset hmem)
    rw [hdrop]
    refine ⟨_, _, oneLine?_eq_some_iff.2 ⟨?_, rfl⟩, before?_append ")" _, hlast.2 ⟨⟨_, rfl⟩, hnone⟩⟩
    simp [hkept, htag]

theorem headerAt?_eq_some_iff {cs : List Char} {header : String × String} :
    headerAt? cs = some header ↔ HeaderAt cs header := by
  simp only [headerAt?, Option.bind_eq_bind, Option.bind_eq_some_iff, Option.pure_def, Option.some.injEq,
    Prod.exists]
  constructor
  · rintro ⟨afterOpen, hopen, digits, afterDigits, hdigits, afterClose, hclose, line, hline, body, hbody, tag,
      htag, rfl⟩
    obtain ⟨rfl, hne, hall, -⟩ := run?_eq_some_iff.1 hdigits
    obtain ⟨gap, front, hgap, hfront, hnewline, hnone, rfl⟩ := exists_tag_iff.1 ⟨line, body, hline, hbody, htag⟩
    refine ⟨digits, gap, front, hne, hall, rfl, hgap, hfront, ?_, ?_, ?_⟩
    · simpa only [String.toList_ofList] using hnewline
    · simpa only [String.toList_ofList] using hnone
    · rw [after?_eq_some_iff.1 hopen, after?_eq_some_iff.1 hclose]
      simp only [String.toList_ofList]
  · rintro ⟨digits, gap, front, hne, hall, hid, hgap, hfront, hnewline, hnone, rfl⟩
    obtain ⟨id, tag⟩ := header
    obtain rfl : id = String.ofList digits := hid
    obtain ⟨line, body, hline, hbody, htag⟩ :=
      exists_tag_iff.2 ⟨gap, front, hgap, hfront, hnewline, hnone, rfl⟩
    refine ⟨_, skip?_append _ _, digits, _, run?_append hall hne rfl, _, skip?_append _ _, line, hline, body,
      hbody, tag.toList, htag, ?_⟩
    rw [String.ofList_toList]

/-! ## Names -/

theorem noteEnd_iff {cs : List Char} {value : String} :
    (skip? "):" cs).bind value? = some value ↔ NoteEnd cs value := by
  simp only [Option.bind_eq_some_iff, skip?, after?_eq_some_iff, value?_eq_some_iff, NoteEnd, and_comm]

theorem afterNote?_eq_some_iff {cs : List Char} {value : String} :
    afterNote? cs = some value ↔ ∃ inner, '\n' ∉ inner ∧ FirstAt NoteEnd cs inner value := by
  induction cs with
  | nil =>
      constructor
      · exact fun h => (nomatch h)
      · rintro ⟨inner, -, rest, hcs, ⟨rest', -, rfl⟩, -⟩
        simp at hcs
  | cons c cs ih =>
      rw [afterNote?]
      cases hhere : (skip? "):" (c :: cs)).bind value? with
      | some found =>
          constructor
          · rintro ⟨⟩
            exact ⟨[], by simp, firstAt_nil_iff.2 (noteEnd_iff.1 hhere)⟩
          · rintro ⟨inner, -, hfirst⟩
            cases inner with
            | nil => exact hhere.symm.trans (noteEnd_iff.2 (firstAt_nil_iff.1 hfirst))
            | cons d inner => exact absurd (noteEnd_iff.1 hhere) ((firstAt_cons_iff.1 hfirst).2.1 found)
      | none =>
          have hnone := (eq_none_iff_of_some_iff (fun _ _ => noteEnd_iff) (c :: cs)).1 hhere
          constructor
          · intro h
            dsimp only at h
            split at h
            · cases h
            · rename_i hnewline
              obtain ⟨inner, hinner, hfirst⟩ := ih.1 h
              exact ⟨c :: inner, by simp [Ne.symm hnewline, hinner], firstAt_cons_iff.2 ⟨rfl, hnone, hfirst⟩⟩
          · rintro ⟨inner, hinner, hfirst⟩
            cases inner with
            | nil => exact absurd (firstAt_nil_iff.1 hfirst) (hnone value)
            | cons d inner =>
                obtain ⟨rfl, -, hfirst⟩ := firstAt_cons_iff.1 hfirst
                obtain ⟨hnewline, hinner⟩ := not_or.1 (mt List.mem_cons.2 hinner)
                dsimp only
                rw [if_neg (Ne.symm hnewline)]
                exact ih.2 ⟨inner, hinner, hfirst⟩

theorem notedValue?_eq_some_iff {cs : List Char} {value : String} :
    notedValue? cs = some value ↔ Noted cs value := by
  simp only [notedValue?, Option.bind_eq_bind, Option.bind_eq_some_iff]
  constructor
  · rintro ⟨afterOpen, hopen, rest, hrest, hvalue⟩
    obtain ⟨inner, hinner, hfirst⟩ := afterNote?_eq_some_iff.1 hvalue
    obtain ⟨gap, hgap, hcs⟩ := exists_dropBlanks cs
    rw [after?_eq_some_iff.1 hopen] at hcs
    cases hkind : skip? "line " afterOpen with
    | some afterKind =>
        rw [hkind, Option.getD_some] at hrest
        refine ⟨gap, "line ", rest, inner, hgap, .inr rfl, hinner, hfirst, ?_⟩
        rw [hcs, after?_eq_some_iff.1 hkind, after?_eq_some_iff.1 hrest]
    | none =>
        rw [hkind, Option.getD_none] at hrest
        refine ⟨gap, "", rest, inner, hgap, .inl rfl, hinner, hfirst, ?_⟩
        rw [hcs, after?_eq_some_iff.1 hrest]
        rfl
  · rintro ⟨gap, kind, rest, inner, hgap, hkind, hinner, hfirst, rfl⟩
    have hblanks (text : List Char) : dropBlanks (gap ++ ("(indirect ".toList ++ text)) =
        "(indirect ".toList ++ text :=
      dropBlanks_append hgap rfl
    have hskip : (skip? "line " (kind.toList ++ ("string".toList ++ rest))).getD
        (kind.toList ++ ("string".toList ++ rest)) = "string".toList ++ rest := by
      rcases hkind with rfl | rfl
      · have hnone : skip? "line " ("string".toList ++ rest) = none := after?_append_eq_none rfl
        exact congrArg (Option.getD · ("string".toList ++ rest)) hnone
      · rw [skip?_append, Option.getD_some]
    refine ⟨_, by rw [hblanks]; exact skip?_append _ _, rest, ?_, afterNote?_eq_some_iff.2 ⟨inner, hinner, hfirst⟩⟩
    rw [hskip]
    exact skip?_append _ _

theorem orElse?_eq_some_iff {cs : List Char} {value : String} :
    orElse? notedValue? value? cs = some value ↔ IsName cs value := by
  have hnone : notedValue? cs = none ↔ ∀ other, ¬ Noted cs other :=
    eq_none_iff_of_some_iff (fun _ _ => notedValue?_eq_some_iff) cs
  rw [orElse?, IsName, ← notedValue?_eq_some_iff, ← hnone, ← value?_eq_some_iff]
  cases notedValue? cs <;> simp

theorem markedBy_iff {mark : String} {cs rest : List Char} : MarkedBy mark cs rest ↔
    ∃ afterMark, skip? mark cs = some afterMark ∧ skip? ":" (dropBlanks afterMark) = some rest := by
  constructor
  · rintro ⟨gap, hgap, rfl⟩
    refine ⟨_, skip?_append _ _, ?_⟩
    rw [dropBlanks_append hgap rfl]
    exact skip?_append _ _
  · rintro ⟨afterMark, hmark, hcolon⟩
    obtain ⟨gap, hgap, hafter⟩ := exists_dropBlanks afterMark
    rw [after?_eq_some_iff.1 hcolon] at hafter
    exact ⟨gap, hgap, by rw [after?_eq_some_iff.1 hmark, hafter]⟩

theorem skip?_linkageName_eq_some_iff {cs rest : List Char} : skip? "DW_AT_linkage_name" cs = some rest ↔
    ∃ afterAt afterLinkage, skip? "DW_AT" cs = some afterAt ∧ skip? "_linkage" afterAt = some afterLinkage ∧
      skip? "_name" afterLinkage = some rest := by
  simp only [skip?, after?_eq_some_iff]
  constructor
  · rintro rfl
    exact ⟨_, _, rfl, rfl, rfl⟩
  · rintro ⟨_, _, rfl, rfl, rfl⟩
    rfl

theorem skip?_name_eq_some_iff {cs rest : List Char} : skip? "DW_AT_name" cs = some rest ↔
    ∃ afterAt, skip? "DW_AT" cs = some afterAt ∧ skip? "_linkage" afterAt = none ∧
      skip? "_name" afterAt = some rest := by
  simp only [skip?, after?_eq_some_iff]
  constructor
  · rintro rfl
    exact ⟨_, rfl, after?_append_eq_none rfl, rfl⟩
  · rintro ⟨_, rfl, -, rfl⟩
    rfl

theorem nameAt?_eq_some_iff {cs : List Char} {a : Attribute Numeral} : nameAt? cs = some a ↔ NameAt cs a := by
  simp only [nameAt?, Option.bind_eq_bind, Option.bind_eq_some_iff, Option.pure_def, orElse?_eq_some_iff]
  constructor
  · rintro ⟨afterAt, hat, afterName, hname, rest, hcolon, value, hvalue, h⟩
    cases hlinkage : skip? "_linkage" afterAt with
    | some afterLinkage =>
        rw [hlinkage] at hname h
        have hmark := skip?_linkageName_eq_some_iff.2 ⟨afterAt, afterLinkage, hat, hlinkage, hname⟩
        cases h
        exact .linkageName (markedBy_iff.2 ⟨afterName, hmark, hcolon⟩) hvalue
    | none =>
        rw [hlinkage] at hname h
        have hmark := skip?_name_eq_some_iff.2 ⟨afterAt, hat, hlinkage, hname⟩
        cases h
        exact .name (markedBy_iff.2 ⟨afterName, hmark, hcolon⟩) hvalue
  · intro h
    cases h with
    | @name rest value hmark hvalue =>
        obtain ⟨afterName, hskip, hcolon⟩ := markedBy_iff.1 hmark
        obtain ⟨afterAt, hat, hlinkage, hname⟩ := skip?_name_eq_some_iff.1 hskip
        exact ⟨afterAt, hat, afterName, by rwa [hlinkage], rest, hcolon, value, hvalue, by rw [hlinkage]; rfl⟩
    | @linkageName rest value hmark hvalue =>
        obtain ⟨afterName, hskip, hcolon⟩ := markedBy_iff.1 hmark
        obtain ⟨afterAt, afterLinkage, hat, hlinkage, hname⟩ := skip?_linkageName_eq_some_iff.1 hskip
        exact ⟨afterAt, hat, afterName, by rwa [hlinkage], rest, hcolon, value, hvalue, by rw [hlinkage]; rfl⟩

/-! ## Attributes at the end of a line -/

theorem attributeValue?_eq_some_iff {mark : String} {cs rest : List Char} :
    attributeValue? mark cs = some rest ↔ ∃ gap, isGap gap = true ∧ rest.head?.any isBlank = false ∧
      MarkedBy mark cs (gap ++ rest) := by
  simp only [attributeValue?, Option.bind_eq_bind, Option.bind_eq_some_iff]
  constructor
  · rintro ⟨afterMark, hmark, afterColon, hcolon, hblanks⟩
    obtain ⟨gap, hgap, hrest, rfl⟩ := blanks?_eq_some hblanks
    exact ⟨gap, hgap, hrest, markedBy_iff.2 ⟨afterMark, hmark, hcolon⟩⟩
  · rintro ⟨gap, hgap, hrest, hmark⟩
    obtain ⟨afterMark, hskip, hcolon⟩ := markedBy_iff.1 hmark
    exact ⟨afterMark, hskip, gap ++ rest, hcolon, blanks?_append hgap hrest⟩

theorem atEnd?_eq_some_iff {cs : List Char} {u : Unit} : atEnd? cs = some u ↔ cs = [] := by
  simp [atEnd?]

theorem originAt?_eq_some_iff {cs : List Char} {a : Attribute Numeral} : originAt? cs = some a ↔
    ∃ gap digits, isGap gap = true ∧ digits ≠ [] ∧ (∀ c ∈ digits, isHexDigit c = true) ∧
      MarkedBy "DW_AT_abstract_origin" cs (gap ++ ("<0x".toList ++ (digits ++ ">".toList))) ∧
      a = .origin (String.ofList digits) := by
  simp only [originAt?, Option.bind_eq_bind, Option.bind_eq_some_iff, Option.pure_def, Option.some.injEq,
    Prod.exists, attributeValue?_eq_some_iff, hexDigits?, run?_eq_some_iff, skip?, after?_eq_some_iff,
    atEnd?_eq_some_iff]
  constructor
  · rintro ⟨_, ⟨gap, hgap, -, hmark⟩, _, rfl, digits, _, ⟨rfl, hne, hdigits, -⟩, _, rfl, _, rfl, rfl⟩
    exact ⟨gap, digits, hgap, hne, hdigits, hmark, rfl⟩
  · rintro ⟨gap, digits, hgap, hne, hdigits, hmark, rfl⟩
    exact ⟨_, ⟨gap, hgap, rfl, hmark⟩, _, rfl, digits, _, ⟨rfl, hne, hdigits, rfl⟩, _, rfl, (), rfl, rfl⟩

theorem numberAt?_eq_some_iff {mark : String} {cs : List Char} {n : Numeral} :
    numberAt? mark cs = some n ↔ ∃ column, IsNumeral column n ∧ MarkedBy mark cs column := by
  simp only [numberAt?, numeral?, digits?, Option.bind_eq_bind, Option.bind_eq_some_iff, Option.pure_def,
    Option.some.injEq, Option.map_eq_some_iff, Prod.exists, attributeValue?_eq_some_iff, run?_eq_some_iff,
    atEnd?_eq_some_iff]
  constructor
  · rintro ⟨_, ⟨gap, hgap, -, hmark⟩, _, _, ⟨digits, _, ⟨rfl, hne, hdigits, -⟩, hvalue⟩, _, rfl, rfl⟩
    cases hvalue
    rw [List.append_nil] at hmark
    exact ⟨gap ++ digits, ⟨gap, hgap, hne, hdigits, rfl⟩, hmark⟩
  · rintro ⟨_, ⟨gap, hgap, hne, hdigits, rfl⟩, hmark⟩
    obtain ⟨digits⟩ := n
    have hhead : digits.head?.any isBlank = false := by
      cases digits with
      | nil => rfl
      | cons c digits => exact isBlank_of_isDigit (hdigits c List.mem_cons_self)
    exact ⟨digits, ⟨gap, hgap, hhead, hmark⟩, _, [], ⟨digits, [], ⟨by simp, hne, hdigits, rfl⟩, rfl⟩, (), rfl, rfl⟩

def numberForms : List (List Char → Option (Attribute Numeral)) :=
  [originAt?, declFileAt?, declLineAt?]

theorem exists_numberForm_iff {cs : List Char} {a : Attribute Numeral} :
    (∃ form ∈ numberForms, form cs = some a) ↔ NumberAt cs a := by
  simp only [numberForms, List.mem_cons, List.not_mem_nil, or_false, exists_eq_or_imp, exists_eq_left,
    originAt?_eq_some_iff, declFileAt?, declLineAt?, Option.map_eq_some_iff, numberAt?_eq_some_iff]
  constructor
  · rintro (⟨gap, digits, hgap, hne, hdigits, hmark, rfl⟩ | ⟨n, ⟨column, hcolumn, hmark⟩, rfl⟩ |
      ⟨n, ⟨column, hcolumn, hmark⟩, rfl⟩)
    · exact .origin hgap hne hdigits hmark
    · exact .declFile hcolumn hmark
    · exact .declLine hcolumn hmark
  · intro h
    cases h with
    | origin hgap hne hdigits hmark => exact .inl ⟨_, _, hgap, hne, hdigits, hmark, rfl⟩
    | declFile hcolumn hmark => exact .inr (.inl ⟨_, ⟨_, hcolumn, hmark⟩, rfl⟩)
    | declLine hcolumn hmark => exact .inr (.inr ⟨_, ⟨_, hcolumn, hmark⟩, rfl⟩)

/-! ## One place only -/

theorem not_mem_of_isBlank {gap : List Char} (hgap : ∀ c ∈ gap, isBlank c = true) : 'D' ∉ gap :=
  fun hmem => absurd (hgap 'D' hmem) (by decide)

theorem not_mem_of_isGap {gap : List Char} (hgap : isGap gap = true) : 'D' ∉ gap := by
  rw [isGap, Bool.and_eq_true, List.all_eq_true] at hgap
  exact not_mem_of_isBlank hgap.2

theorem not_mem_of_isNumeral {column : List Char} {n : Numeral} (h : IsNumeral column n) :
    'D' ∉ column := by
  obtain ⟨gap, hgap, -, hdigits, rfl⟩ := h
  have hmem : 'D' ∉ n.digits := fun hmem => absurd (hdigits 'D' hmem) (by decide)
  simp [not_mem_of_isGap hgap, hmem]

theorem MarkedBy.exists_tail {mark : String} {cs rest tail : List Char} (h : MarkedBy mark cs rest)
    (hmark : mark.toList = 'D' :: tail) (htail : 'D' ∉ tail) (hrest : 'D' ∉ rest) :
    ∃ tail, cs = 'D' :: tail ∧ 'D' ∉ tail := by
  obtain ⟨gap, hgap, rfl⟩ := h
  rw [hmark]
  exact ⟨_, rfl, by simp [htail, hrest, not_mem_of_isBlank hgap]⟩

theorem marked_numberAt : Marked 'D' NumberAt := by
  intro cs a h
  cases h with
  | @origin gap digits hgap hne hdigits hmark =>
      have hmem : 'D' ∉ digits := fun hmem => absurd (hdigits 'D' hmem) (by decide)
      exact hmark.exists_tail rfl (by decide) (by simp [not_mem_of_isGap hgap, hmem])
  | declFile hcolumn hmark => exact hmark.exists_tail rfl (by decide) (not_mem_of_isNumeral hcolumn)
  | declLine hcolumn hmark => exact hmark.exists_tail rfl (by decide) (not_mem_of_isNumeral hcolumn)

theorem MarkedBy.not_markedBy {mark other : String} {cs rest rest' : List Char} (h : MarkedBy mark cs rest)
    (hdiffer : differ other.toList mark.toList = true) : ¬ MarkedBy other cs rest' := by
  obtain ⟨gap, -, rfl⟩ := h
  rintro ⟨gap', -, hother⟩
  have hnone : after? other.toList (mark.toList ++ (gap ++ (":".toList ++ rest))) = none :=
    after?_append_eq_none hdiffer
  rw [hother, after?_append] at hnone
  cases hnone

/-- Where another mark begins a line and its first letter does not come again, the line has no name. -/
theorem MarkedBy.not_firstIn_nameAt {mark : String} {tail rest : List Char}
    (hmark : MarkedBy mark ('D' :: tail) rest) (htail : 'D' ∉ tail)
    (hname : differ "DW_AT_name".toList mark.toList = true)
    (hlinkage : differ "DW_AT_linkage_name".toList mark.toList = true) (a : Attribute Numeral) :
    ¬ FirstIn NameAt ('D' :: tail) a := by
  rintro ⟨front, rest', hline, hat, -⟩
  have hwhole {other : String} {after behind : List Char} (hother : MarkedBy other rest' after)
      (hopen : other.toList = 'D' :: behind) : rest' = 'D' :: tail := by
    obtain ⟨gap, -, rfl⟩ := hother
    rw [hopen] at hline ⊢
    cases front with
    | nil => exact hline.symm
    | cons c front =>
        obtain ⟨-, rfl⟩ := List.cons.inj hline
        simp at htail
  cases hat with
  | name hother _ =>
      obtain rfl := hwhole hother rfl
      exact hmark.not_markedBy hname hother
  | linkageName hother _ =>
      obtain rfl := hwhole hother rfl
      exact hmark.not_markedBy hlinkage hother

theorem numberAt_unique {cs : List Char} {a b : Attribute Numeral} (ha : NumberAt cs a)
    (hb : NumberAt cs b) : a = b := by
  cases ha with
  | origin hgap hne hdigits hmark =>
      cases hb with
      | origin hgap' hne' hdigits' hmark' =>
          have hsome := originAt?_eq_some_iff.2 ⟨_, _, hgap, hne, hdigits, hmark, rfl⟩
          rw [originAt?_eq_some_iff.2 ⟨_, _, hgap', hne', hdigits', hmark', rfl⟩] at hsome
          exact (Option.some.inj hsome).symm
      | declFile hcolumn' hmark' => exact absurd hmark' (hmark.not_markedBy rfl)
      | declLine hcolumn' hmark' => exact absurd hmark' (hmark.not_markedBy rfl)
  | declFile hcolumn hmark =>
      cases hb with
      | origin hgap' hne' hdigits' hmark' => exact absurd hmark' (hmark.not_markedBy rfl)
      | declFile hcolumn' hmark' =>
          have hsome := numberAt?_eq_some_iff.2 ⟨_, hcolumn, hmark⟩
          rw [numberAt?_eq_some_iff.2 ⟨_, hcolumn', hmark'⟩] at hsome
          rw [Option.some.inj hsome]
      | declLine hcolumn' hmark' => exact absurd hmark' (hmark.not_markedBy rfl)
  | declLine hcolumn hmark =>
      cases hb with
      | origin hgap' hne' hdigits' hmark' => exact absurd hmark' (hmark.not_markedBy rfl)
      | declFile hcolumn' hmark' => exact absurd hmark' (hmark.not_markedBy rfl)
      | declLine hcolumn' hmark' =>
          have hsome := numberAt?_eq_some_iff.2 ⟨_, hcolumn, hmark⟩
          rw [numberAt?_eq_some_iff.2 ⟨_, hcolumn', hmark'⟩] at hsome
          rw [Option.some.inj hsome]

/-- Wherever such an attribute stands, the forms find it and nothing else. -/
theorem findSome?_numberForms_eq_some_iff {line : List Char} {a : Attribute Numeral} :
    (numberForms.findSome? fun form => search? form line) = some a ↔
      ∃ front rest, line = front ++ rest ∧ NumberAt rest a := by
  have hsearch : ∀ form ∈ numberForms, ∀ b, search? form line = some b ↔
      ∃ front rest, line = front ++ rest ∧ form rest = some b := by
    intro form hform b
    have hmarked : Marked 'D' fun cs b => form cs = some b :=
      fun cs b hb => marked_numberAt cs b (exists_numberForm_iff.1 ⟨form, hform, hb⟩)
    rw [search?_eq_some_iff (P := fun cs b => form cs = some b) fun _ _ => Iff.rfl]
    exact hmarked.firstIn_iff
  constructor
  · intro h
    obtain ⟨form, hform, hfound⟩ := List.exists_of_findSome?_eq_some h
    obtain ⟨front, rest, hline, ha⟩ := (hsearch form hform a).1 hfound
    exact ⟨front, rest, hline, exists_numberForm_iff.1 ⟨form, hform, ha⟩⟩
  · rintro ⟨front, rest, hline, ha⟩
    obtain ⟨form, hform, hfound⟩ := exists_numberForm_iff.2 ha
    have hsome : (numberForms.findSome? fun form => search? form line).isSome = true := by
      rw [List.findSome?_isSome_iff]
      exact ⟨form, hform, by rw [(hsearch form hform a).2 ⟨front, rest, hline, hfound⟩]; rfl⟩
    obtain ⟨b, hb⟩ := Option.isSome_iff_exists.1 hsome
    obtain ⟨other, hother, hfound'⟩ := List.exists_of_findSome?_eq_some hb
    obtain ⟨front', rest', hline', hb'⟩ := (hsearch other hother b).1 hfound'
    have hb' := exists_numberForm_iff.1 ⟨other, hother, hb'⟩
    obtain rfl := marked_numberAt.eq marked_numberAt ha hb' (hline.symm.trans hline')
    rw [hb, numberAt_unique ha hb']

/-! ## Lines -/

theorem header?_eq_some_iff {line : List Char} {header : String × String} :
    header? line = some header ↔ FirstIn HeaderAt line header :=
  search?_eq_some_iff fun _ _ => headerAt?_eq_some_iff

theorem attribute?_eq_some_iff {line : List Char} {a : Attribute Numeral} :
    attribute? line = some a ↔ Carries line a := by
  have hname (b : Attribute Numeral) : search? nameAt? line = some b ↔ FirstIn NameAt line b :=
    search?_eq_some_iff fun _ _ => nameAt?_eq_some_iff
  have hforms : attribute? line = (search? nameAt? line).or
      (numberForms.findSome? fun form => search? form line) := by
    rw [attribute?, List.findSome?_cons]
    cases search? nameAt? line <;> rfl
  rw [hforms, Carries, ← findSome?_numberForms_eq_some_iff]
  simp only [← hname]
  cases search? nameAt? line <;> simp

example : attribute? "DW_AT_name: (indirect string): DW_AT_decl_line: 7".toList =
    some (.name "DW_AT_decl_line: 7") := by
  decide +kernel

end LineAtlas.DebugInfo
