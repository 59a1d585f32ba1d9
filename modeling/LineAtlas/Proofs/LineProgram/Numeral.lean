import LineAtlas.Proofs.LineProgram
import LineAtlas.Proofs.LineProgram.Layout

/-!
# Numbers that cannot be read

A row of a table has the numbers of its columns, and some statements have one number that the machine has to
read. The first of them that has too many digits is the fault of its line. All digits of such a number stand in
the line, so a line with few digits has none.
-/

namespace LineAtlas.LineProgram

open Text

def Statement.number? {ν : Type} : Statement ν → Option ν
  | .setColumn n => some n
  | .setLine n => some n
  | .special _ n => some n
  | .setDiscriminator n => some n
  | .setFile n _ => some n
  | _ => none

def Line.numbers : Line → List Numeral
  | .statement text => ((Statement.ofText? text).bind Statement.number?).toList
  | .fileRow index directory _ => [index, directory]
  | .directoryRow index _ => [index]
  | _ => []

/-- The numbers of a line cannot all be read, and the first that cannot has this fault. -/
def Line.Unreadable (line : Line) (f : Fault) : Prop :=
  line.numbers.mapM Numeral.read = .error f

theorem Statement.read_eq_error_iff {s : Statement Numeral} {f : Fault} :
    s.read = .error f ↔ ∃ n, s.number? = some n ∧ n.read = .error f := by
  cases s <;> simp [read, number?, Except.map_eq_error_iff]

theorem mapM_read_cons_eq_error_iff {n : Numeral} {ns : List Numeral} {f : Fault} :
    (n :: ns).mapM Numeral.read = .error f ↔
      n.read = .error f ∨ (∃ v, n.read = .ok v) ∧ ns.mapM Numeral.read = .error f := by
  rw [List.mapM_cons]
  cases n.read with
  | error e => simp [bind, Except.bind]
  | ok v => cases ns.mapM Numeral.read <;> simp [bind, Except.bind, pure, Except.pure]

theorem Line.unreadable_statement_iff {text : String} {f : Fault} :
    (Line.statement text).Unreadable f ↔
      ∃ s, Statement.ofText? text = some s ∧ s.read = .error f := by
  simp only [Unreadable, numbers, Statement.read_eq_error_iff]
  cases Statement.ofText? text with
  | none => simp [pure, Except.pure]
  | some s =>
      simp only [Option.bind_some, Option.some.injEq, exists_eq_left']
      cases s.number? with
      | none => simp [pure, Except.pure]
      | some n =>
          rw [Option.toList_some, mapM_read_cons_eq_error_iff]
          simp [pure, Except.pure]

/-- A fault of numbers tells how many digits one of them has. -/
theorem Line.Unreadable.exists_number {line : Line} {f : Fault} (h : line.Unreadable f) :
    ∃ n ∈ line.numbers, maxDigits < n.digits.length ∧ f = .numeralTooLong n.digits.length := by
  rw [Unreadable] at h
  generalize line.numbers = ns at h
  induction ns with
  | nil => cases h
  | cons n ns ih =>
      rcases mapM_read_cons_eq_error_iff.1 h with hn | ⟨-, hns⟩
      · exact ⟨n, List.mem_cons_self, Numeral.read_eq_error_iff.1 hn⟩
      · obtain ⟨m, hm, hlong⟩ := ih hns
        exact ⟨m, List.mem_cons_of_mem n hm, hlong⟩

/-! ## Lines at fault -/

variable {p : LineProgram} {f : Fault}

theorem stepStatement_eq_error_iff {text : String} : p.stepStatement text = .error f ↔
    p.files = [] ∧ f = .statementBeforeFiles text ∨
      p.files ≠ [] ∧ (Line.statement text).Unreadable f := by
  rw [stepStatement, Line.unreadable_statement_iff]
  cases p.files with
  | nil => simp [eq_comm]
  | cons row rows =>
      cases Statement.ofText? text with
      | none => simp
      | some s =>
          cases hs : s.read <;> simp [hs, bind, Except.bind, pure, Except.pure]

theorem step_eq_error_iff {line : Line} : p.step line = .error f ↔
    p.files = [] ∧ (∃ text, line = .statement text ∧ f = .statementBeforeFiles text) ∨
      (p.files = [] → ∀ text, line ≠ .statement text) ∧ line.Unreadable f := by
  cases line with
  | statement text =>
      rw [step, stepStatement_eq_error_iff]
      simp
  | fileRow index directory name =>
      simp only [step, Line.Unreadable, Line.numbers, mapM_read_cons_eq_error_iff]
      cases index.read with
      | error e => simp [bind, Except.bind]
      | ok i => cases directory.read <;> simp [bind, Except.bind, pure, Except.pure]
  | directoryRow index name =>
      simp only [step, Line.Unreadable, Line.numbers, mapM_read_cons_eq_error_iff]
      cases index.read <;> simp [bind, Except.bind, pure, Except.pure]
  | initialIsStmt flag => simp [step, Line.Unreadable, Line.numbers, pure, Except.pure]
  | heading => simp [step, Line.Unreadable, Line.numbers, pure, Except.pure]

/-! ## Few digits -/

theorem length_le_of_column? {cs rest : List Char} {n : Numeral} (h : column? cs = some (n, rest)) :
    n.digits.length ≤ cs.countP isDigit ∧ rest.Sublist cs := by
  obtain ⟨tail, hblanks, hn⟩ := Option.bind_eq_some_iff.1 h
  obtain ⟨gap, -, -, rfl⟩ := blanks?_eq_some hblanks
  refine ⟨?_, ?_⟩
  · rw [List.countP_append]
    exact (length_le_of_numeral? hn).trans (Nat.le_add_left _ _)
  · obtain ⟨⟨ds, rest'⟩, hdigits, heq⟩ := Option.map_eq_some_iff.1 hn
    cases heq
    exact (run?_sublist hdigits).trans (List.sublist_append_right _ _)

theorem length_le_of_columns {cs cs₁ cs₂ : List Char} {index directory n : Numeral} {name : String}
    (hindex : column? cs = some (index, cs₁)) (hdirectory : column? cs₁ = some (directory, cs₂))
    (hn : n ∈ (Line.fileRow index directory name).numbers) : n.digits.length ≤ cs.countP isDigit := by
  obtain ⟨hlength, hrest⟩ := length_le_of_column? hindex
  simp only [Line.numbers, List.mem_cons, List.not_mem_nil, or_false] at hn
  rcases hn with rfl | rfl
  · exact hlength
  · exact (length_le_of_column? hdirectory).1.trans hrest.countP_le

theorem extended?_sublist {cs rest : List Char} (h : Statement.extended? cs = some rest) :
    rest.Sublist cs := by
  simp only [Statement.extended?, Option.bind_eq_bind, Option.bind_eq_some_iff, Prod.exists] at h
  obtain ⟨cs₁, hlead, ds, cs₂, hdigits, hcolon⟩ := h
  exact (skip?_sublist hcolon).trans ((run?_sublist hdigits).trans (skip?_sublist hlead))

/-- A number taken from the end of a text has no more digits than the text. -/
theorem length_le_of_sublist {cs tail rest : List Char} {n : Numeral}
    (hn : numeral? tail = some (n, rest)) (htail : tail.Sublist cs) :
    n.digits.length ≤ cs.countP isDigit :=
  (length_le_of_numeral? hn).trans (htail.countP_le)

theorem Statement.length_le_of_ofText? {text : String} {s : Statement Numeral} {n : Numeral}
    (h : ofText? text = some s) (hn : s.number? = some n) :
    n.digits.length ≤ text.toList.countP isDigit := by
  obtain ⟨form, hform, h⟩ := List.exists_of_findSome?_eq_some h
  simp only [List.mem_cons, List.not_mem_nil, or_false] at hform
  rcases hform with rfl | rfl | rfl | rfl | rfl | rfl | rfl | rfl | rfl | rfl | rfl <;>
    simp only [setColumn?, setAddress?, setLine?, special?, copy?, setIsStmt?, advanceAddress?,
      setDiscriminator?, setFile?, endSequence?, Option.bind_eq_bind, Option.bind_eq_some_iff,
      Option.pure_def, Prod.exists, Option.some.injEq] at h
  · obtain ⟨cs₁, hlead, m, cs₂, hm, -, -, rfl⟩ := h
    cases hn
    exact length_le_of_sublist hm (skip?_sublist hlead)
  · obtain ⟨_, _, _, _, _, _, _, rfl⟩ := h
    cases hn
  · obtain ⟨cs₁, hlead, cs₂, hby, cs₃, hto, m, cs₄, hm, -, -, rfl⟩ := h
    cases hn
    exact length_le_of_sublist hm
      ((skip?_sublist hto).trans ((signedDecimal?_sublist hby).trans (skip?_sublist hlead)))
  · obtain ⟨cs₁, hlead, _, cs₂, hnumber, cs₃, hadvance, _, cs₄, hby, cs₅, hto, address, cs₆, haddress, cs₇,
      hand, cs₈, hincrement, cs₉, hline, m, cs₁₀, hm, -, -, rfl⟩ := h
    cases hn
    have haddress : cs₆.Sublist text.toList :=
      (hex?_sublist haddress).trans ((skip?_sublist hto).trans ((run?_sublist hby).trans
        ((skip?_sublist hadvance).trans ((run?_sublist hnumber).trans (skip?_sublist hlead)))))
    exact length_le_of_sublist hm ((skip?_sublist hline).trans
      ((signedDecimal?_sublist hincrement).trans ((skip?_sublist hand).trans haddress)))
  · obtain ⟨_, _, _, _, rfl⟩ := h
    cases hn
  · obtain ⟨_, _, _, _, _, _, _, rfl⟩ := h
    cases hn
  · obtain ⟨_, _, _, _, _, _, _, _, _, _, _, rfl⟩ := h
    cases hn
  · obtain ⟨_, _, _, _, _, _, _, _, _, _, _, rfl⟩ := h
    cases hn
  · obtain ⟨cs₁, hextended, cs₂, hlead, m, cs₃, hm, -, -, rfl⟩ := h
    cases hn
    exact length_le_of_sublist hm ((skip?_sublist hlead).trans (extended?_sublist hextended))
  · obtain ⟨cs₁, hlead, m, cs₂, hm, cs₃, -, -, -, rfl⟩ := h
    cases hn
    exact length_le_of_sublist hm (skip?_sublist hlead)
  · obtain ⟨_, _, _, _, _, _, rfl⟩ := h
    cases hn

theorem length_le_of_statement? {cs : List Char} {line : Line} {n : Numeral}
    (h : statement? cs = some line) (hn : n ∈ line.numbers) : n.digits.length ≤ cs.countP isDigit := by
  simp only [statement?, Option.bind_eq_bind, Option.bind_eq_some_iff, Option.pure_def,
    Option.some.injEq, Prod.exists] at h
  obtain ⟨cs₁, hblanks, cs₂, hopen, offset, cs₃, hoffset, cs₄, hclose, text, hvalue, rfl⟩ := h
  obtain ⟨s, hs, hnumber⟩ := Option.bind_eq_some_iff.1 (Option.mem_toList.1 hn)
  obtain ⟨⟨gap, -, rfl⟩, -, -⟩ := value?_eq_some_iff.1 hvalue
  obtain ⟨gap', -, -, rfl⟩ := blanks?_eq_some hblanks
  have htext : text.toList.Sublist cs₁ := (List.sublist_append_right _ _).trans
    ((skip?_sublist hclose).trans ((run?_sublist hoffset).trans (skip?_sublist hopen)))
  exact (Statement.length_le_of_ofText? hs hnumber).trans
    (htext.trans (List.sublist_append_right _ _)).countP_le

/-- A number of a line has no more digits than the line. -/
theorem Line.length_le_of_ofText? {text : String} {line : Line} {n : Numeral}
    (h : ofText? text = some line) (hn : n ∈ line.numbers) :
    n.digits.length ≤ text.toList.countP isDigit := by
  obtain ⟨form, hform, h⟩ := List.exists_of_findSome?_eq_some h
  simp only [List.mem_cons, List.not_mem_nil, or_false] at hform
  rcases hform with rfl | rfl | rfl | rfl | rfl | rfl | rfl
  · exact length_le_of_statement? h hn
  · simp only [fileRow?, Option.bind_eq_bind, Option.bind_eq_some_iff, Option.pure_def,
      Option.some.injEq, Prod.exists] at h
    obtain ⟨index, cs₁, hindex, directory, cs₂, hdirectory, _, _, _, _, _, _, rfl⟩ := h
    exact length_le_of_columns hindex hdirectory hn
  · simp only [oldFileRow?, Option.bind_eq_bind, Option.bind_eq_some_iff, Option.pure_def,
      Option.some.injEq, Prod.exists] at h
    obtain ⟨index, cs₁, hindex, directory, cs₂, hdirectory, _, _, _, _, _, _, _, _, rfl⟩ := h
    exact length_le_of_columns hindex hdirectory hn
  · simp only [directoryRow?, Option.bind_eq_bind, Option.bind_eq_some_iff, Option.pure_def,
      Option.some.injEq, Prod.exists] at h
    obtain ⟨index, cs₁, hindex, _, _, _, _, _, _, rfl⟩ := h
    rw [List.mem_singleton.1 hn]
    exact (length_le_of_column? hindex).1
  · simp only [oldDirectoryRow?, Option.bind_eq_bind, Option.bind_eq_some_iff, Option.pure_def,
      Prod.exists] at h
    obtain ⟨index, cs₁, hindex, name, -, h⟩ := h
    split at h
    · cases h
    · cases h
      rw [List.mem_singleton.1 hn]
      exact (length_le_of_column? hindex).1
  · simp only [initialIsStmt?, Option.bind_eq_bind, Option.bind_eq_some_iff, Option.pure_def] at h
    obtain ⟨_, -, _, -, _, -, h⟩ := h
    split at h
    · split at h
      · cases h
        cases hn
      · cases h
    · cases h
  · rw [heading?] at h
    split at h
    · cases h
      cases hn
    · cases h

def HasUnreadable (line : String) (f : Fault) : Prop :=
  ∃ content, Line.ofText? line = some content ∧ content.Unreadable f

/-- Only a line with many digits has a number that cannot be read, and the fault tells of how many. -/
theorem HasUnreadable.not_fewDigits {rawLine : String} (h : HasUnreadable (withoutLineEnd rawLine) f) :
    ¬ FewDigits rawLine ∧ ∃ n, maxDigits < n ∧ f = .numeralTooLong n := by
  obtain ⟨line, hline, hf⟩ := h
  obtain ⟨n, hn, hlong, rfl⟩ := hf.exists_number
  exact ⟨fun hfew => absurd (hfew.length_le (Line.length_le_of_ofText? hline hn)) (Nat.not_le.2 hlong),
    _, hlong, rfl⟩

theorem readLine_eq_error_iff {line : String} : p.readLine line = .error f ↔
    p.files = [] ∧ (∃ text, StatementLayout line text ∧ f = .statementBeforeFiles text) ∨
      (p.files = [] → ∀ text, ¬ StatementLayout line text) ∧ HasUnreadable line f := by
  simp only [← ofText?_eq_statement_iff, HasUnreadable]
  rw [readLine]
  cases Line.ofText? line with
  | none => simp
  | some content =>
      simp only [Except.map_eq_error_iff, step_eq_error_iff, Option.some.injEq, exists_eq_left']

end LineAtlas.LineProgram
