import LineAtlas.Proofs.Faults
import LineAtlas.Proofs.InPlace
import LineAtlas.Proofs.LineProgram.Numeral
import LineAtlas.Proofs.LineProgram.Path
import LineAtlas.Proofs.Traversal

/-!
# The line program in place

The machine changes its tables, its registers and its rows one after the other. It looks whether there is a file
before it carries out a statement, and reads the numbers of a line before it changes anything. So a fault, be it a
statement before every row of a file or a number with too many digits, leaves it as the lines before have left it,
and it may read on as if the line had not been there.
-/

namespace LineAtlas.LineProgram

open Text InPlace

/-! ## The machine at work -/

/-- Adds a row for the registers. The registers after it are given back, to be set by whoever asked. -/
def addRow (r : Registers) : InPlace LineProgram Registers := do
  update fun p => { p with rows := p.rows.add r.address r.position }
  return r.afterRow

def handle (r : Registers) : Statement Numeral → InPlace LineProgram Registers
  | .setColumn n => return { r with column := ← attempt n.read }
  | .setAddress n => return { r with address := n }
  | .setLine n => return { r with line := ← attempt n.read }
  | .special address line => do
    let line ← attempt line.read
    addRow { r with address, line }
  | .copy => addRow r
  | .setIsStmt flag => return { r with isStmt := flag }
  | .setDiscriminator n => return { r with discriminator := ← attempt n.read }
  | .setFile index written => do
    let index ← attempt index.read
    let p ← state
    let path := p.files.get? index
    if path.isNone then say .warning s!"Line program refers to unknown file entry {written}"
    return { r with file := path }
  | .endSequence => do
    let _ ← addRow r
    update fun p => { p with sequences := p.sequences ++ [p.rows] }
    let p ← state
    say .debug s!"Sequence {p.sequences.length - 1} closed with {p.rows.size} addresses"
    update fun p => { p with rows := .empty }
    return p.initialRegisters

def carryOut (text : String) : InPlace LineProgram Unit := do
  let p ← state
  if p.files.isEmpty then
    throw (.statementBeforeFiles text)
  match Statement.ofText? text with
  | some s =>
    let r ← handle p.registers s
    update fun p => { p with registers := r }
  | none =>
    update fun p => { p with unknownStatements := p.unknownStatements ++ [text] }
    say .warning s!"Unknown line program instruction: '{text}'"

def perform : Line → InPlace LineProgram Unit
  | .statement text => carryOut text
  | .fileRow index directory name => do
    let index ← attempt index.read
    let directory ← attempt directory.read
    let p ← state
    let path := p.path directory name
    say .debug s!"File table [{index}] = '{path}'"
    update fun p => { p with files := p.files.put index path }
    if index = firstFile then
      update fun p => { p with registers := { p.registers with file := some path } }
  | .directoryRow index name => do
    let i ← attempt index.read
    update fun p => { p with directories := p.directories.put i name }
    say .debug s!"Directory table [{index.text}] = '{name}'"
  | .initialIsStmt flag => do
    update fun p => { p with defaultIsStmt := flag }
    update fun p => { p with registers := { p.registers with isStmt := p.defaultIsStmt } }
  | .heading => return ()

def builder : Builder LineProgram where
  name := "line program"
  start := empty
  work line :=
    match Line.ofText? line with
    | none => return false
    | some content => do
      perform content
      return true

/-! ## What the machine does -/

theorem run_addRow (r : Registers) (k : Desk LineProgram) : (addRow r).run k =
    .ok r.afterRow { k with state := { k.state with rows := k.state.rows.add r.address r.position } } := by
  simp only [addRow, EStateM.run_bind, run_update, EStateM.run_pure]

def stepped (k : Desk LineProgram) :
    Except Fault (LineProgram × List Notice) → EStateM.Result Fault (Desk LineProgram) Unit
  | .ok (p, ns) => .ok () { k with state := p, notices := k.notices ++ ns }
  | .error f => .error f k

/-- Setting the registers to what a statement makes of them carries it out. -/
theorem run_handle (s : Statement Numeral) (k : Desk LineProgram) :
    (handle k.state.registers s >>= fun r => update fun p => { p with registers := r }).run k =
      stepped k (s.read.map fun s => (k.state.execute s, k.state.executionNotices s)) := by
  cases s with
  | setColumn n | setLine n | setDiscriminator n =>
      simp only [handle, Statement.read, EStateM.run_bind, run_attempt]
      cases n.read with
      | error f => rfl
      | ok v =>
          simp only [EStateM.run_pure, run_update, Except.map, stepped, executionNotices, List.append_nil]
          rfl
  | special address n =>
      simp only [handle, Statement.read, EStateM.run_bind, run_attempt]
      cases n.read with
      | error f => rfl
      | ok v =>
          simp only [run_addRow, run_update, Except.map, stepped, executionNotices, List.append_nil]
          rfl
  | setFile n written =>
      simp only [handle, Statement.read, EStateM.run_bind, run_attempt]
      cases n.read with
      | error f => rfl
      | ok index =>
          cases hpath : Keyed.get? k.state.files index with
          | none =>
              simp only [EStateM.run_bind, run_state, hpath, Option.isNone_none, if_true, run_say,
                EStateM.run_pure, run_update, Except.map, stepped, execute, executionNotices,
                Option.isSome_none, Bool.false_eq_true, if_false]
          | some path =>
              simp only [run_state, hpath, Option.isNone_some, Bool.false_eq_true, if_false,
                EStateM.run_pure, run_update, Except.map, stepped, execute, executionNotices,
                Option.isSome_some, if_true, List.append_nil]
  | endSequence =>
      have hcount (q : LineSequence) :
          (k.state.sequences ++ [q]).length - 1 = k.state.sequences.length := by
        simp
      simp only [handle, EStateM.run_bind, run_addRow, run_update, run_state, run_say, EStateM.run_pure,
        hcount]
      rfl
  | copy =>
      simp only [handle, Statement.read, EStateM.run_bind, run_addRow, run_update, Except.map, stepped,
        executionNotices, List.append_nil]
      rfl
  | setAddress | setIsStmt =>
      simp only [handle, Statement.read, EStateM.run_bind, EStateM.run_pure, run_update, Except.map,
        stepped, executionNotices, List.append_nil]
      rfl

theorem run_carryOut (text : String) (k : Desk LineProgram) :
    (carryOut text).run k = stepped k (k.state.stepStatement text) := by
  rw [carryOut, EStateM.run_bind, run_state, stepStatement]
  cases hfiles : k.state.files.isEmpty with
  | true =>
      simp only [hfiles, if_true, EStateM.run_bind, EStateM.run_throw]
      rfl
  | false =>
      cases Statement.ofText? text with
      | some s =>
          simp only [hfiles, Bool.false_eq_true, if_false, Except.bind_return]
          exact run_handle s k
      | none =>
          simp only [hfiles, Bool.false_eq_true, if_false, EStateM.run_bind, run_update, run_say]
          rfl

theorem run_perform (content : Line) (k : Desk LineProgram) :
    (perform content).run k = stepped k (k.state.step content) := by
  cases content with
  | statement text => exact run_carryOut text k
  | fileRow index directory name =>
      rw [perform, step]
      simp only [EStateM.run_bind, run_attempt]
      cases index.read with
      | error f => rfl
      | ok i =>
          cases directory.read with
          | error f => rfl
          | ok d =>
              simp only [run_state, run_say, run_update]
              by_cases hfirst : i = firstFile
              · simp only [if_pos hfirst, run_update]
                simp only [Except.ok_bind, addFile, if_pos hfirst]
                rfl
              · simp only [if_neg hfirst, EStateM.run_pure]
                simp only [Except.ok_bind, addFile, if_neg hfirst]
                rfl
  | directoryRow index name =>
      rw [perform, step]
      simp only [EStateM.run_bind, run_attempt]
      cases index.read with
      | error f => rfl
      | ok i =>
          simp only [run_update, run_say]
          rfl
  | initialIsStmt flag =>
      rw [perform, step]
      simp only [EStateM.run_bind, run_update, stepped, List.append_nil]
  | heading =>
      rw [perform, step]
      simp only [EStateM.run_pure, stepped, List.append_nil]

theorem builder_realizes : builder.Realizes format where
  name := rfl
  start := rfl
  run_work line k := by
    rw [format_readLine, readLine]
    simp only [builder]
    cases Line.ofText? line with
    | none => rfl
    | some content =>
        simp only [EStateM.run_bind, run_perform]
        cases k.state.step content <;> rfl

/-! ## Lines at fault -/

def IsStatement (rawLine text : String) : Prop :=
  StatementLayout (withoutLineEnd rawLine) text

def NoFileRow (lines : List String) : Prop :=
  ∀ row ∈ lines, ∀ index directory name, ¬ IsFileRow row index directory name

/-- What is wrong with a line after some others. A statement without a file before it is not looked into, so
numbers count only in other lines and after a file. -/
inductive AtFault (earlier : List String) (rawLine : String) : Fault → Prop
  | early {text : String} (hfiles : NoFileRow earlier) (hstatement : IsStatement rawLine text) :
      AtFault earlier rawLine (.statementBeforeFiles text)
  | number {f : Fault} (hfiles : NoFileRow earlier → ∀ text, ¬ IsStatement rawLine text)
      (hnumber : HasUnreadable (withoutLineEnd rawLine) f) : AtFault earlier rawLine f

/-- The machine knows no file as long as no line is a row of one. -/
theorem files_eq_nil_iff {lines : List String} {r : Reading LineProgram}
    (hread : (format.read lines).outcome = .ok r) : r.state.files = [] ↔ NoFileRow lines := by
  constructor
  · intro hnil row hrow index
    apply (get?_files_eq_none_iff hread).1 _ row hrow
    rw [hnil, Keyed.get?_nil]
  · intro hnone
    cases hfiles : r.state.files with
    | nil => rfl
    | cons row rows =>
        have hget : r.state.files.get? row.1 = none :=
          (get?_files_eq_none_iff hread).2 fun line hline => hnone line hline row.1
        simp [hfiles, Keyed.get?] at hget

theorem atFault_iff {earlier : List String} {r : Reading LineProgram}
    (hread : (format.read earlier).outcome = .ok r) {line : String} {f : Fault} :
    AtFault earlier line f ↔ format.readLine r.state (withoutLineEnd line) = .error f := by
  rw [format_readLine, readLine_eq_error_iff, files_eq_nil_iff hread]
  constructor
  · rintro (⟨hfiles, hstatement⟩ | ⟨hfiles, hnumber⟩)
    · exact .inl ⟨hfiles, _, hstatement, rfl⟩
    · exact .inr ⟨hfiles, hnumber⟩
  · rintro (⟨hfiles, text, hstatement, rfl⟩ | ⟨hfiles, hnumber⟩)
    · exact .early hfiles hstatement
    · exact .number hfiles hnumber

theorem AtFault.kind_eq {earlier : List String} {line : String} {f : Fault} (h : AtFault earlier line f) :
    f.kind = .structural ∨ f.kind = .numeral := by
  cases h with
  | early => exact .inl rfl
  | number _ hnumber =>
      obtain ⟨-, n, -, rfl⟩ := hnumber.not_fewDigits
      exact .inr rfl

/-- The first line at fault breaks reading off. -/
theorem outcome_read_eq_error_iff_atFault {lines : List String} {f : Fault} :
    (read lines).outcome = .error f ↔ ∃ earlier line later, lines = earlier ++ line :: later ∧
      (∃ r, (format.read earlier).outcome = .ok r) ∧ AtFault earlier line f := by
  rw [outcome_read_eq_error_iff, DumpFormat.read, DumpFormat.feed_eq_error_iff]
  constructor
  · rintro ⟨earlier, line, later, r, hlines, hearlier, hline⟩
    exact ⟨earlier, line, later, hlines, ⟨r, hearlier⟩, (atFault_iff hearlier).2 hline⟩
  · rintro ⟨earlier, line, later, hlines, ⟨r, hearlier⟩, hline⟩
    exact ⟨earlier, line, later, r, hlines, hearlier, (atFault_iff hearlier).1 hline⟩

/-- What broke off is not taken up again. -/
theorem outcome_read_append_of_error {earlier : List String} {f : Fault}
    (h : (format.read earlier).outcome = .error f) (later : List String) :
    (format.read (earlier ++ later)).outcome = .error f := by
  rw [DumpFormat.read] at h ⊢
  rw [DumpFormat.feed_append, Logged.outcome_bind, h]
  rfl

def HasEarlyStatement (lines : List String) : Prop :=
  ∃ earlier line later text, lines = earlier ++ line :: later ∧ IsStatement line text ∧ NoFileRow earlier

/-- Whatever is wrong with other lines, a statement before the first row of a file is not read past. -/
theorem exists_outcome_read_eq_error {lines : List String} (h : HasEarlyStatement lines) :
    ∃ f, (read lines).outcome = .error f := by
  obtain ⟨earlier, line, later, text, rfl, hstatement, hfiles⟩ := h
  simp only [outcome_read_eq_error_iff]
  cases hread : (format.read earlier).outcome with
  | error f => exact ⟨f, outcome_read_append_of_error hread (line :: later)⟩
  | ok r =>
      have hline := (atFault_iff hread).1 (.early hfiles hstatement)
      exact ⟨_, format.feed_eq_error_iff.2 ⟨earlier, line, later, r, rfl, hread, hline⟩⟩

theorem hasEarlyStatement_of_fewDigits {lines : List String} (hfew : ∀ line ∈ lines, FewDigits line)
    {f : Fault} (h : (read lines).outcome = .error f) : HasEarlyStatement lines ∧ f.kind = .structural := by
  obtain ⟨earlier, line, later, rfl, -, hfault⟩ := outcome_read_eq_error_iff_atFault.1 h
  cases hfault with
  | early hfiles hstatement => exact ⟨⟨earlier, line, later, _, rfl, hstatement, hfiles⟩, rfl⟩
  | number _ hnumber => exact absurd (hfew line (by simp)) hnumber.not_fewDigits.1

theorem outcome_of_read_eq_ok {lines : List String} {vs : List Bool} {k : Desk LineProgram}
    (h : builder.read lines = .ok vs k) : (format.read lines).outcome = .ok k.toReading := by
  rw [← builder_realizes.told_read, h]
  rfl

/-- Reading breaks off at the first line that is at fault: a statement, known or not, before the first row of a
file, or a line with a number of too many digits. When no line has many digits, it breaks off exactly when some
statement comes before the first row of a file, and that is a structural fault. In place all that is held then is
what the lines before the one at fault have left, and whatever lines are fed to the same machine after that, it
goes on as if they followed those lines. -/
theorem read_breaksOff_iff (lines : List String) :
    (∀ f, (read lines).outcome = .error f ↔ ∃ earlier line later, lines = earlier ++ line :: later ∧
      (∃ r, (format.read earlier).outcome = .ok r) ∧ AtFault earlier line f) ∧
    (∀ f, (read lines).outcome = .error f → f.kind = .structural ∨ f.kind = .numeral) ∧
    (HasEarlyStatement lines → ∃ f, (read lines).outcome = .error f) ∧
    ((∀ line ∈ lines, FewDigits line) → ∀ f, (read lines).outcome = .error f →
      HasEarlyStatement lines ∧ f.kind = .structural) ∧
    told (builder.read lines) = format.read lines ∧
    ∀ f k, builder.read lines = .error f k → ∃ earlier line later vs,
      lines = earlier ++ line :: later ∧ AtFault earlier line f ∧ builder.read earlier = .ok vs k ∧
      ∀ more, (do return vs ++ (← builder.feed more)).run k = builder.read (earlier ++ more) := by
  refine ⟨fun f => outcome_read_eq_error_iff_atFault, ?_, exists_outcome_read_eq_error,
    fun hfew f => hasEarlyStatement_of_fewDigits hfew, builder_realizes.told_read lines, ?_⟩
  · intro f hf
    obtain ⟨_, _, _, -, -, hfault⟩ := outcome_read_eq_error_iff_atFault.1 hf
    exact hfault.kind_eq
  · intro f k hf
    obtain ⟨earlier, line, later, vs, rfl, hearlier, hline⟩ := builder_realizes.run_feed_eq_error_iff.1 hf
    have hfault := (atFault_iff (outcome_of_read_eq_ok hearlier)).2 hline
    refine ⟨earlier, line, later, vs, rfl, hfault, hearlier, ?_⟩
    intro more
    exact (builder.run_feed_append earlier more hearlier).symm

/-- A statement between the row of a directory and the first row of a file. -/
def lateTable : List String :=
  ["  1\t/src", "  [0x1]  Copy", "  1\t1\t0\t0\ta.c", "  [0x2]  Copy"]

theorem read_breaksOff_iff_lateTable :
    (read lateTable).outcome = .error (.statementBeforeFiles "Copy") ∧ HasEarlyStatement lateTable ∧
    ∃ k, builder.read lateTable = .error (.statementBeforeFiles "Copy") k ∧
      ∃ earlier line later vs, lateTable = earlier ++ line :: later ∧
        AtFault earlier line (.statementBeforeFiles "Copy") ∧ builder.read earlier = .ok vs k ∧
        (do return vs ++ (← builder.feed later)).run k = builder.read (earlier ++ later) := by
  have hread : (read lateTable).outcome = .error (.statementBeforeFiles "Copy") := by
    rfl
  have hfew : ∀ line ∈ lateTable, FewDigits line := by
    simp only [lateTable, List.forall_mem_cons, FewDigits]
    decide +kernel
  obtain ⟨-, -, -, hearly, htold, hfault⟩ := read_breaksOff_iff lateTable
  have hformat := outcome_read_eq_error_iff.1 hread
  cases hplace : builder.read lateTable with
  | ok vs k =>
      rw [← htold, hplace] at hformat
      cases hformat
  | error f k =>
      rw [← htold, hplace] at hformat
      cases hformat
      obtain ⟨earlier, line, later, vs, hlines, hline, hearlier, hmore⟩ := hfault _ k hplace
      exact ⟨hread, (hearly hfew _ hread).1, k, rfl, earlier, line, later, vs, hlines, hline, hearlier,
        hmore later⟩

end LineAtlas.LineProgram
