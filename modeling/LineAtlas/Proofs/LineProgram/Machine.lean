import LineAtlas.Proofs.LineProgram
import LineAtlas.Proofs.LineProgram.Item
import Mathlib.Logic.Function.Basic

/-!
# The line number machine

The machine that a printed program is for, with tables that are plain functions and rows in the order in
which they are added. Reading any program that is printed for it ends with its sequences and its table of
files, and every line is understood. Reading breaks off only at a number that has too many digits.
-/

namespace LineAtlas.LineProgram

open Text

structure Row where
  address : Nat := 0
  file : Option String
  line : Nat := 1
  column : Nat := 0
  isStmt : Bool
  discriminator : Nat := 0

namespace Row

def registers (r : Row) : Registers :=
  ⟨r.address, r.file, r.line, r.column, r.isStmt, r.discriminator⟩

def recorded (r : Row) : RecordedPosition :=
  (r.registers.address, r.registers.position)

/-- The rows by address; those at one address in the order in which they were added. -/
def sequence (rows : List Row) : LineSequence :=
  .ofList (rows.map recorded)

theorem sequence_concat (rows : List Row) (r : Row) :
    sequence (rows ++ [r]) = (sequence rows).add r.registers.address r.registers.position := by
  rw [sequence, List.map_append]
  exact LineSequence.ofList_concat _ _ _

end Row

structure Machine where
  directories : Nat → Option String
  files : Nat → Option String
  defaultIsStmt : Bool
  row : Row
  opened : List Row
  closed : List (List Row)

namespace Machine

def initial : Machine where
  directories _ := none
  files _ := none
  defaultIsStmt := true
  row := { file := none, isStmt := true }
  opened := []
  closed := []

def emit (m : Machine) : Machine :=
  { m with opened := m.opened ++ [m.row], row := { m.row with discriminator := 0 } }

def close (m : Machine) : Machine :=
  { m with
    opened := []
    closed := m.closed ++ [m.opened ++ [m.row]]
    row := { file := m.files 1, isStmt := m.defaultIsStmt } }

def execute (m : Machine) : Opcode → Machine
  | .setColumn column => { m with row := { m.row with column } }
  | .setAddress address => { m with row := { m.row with address } }
  | .advanceLine _ line => { m with row := { m.row with line } }
  | .special _ _ address _ line _ => emit { m with row := { m.row with address, line } }
  | .copy _ => m.emit
  | .setIsStmt flag => { m with row := { m.row with isStmt := flag != 0 } }
  | .advancePc _ _ address => { m with row := { m.row with address } }
  | .setDiscriminator _ discriminator => { m with row := { m.row with discriminator } }
  | .setFile index => { m with row := { m.row with file := m.files index } }
  | .endSequence _ => m.close

def path (m : Machine) (directory : Nat) (name : String) : String :=
  if directory = 0 then name
  else (m.directories directory).elim name fun parent => parent ++ "/" ++ name

def addFile (m : Machine) (index : Nat) (path : String) : Machine :=
  { m with
    files := Function.update m.files index (some path)
    row := if index = 1 then { m.row with file := some path } else m.row }

def step (m : Machine) : Item → Machine
  | .directoryRow index _ _ name =>
    { m with directories := Function.update m.directories index (some name) }
  | .fileRow index directory _ _ name => m.addFile index (m.path directory name)
  | .initialIsStmt digit =>
    { m with defaultIsStmt := digit.val != 0, row := { m.row with isStmt := digit.val != 0 } }
  | .statement _ op => m.execute op

def run (items : List Item) : Machine :=
  items.foldl step initial

end Machine

/-- Every file row needs the row of its directory before it, and every statement a file row. -/
def Item.Follows (earlier : List Item) : Item → Prop
  | .fileRow _ directory _ _ _ =>
    directory = 0 ∨ ∃ form offset name, .directoryRow directory form offset name ∈ earlier
  | .statement _ _ =>
    ∃ index directory form offset name, .fileRow index directory form offset name ∈ earlier
  | _ => True

def Item.isEnd : Item → Bool
  | .statement _ (.endSequence _) => true
  | _ => false

def PrintableAfter (earlier : List Item) : List Item → Prop
  | [] => True
  | item :: later =>
    item.Valid ∧ item.Follows earlier ∧ PrintableAfter (earlier ++ [item]) later

def Printable (items : List Item) : Prop :=
  PrintableAfter [] items

def Item.numbers : Item → List Nat
  | .directoryRow index _ _ _ => [index]
  | .fileRow index directory _ _ _ => [index, directory]
  | .initialIsStmt _ => []
  | .statement _ op => op.numbers

def Item.Readable (item : Item) : Prop :=
  ∀ n ∈ item.numbers, n < 10 ^ maxDigits

/-! ## Tables -/

namespace Machine

theorem run_concat (items : List Item) (item : Item) :
    run (items ++ [item]) = (run items).step item := by
  rw [run, List.foldl_concat, run]

/-- What one item brings about and no item undoes holds at the end. -/
theorem run_of_mem {P : Machine → Prop} {items : List Item} {item : Item} (hmem : item ∈ items)
    (hat : ∀ m, P (step m item)) (hkeep : ∀ m next, P m → P (step m next)) : P (run items) := by
  induction items using List.reverseRecOn with
  | nil => cases hmem
  | append_singleton items last ih =>
      rw [run_concat]
      rcases List.mem_append.1 hmem with hmem | hmem
      · exact hkeep _ last (ih hmem)
      · obtain rfl := List.mem_singleton.1 hmem
        exact hat _

theorem isSome_update {t : Nat → Option String} {k : Nat} (index : Nat) (name : String)
    (h : (t k).isSome = true) : (Function.update t index (some name) k).isSome = true := by
  by_cases hk : k = index
  · subst hk
    rw [Function.update_self, Option.isSome_some]
  · rwa [Function.update_of_ne hk]

theorem execute_directories (m : Machine) (op : Opcode) :
    (m.execute op).directories = m.directories := by
  cases op <;> rfl

theorem execute_files (m : Machine) (op : Opcode) : (m.execute op).files = m.files := by
  cases op <;> rfl

theorem isSome_directories_run {items : List Item} {index : Nat} {form : String} {offset : Nat}
    {name : String} (h : .directoryRow index form offset name ∈ items) :
    ((run items).directories index).isSome = true := by
  apply run_of_mem (P := fun m => (m.directories index).isSome = true) h
  · intro m
    simp [step]
  · intro m next hm
    cases next with
    | directoryRow other _ _ name => exact isSome_update other name hm
    | fileRow => exact hm
    | initialIsStmt => exact hm
    | statement _ op =>
        change ((m.execute op).directories index).isSome = true
        rwa [execute_directories]

theorem isSome_files_run {items : List Item} {index directory : Nat} {form : String} {offset : Nat}
    {name : String} (h : .fileRow index directory form offset name ∈ items) :
    ((run items).files index).isSome = true := by
  apply run_of_mem (P := fun m => (m.files index).isSome = true) h
  · intro m
    simp [step, addFile]
  · intro m next hm
    cases next with
    | directoryRow => exact hm
    | fileRow other _ _ _ _ => exact isSome_update other _ hm
    | initialIsStmt => exact hm
    | statement _ op =>
        change ((m.execute op).files index).isSome = true
        rwa [execute_files]

theorem length_closed_step (m : Machine) (item : Item) :
    (m.step item).closed.length = m.closed.length + if item.isEnd then 1 else 0 := by
  cases item with
  | statement offset op =>
      cases op with
      | endSequence number => simp [step, execute, close, Item.isEnd]
      | _ => rfl
  | _ => rfl

/-- Every end of a sequence closes one. -/
theorem length_closed_run (items : List Item) :
    (run items).closed.length = items.countP Item.isEnd := by
  induction items using List.reverseRecOn with
  | nil => rfl
  | append_singleton items last ih =>
      rw [run_concat, length_closed_step, ih, List.countP_append, List.countP_singleton]

end Machine

/-! ## Simulation -/

/-- The state of the reader stands for that of the machine. -/
structure Simulates (p : LineProgram) (m : Machine) : Prop where
  directories : ∀ k, Keyed.get? p.directories k = m.directories k
  files : ∀ k, Keyed.get? p.files k = m.files k
  defaultIsStmt : p.defaultIsStmt = m.defaultIsStmt
  registers : p.registers = m.row.registers
  rows : p.rows = Row.sequence m.opened
  sequences : p.sequences = m.closed.map Row.sequence
  unknownStatements : p.unknownStatements = []

theorem simulates_empty : Simulates empty .initial where
  directories _ := rfl
  files _ := rfl
  defaultIsStmt := rfl
  registers := rfl
  rows := rfl
  sequences := rfl
  unknownStatements := rfl

namespace Simulates

variable {p : LineProgram} {m : Machine} (h : Simulates p m)
include h

theorem setRegisters {registers : Registers} {row : Row} (hrow : registers = row.registers) :
    Simulates { p with registers } { m with row } :=
  { h with registers := hrow }

theorem emit : Simulates p.emit m.emit where
  directories := h.directories
  files := h.files
  defaultIsStmt := h.defaultIsStmt
  registers := by
    rw [LineProgram.emit, h.registers]
    rfl
  rows := by
    rw [Machine.emit, Row.sequence_concat, ← h.rows, ← h.registers]
    rfl
  sequences := h.sequences
  unknownStatements := h.unknownStatements

theorem close : Simulates p.close m.close where
  directories := h.directories
  files := h.files
  defaultIsStmt := h.defaultIsStmt
  registers := by
    have hfile : Keyed.get? p.files firstFile = m.files 1 := h.files 1
    change ({ file := Keyed.get? p.files firstFile, isStmt := p.defaultIsStmt } : Registers) = _
    rw [hfile, h.defaultIsStmt]
    rfl
  rows := rfl
  sequences := by
    have hlast : p.emit.rows = Row.sequence (m.opened ++ [m.row]) := h.emit.rows
    rw [Machine.close, List.map_append, ← h.sequences, List.map_singleton, ← hlast]
    rfl
  unknownStatements := h.unknownStatements

theorem execute (op : Opcode) : Simulates (p.execute op.statement) (m.execute op) := by
  cases op with
  | special number advance address increment line view =>
      apply Simulates.emit
      apply h.setRegisters
      rw [h.registers]
      rfl
  | copy view => exact h.emit
  | setFile index =>
      apply h.setRegisters
      rw [h.registers, h.files]
      rfl
  | endSequence number => exact h.close
  | _ =>
      apply h.setRegisters
      rw [h.registers]
      rfl

theorem path_eq {directory : Nat} (hknown : directory = 0 ∨ (m.directories directory).isSome = true)
    (name : String) : p.path directory name = m.path directory name := by
  rw [LineProgram.path, Machine.path]
  split
  · rfl
  · rename_i hzero
    obtain ⟨parent, hparent⟩ := Option.isSome_iff_exists.1 (hknown.resolve_left hzero)
    rw [directoryText, h.directories, hparent, Option.getD_some, Option.elim_some]

theorem addFile (index directory : Nat) {name : String}
    (hpath : p.path directory name = m.path directory name) :
    Simulates (p.addFile index directory name) (m.addFile index (m.path directory name)) where
  directories := h.directories
  files k := by
    change Keyed.get? (Keyed.put p.files index (p.path directory name)) k =
      Function.update m.files index (some (m.path directory name)) k
    rw [Keyed.put, Keyed.get?_alter, hpath, Function.update_apply, h.files]
  defaultIsStmt := h.defaultIsStmt
  registers := by
    rw [LineProgram.addFile, Machine.addFile, hpath, h.registers, firstFile]
    split <;> rfl
  rows := h.rows
  sequences := h.sequences
  unknownStatements := h.unknownStatements

theorem addDirectory (index : Nat) (name : String) :
    Simulates { p with directories := p.directories.put index name }
      { m with directories := Function.update m.directories index (some name) } := by
  refine { h with directories := ?_ }
  intro k
  change _ = Function.update m.directories index (some name) k
  rw [Keyed.put, Keyed.get?_alter, Function.update_apply, h.directories]

theorem setDefault (flag : Bool) :
    Simulates { p with defaultIsStmt := flag, registers := { p.registers with isStmt := flag } }
      { m with defaultIsStmt := flag, row := { m.row with isStmt := flag } } := by
  refine { h with defaultIsStmt := rfl, registers := ?_ }
  rw [h.registers]
  rfl

theorem step_statement (op : Opcode) (hfiles : ∃ k, (m.files k).isSome = true) :
    p.step (.statement op.text) =
      op.written.read.map fun s => (p.execute s, p.executionNotices s) := by
  have hlisted : p.files.isEmpty = false := by
    obtain ⟨k, hk⟩ := hfiles
    rw [← h.files, Option.isSome_iff_exists] at hk
    obtain ⟨path, hpath⟩ := hk
    exact List.isEmpty_eq_false_iff.2 (List.ne_nil_of_mem (Keyed.mem_of_get? hpath))
  rw [LineProgram.step, stepStatement, hlisted, op.ofText?_text]
  dsimp only
  cases op.written.read <;> rfl

end Simulates

section

variable {items : List Item} {p : LineProgram} (h : Simulates p (Machine.run items)) {item : Item}
  (hfollows : item.Follows items)
include h hfollows

/-- What the reader makes of a line is what the machine makes of its item. -/
theorem Simulates.step (hreadable : item.Readable) :
    ∃ q ns, p.step item.line = .ok (q, ns) ∧ Simulates q (Machine.run (items ++ [item])) := by
  have hread : ∀ n ∈ item.numbers, (Numeral.ofNat n).read = .ok n :=
    fun n hn => Numeral.read_ofNat_eq_ok (hreadable n hn)
  rw [Machine.run_concat]
  cases item with
  | directoryRow index form offset name =>
      rw [Item.line, LineProgram.step, hread index (List.mem_singleton_self _)]
      exact ⟨_, _, rfl, h.addDirectory index name⟩
  | fileRow index directory form offset name =>
      have hknown : directory = 0 ∨ ((Machine.run items).directories directory).isSome = true := by
        apply hfollows.imp_right
        rintro ⟨_, _, _, hmem⟩
        exact Machine.isSome_directories_run hmem
      rw [Item.line, LineProgram.step, hread index List.mem_cons_self,
        hread directory (List.mem_cons_of_mem _ List.mem_cons_self)]
      exact ⟨_, _, rfl, h.addFile index directory (h.path_eq hknown name)⟩
  | initialIsStmt digit => exact ⟨_, _, rfl, h.setDefault (digit.val != 0)⟩
  | statement offset op =>
      obtain ⟨k, _, _, _, _, hmem⟩ := hfollows
      rw [Item.line, h.step_statement op ⟨k, Machine.isSome_files_run hmem⟩,
        Opcode.read_written_eq_ok hreadable]
      exact ⟨_, _, rfl, h.execute op⟩

/-- The reader breaks off at the first number of an item that has too many digits. -/
theorem Simulates.step_eq_error (hnot : ¬ item.Readable) : ∃ n ∈ item.numbers, 10 ^ maxDigits ≤ n ∧
    p.step item.line = .error (.numeralTooLong (Nat.toDigits 10 n).length) := by
  obtain ⟨n, hn, hlong⟩ : ∃ n ∈ item.numbers, 10 ^ maxDigits ≤ n := by
    simpa [Item.Readable] using hnot
  cases item with
  | directoryRow index form offset name =>
      refine ⟨n, hn, hlong, ?_⟩
      rw [Item.line, LineProgram.step, ← List.mem_singleton.1 hn, Numeral.read_ofNat_eq_error hlong]
      rfl
  | fileRow index directory form offset name =>
      rw [Item.line, LineProgram.step]
      by_cases hindex : index < 10 ^ maxDigits
      · have hdirectory : n = directory := by
          rcases List.mem_cons.1 hn with rfl | hn
          · exact absurd hlong (Nat.not_le.2 hindex)
          · exact List.mem_singleton.1 hn
        refine ⟨n, hn, hlong, ?_⟩
        rw [Numeral.read_ofNat_eq_ok hindex, ← hdirectory, Numeral.read_ofNat_eq_error hlong]
        rfl
      · refine ⟨index, List.mem_cons_self, Nat.not_lt.1 hindex, ?_⟩
        rw [Numeral.read_ofNat_eq_error (Nat.not_lt.1 hindex)]
        rfl
  | initialIsStmt digit => cases hn
  | statement offset op =>
      obtain ⟨k, _, _, _, _, hmem⟩ := hfollows
      refine ⟨n, hn, hlong, ?_⟩
      rw [Item.line, h.step_statement op ⟨k, Machine.isSome_files_run hmem⟩,
        Opcode.read_written_eq_error hn hlong]
      rfl

end

theorem readLine_text (width : Nat) {item : Item} (hvalid : item.Valid) (p : LineProgram) :
    p.readLine (item.text width) = (p.step item.line).map some := by
  rw [readLine, Item.ofText?_text width hvalid]

/-! ## Reading a printed program -/

/-- Reading the rest of a program from a state that stands for the machine after its beginning. -/
theorem feed_simulates (width : Nat) {earlier later : List Item}
    (hprintable : PrintableAfter earlier later) (hreadable : ∀ item ∈ later, item.Readable)
    {p : LineProgram} (h : Simulates p (Machine.run earlier)) :
    ∃ r, (format.feed ⟨p, #[]⟩ (later.map (Item.text width))).outcome = .ok r ∧
      Simulates r.state (Machine.run (earlier ++ later)) ∧ r.unrecognized = #[] := by
  induction later generalizing earlier p with
  | nil => exact ⟨⟨p, #[]⟩, rfl, by rwa [List.append_nil], rfl⟩
  | cons item later ih =>
      obtain ⟨hvalid, hfollows, hlater⟩ := hprintable
      obtain ⟨hitem, hreadable⟩ := List.forall_mem_cons.1 hreadable
      obtain ⟨q, ns, hstep, hq⟩ := h.step hfollows hitem
      have hread : format.readLine p (item.text width) = .ok (some (q, ns)) := by
        rw [format_readLine, readLine_text width hvalid, hstep]
        rfl
      have hline : (format.feedLine ⟨p, #[]⟩ (item.text width)).outcome = .ok ⟨q, #[]⟩ := by
        rw [DumpFormat.feedLine, (Item.oneLine_text width hvalid).withoutLineEnd_eq, hread]
      obtain ⟨r, hfeed, hr⟩ := ih hlater hreadable hq
      rw [List.append_assoc, List.singleton_append] at hr
      refine ⟨r, ?_, hr⟩
      rw [List.map_cons, DumpFormat.feed_cons, Logged.outcome_bind_eq_ok_iff]
      exact ⟨⟨q, #[]⟩, hline, hfeed⟩

theorem printableAfter_append {earlier front later : List Item} :
    PrintableAfter earlier (front ++ later) ↔
      PrintableAfter earlier front ∧ PrintableAfter (earlier ++ front) later := by
  induction front generalizing earlier with
  | nil => simp [PrintableAfter]
  | cons item front ih => simp [PrintableAfter, ih, and_assoc]

/-- Where the items before one can be read and it cannot, reading ends with its fault. -/
theorem feed_breaksOff (width : Nat) {earlier later : List Item} {item : Item}
    (hprintable : Printable (earlier ++ item :: later)) (hreadable : ∀ i ∈ earlier, i.Readable)
    (hnot : ¬ item.Readable) : ∃ n ∈ item.numbers, 10 ^ maxDigits ≤ n ∧
      (format.read ((earlier ++ item :: later).map (Item.text width))).outcome =
        .error (.numeralTooLong (Nat.toDigits 10 n).length) := by
  obtain ⟨hearlier, hvalid, hfollows, -⟩ := printableAfter_append.1 hprintable
  obtain ⟨r, hfeed, hsimulates, hunderstood⟩ :=
    feed_simulates width hearlier hreadable simulates_empty
  obtain ⟨n, hn, hlong, hstep⟩ := hsimulates.step_eq_error hfollows hnot
  have hread : format.readLine r.state (withoutLineEnd (item.text width)) =
      .error (.numeralTooLong (Nat.toDigits 10 n).length) := by
    rw [(Item.oneLine_text width hvalid).withoutLineEnd_eq, format_readLine, readLine_text width hvalid, hstep]
    rfl
  refine ⟨n, hn, hlong, ?_⟩
  rw [List.map_append, List.map_cons]
  exact format.feed_eq_error_iff.2 ⟨_, _, _, r, rfl, hfeed, hread⟩

/-- Reading implements the machine on every program that is printed for it and has no number that is too long:
the sequences are those that the machine closed, one for each end of a sequence, the table of files is that of
the machine, and there is no line and no statement that is not understood. A number that is too long breaks
reading off, and nothing else does. -/
theorem read_printed (width : Nat) {items : List Item} (h : Printable items) :
    ((∀ item ∈ items, item.Readable) →
      ∃ r, (read (items.map (Item.text width))).outcome = .ok r ∧
        r.state.sequences = (Machine.run items).closed.map Row.sequence ∧
        r.state.sequences.length = items.countP Item.isEnd ∧
        (∀ k, Keyed.get? r.state.files k = (Machine.run items).files k) ∧
        r.unrecognized = #[] ∧ r.state.unknownStatements = []) ∧
    ∀ earlier item later, items = earlier ++ item :: later → (∀ i ∈ earlier, i.Readable) →
      ¬ item.Readable → ∃ n ∈ item.numbers, 10 ^ maxDigits ≤ n ∧
        (read (items.map (Item.text width))).outcome =
          .error (.numeralTooLong (Nat.toDigits 10 n).length) := by
  constructor
  · intro hreadable
    have hall : PrintableAfter [] items := h
    obtain ⟨r, hfeed, hsimulates, hunderstood⟩ := feed_simulates width hall hreadable simulates_empty
    rw [List.nil_append] at hsimulates
    refine ⟨{ r with state := r.state.finish }, ?_, hsimulates.sequences, ?_, hsimulates.files,
      hunderstood, hsimulates.unknownStatements⟩
    · rw [read, Logged.outcome_bind_eq_ok_iff]
      exact ⟨r, hfeed, rfl⟩
    · have hsequences : r.state.finish.sequences = _ := hsimulates.sequences
      rw [hsequences, List.length_map, Machine.length_closed_run]
  · rintro earlier item later rfl hreadable hnot
    obtain ⟨n, hn, hlong, hread⟩ := feed_breaksOff width h hreadable hnot
    refine ⟨n, hn, hlong, ?_⟩
    rw [read, Logged.outcome_bind, hread]
    rfl

/-- A program of one sequence with two rows; the file is in a directory of the table. -/
def oneSequence : List Item :=
  [.directoryRow 1 "line_string" 0x10 "/src", .fileRow 1 1 "line_string" 0x20 "main.c",
    .initialIsStmt ⟨1, by decide⟩, .statement 0x2a (.setColumn 5),
    .statement 0x2c (.setAddress 0x1136), .statement 0x37 (.special 15 0 0x1136 2 3 none),
    .statement 0x38 (.advancePc false 8 0x113e), .statement 0x3a (.endSequence 1)]

theorem printable_oneSequence : Printable oneSequence := by
  have hform : OneLine "line_string" := by decide
  have hdirectory : IsName "/src" := .of_no_blanks (by simp [isBlank])
  have hfile : IsName "main.c" := .of_no_blanks (by simp [isBlank])
  have hstatement : ∀ earlier offset op, .fileRow 1 1 "line_string" 0x20 "main.c" ∈ earlier →
      Item.Follows earlier (.statement offset op) :=
    fun _ _ _ hmem => ⟨1, 1, "line_string", 0x20, "main.c", hmem⟩
  refine ⟨⟨hform, hdirectory⟩, trivial, ⟨hform, hfile⟩,
    .inr ⟨_, _, _, List.mem_singleton_self _⟩, trivial, trivial, ?_⟩
  refine ⟨trivial, hstatement _ _ _ ?_, trivial, hstatement _ _ _ ?_, trivial, hstatement _ _ _ ?_,
    trivial, hstatement _ _ _ ?_, trivial, hstatement _ _ _ ?_, trivial⟩
  all_goals simp

theorem readable_oneSequence : ∀ item ∈ oneSequence, item.Readable := by
  have hsmall : ∀ item ∈ oneSequence, ∀ n ∈ item.numbers, n ≤ maxDigits := by decide
  intro item hitem n hn
  exact (Nat.lt_pow_self (by decide)).trans_le
    (Nat.pow_le_pow_right (by decide) (hsmall item hitem n hn))

def longColumn : Item :=
  .statement 0x3c (.setColumn (10 ^ maxDigits))

theorem printable_longColumn : Printable (oneSequence ++ [longColumn]) :=
  printableAfter_append.2 ⟨printable_oneSequence, trivial,
    ⟨1, 1, "line_string", 0x20, "main.c", by simp [oneSequence]⟩, trivial⟩

theorem read_printed_oneSequence : Printable oneSequence ∧
    (∃ r, (read (oneSequence.map (Item.text 8))).outcome = .ok r ∧
      r.state.sequences = [.ofList [(0x1136, ⟨some "/src/main.c", 3, 5, true, 0⟩),
        (0x113e, ⟨some "/src/main.c", 3, 5, true, 0⟩)]] ∧
      Keyed.get? r.state.files 1 = some "/src/main.c") ∧
    ∃ n, (read ((oneSequence ++ [longColumn]).map (Item.text 8))).outcome =
      .error (.numeralTooLong n) := by
  obtain ⟨r, hread, hsequences, -, hfiles, -, -⟩ :=
    (read_printed 8 printable_oneSequence).1 readable_oneSequence
  have hpath : "/src" ++ "/" ++ "main.c" = "/src/main.c" := by decide
  have hlong : ¬ longColumn.Readable := fun h => Nat.lt_irrefl _ (h _ (List.mem_singleton_self _))
  obtain ⟨n, -, -, herror⟩ :=
    (read_printed 8 printable_longColumn).2 oneSequence longColumn [] rfl readable_oneSequence hlong
  refine ⟨printable_oneSequence, ⟨r, hread, hsequences.trans ?_, (hfiles 1).trans ?_⟩, _, herror⟩
  · rw [← hpath]
    rfl
  · rw [← hpath]
    rfl

end LineAtlas.LineProgram
