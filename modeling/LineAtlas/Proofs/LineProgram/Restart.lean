import LineAtlas.Proofs.LineProgram

/-!
# Starting anew

Between two sequences the machine is as if it had carried out nothing: whatever rows and flags come
there, its registers are those at the start of a sequence. So what a dump makes of the lines that
follow depends on what came before only through the tables, and what was closed before stays as it is.
-/

namespace LineAtlas.LineProgram

open Text

def carriedOut? (rawLine : String) : Option (Statement Nat) :=
  match Line.ofText? (withoutLineEnd rawLine) with
  | some (.statement text) => Statement.carriedOut? text
  | _ => none

/-- Nothing has been carried out since the first line, or since the last end of a sequence. -/
def BetweenSequences (lines : List String) : Prop :=
  ∀ s ∈ (lines.filterMap carriedOut?).getLast?, s = .endSequence

instance (lines : List String) : Decidable (BetweenSequences lines) :=
  inferInstanceAs (Decidable (∀ s ∈ (lines.filterMap carriedOut?).getLast?, s = .endSequence))

theorem carriedOut?_statement {rawLine text : String}
    (h : Line.ofText? (withoutLineEnd rawLine) = some (.statement text)) :
    carriedOut? rawLine = Statement.carriedOut? text := by
  rw [carriedOut?, h]

/-! ## The start of a sequence -/

structure AtStart (p : LineProgram) : Prop where
  registers : p.registers = p.initialRegisters
  rows : p.rows = .empty

theorem atStart_empty : AtStart empty :=
  ⟨rfl, rfl⟩

theorem atStart_close (p : LineProgram) : AtStart p.close :=
  ⟨rfl, rfl⟩

namespace AtStart

variable {p : LineProgram} (h : AtStart p)
include h

/-- A new first file goes to the registers as well as to the table. -/
theorem addFile (index directory : Nat) (name : String) : AtStart (p.addFile index directory name) := by
  refine ⟨?_, h.rows⟩
  rw [LineProgram.addFile, initialRegisters, h.registers]
  by_cases hfirst : index = firstFile
  · simp [hfirst, initialRegisters, Keyed.put, Keyed.get?_alter]
  · simp [hfirst, Ne.symm hfirst, initialRegisters, Keyed.put, Keyed.get?_alter]

theorem setDefault (flag : Bool) :
    AtStart { p with defaultIsStmt := flag, registers := { p.registers with isStmt := flag } } := by
  refine ⟨?_, h.rows⟩
  rw [h.registers]
  rfl

/-- Every line but a statement that is carried out leaves the machine at the start. -/
theorem step {line : Line} {q : LineProgram} {ns : List Notice} (hstep : p.step line = .ok (q, ns))
    (hidle : ∀ text, line = .statement text → Statement.carriedOut? text = none) : AtStart q := by
  cases line with
  | statement text =>
      rcases step_statement_cases hstep with ⟨s, hs, -⟩ | ⟨-, rfl⟩
      · rw [hidle text rfl] at hs
        cases hs
      · exact ⟨h.registers, h.rows⟩
  | fileRow index directory name =>
      obtain ⟨i, d, -, -, rfl⟩ := step_fileRow_eq_ok hstep
      exact h.addFile i d name
  | directoryRow index name =>
      obtain ⟨i, -, rfl⟩ := step_directoryRow_eq_ok hstep
      exact ⟨h.registers, h.rows⟩
  | initialIsStmt flag =>
      cases hstep
      exact h.setDefault flag
  | heading =>
      cases hstep
      exact h

end AtStart

theorem atStart_of_step_endSequence {p q : LineProgram} {text : String} {ns : List Notice}
    (hstep : p.step (.statement text) = .ok (q, ns))
    (hend : Statement.carriedOut? text = some .endSequence) : AtStart q := by
  rcases step_statement_cases hstep with ⟨s, hs, rfl⟩ | ⟨hs, -⟩
  · rw [hend] at hs
    cases hs
    exact atStart_close p
  · rw [Statement.carriedOut?_eq_none hs] at hend
    cases hend

/-- A line after which the machine is at the start: it ends a sequence, or it carries nothing out and
finds the machine at the start. -/
theorem atStart_feedLine {r r' : Reading LineProgram} {rawLine : String}
    (hfeed : (format.feedLine r rawLine).outcome = .ok r')
    (hbefore : carriedOut? rawLine = none → AtStart r.state)
    (hend : ∀ s ∈ carriedOut? rawLine, s = .endSequence) : AtStart r'.state := by
  rcases format.feedLine_cases hfeed with ⟨q, ns, hread, rfl⟩ | ⟨hread, rfl⟩
  · rw [format_readLine] at hread
    obtain ⟨line, hline, hstep⟩ := r.state.readLine_eq_some hread
    cases hout : carriedOut? rawLine with
    | none =>
        apply (hbefore hout).step hstep
        rintro text rfl
        exact (carriedOut?_statement hline).symm.trans hout
    | some s =>
        obtain rfl := hend s hout
        rw [carriedOut?, hline] at hout
        cases line with
        | statement text => exact atStart_of_step_endSequence hstep hout
        | _ => cases hout
  · rw [format_readLine] at hread
    apply hbefore
    rw [carriedOut?, r.state.readLine_eq_none hread]

/-- Between two sequences the machine is at the start of one. -/
theorem atStart_of_betweenSequences {lines : List String} {r : Reading LineProgram}
    (hread : (format.read lines).outcome = .ok r) (h : BetweenSequences lines) : AtStart r.state := by
  induction lines using List.reverseRecOn generalizing r with
  | nil =>
      cases hread
      exact atStart_empty
  | append_singleton lines rawLine ih =>
      obtain ⟨r₁, hlines, hline⟩ := format.read_concat hread
      rw [BetweenSequences, List.filterMap_append] at h
      apply atStart_feedLine hline
      · intro hidle
        apply ih hlines
        simpa [BetweenSequences, List.filterMap_cons, hidle] using h
      · intro s hs
        rw [Option.mem_def] at hs
        apply h
        simp [hs]

/-! ## What was read before -/

/-- The state `q` with what had been closed and not understood in `p` before. -/
def after (q p : LineProgram) : LineProgram :=
  { q with
    sequences := p.sequences ++ q.sequences
    unknownStatements := p.unknownStatements ++ q.unknownStatements }

def forgetful (p : LineProgram) : LineProgram :=
  { p with sequences := [], unknownStatements := [] }

theorem forgetful_after (p : LineProgram) : p.forgetful.after p = p := by
  simp [after, forgetful]

def fresh (p : LineProgram) : LineProgram :=
  { empty with
    directories := p.directories
    files := p.files
    defaultIsStmt := p.defaultIsStmt
    registers := p.initialRegisters }

theorem AtStart.forgetful_eq {p : LineProgram} (h : AtStart p) : p.forgetful = p.fresh := by
  rw [forgetful, h.registers, h.rows]
  rfl

theorem close_after (q p : LineProgram) : (q.after p).close = q.close.after p := by
  simp [close, after, emit, initialRegisters]

theorem execute_after (q p : LineProgram) (s : Statement Nat) :
    (q.after p).execute s = (q.execute s).after p := by
  cases s with
  | endSequence => exact close_after q p
  | _ => rfl

/-- What was read before changes no line's effect, and only that what a line closes is counted from
there. -/
theorem step_after (q p : LineProgram) (line : Line) :
    ((q.after p).step line).map Prod.fst = ((q.step line).map Prod.fst).map (after · p) := by
  cases line with
  | statement text =>
      have hfiles : (q.after p).files = q.files := rfl
      simp only [step, stepStatement, hfiles]
      split
      · rfl
      · cases Statement.ofText? text with
        | some written =>
            dsimp only
            cases written.read with
            | error f => rfl
            | ok s => exact congrArg Except.ok (execute_after q p s)
        | none => simp [Except.map, after]
  | fileRow index directory name =>
      simp only [step]
      cases index.read with
      | error f => rfl
      | ok i => cases directory.read <;> rfl
  | directoryRow index name =>
      simp only [step]
      cases index.read <;> rfl
  | _ => rfl

theorem readLine_after (q p : LineProgram) (text : String) :
    ((q.after p).readLine text).map (Option.map Prod.fst) =
      ((q.readLine text).map (Option.map Prod.fst)).map (Option.map (after · p)) := by
  simp only [readLine]
  cases Line.ofText? text with
  | none => rfl
  | some line =>
      have hstep := step_after q p line
      cases hq : q.step line <;> cases hqp : (q.after p).step line <;>
        simp_all [Except.map]

def readAfter (b a : Reading LineProgram) : Reading LineProgram :=
  ⟨b.state.after a.state, a.unrecognized ++ b.unrecognized⟩

theorem feedLine_after (b a : Reading LineProgram) (rawLine : String) :
    (format.feedLine (readAfter b a) rawLine).outcome =
      (format.feedLine b rawLine).outcome.map (readAfter · a) := by
  have hread := readLine_after b.state a.state (withoutLineEnd rawLine)
  simp only [DumpFormat.feedLine, format_readLine, readAfter]
  rcases hb : b.state.readLine (withoutLineEnd rawLine) with f | _ | ⟨q, ns⟩ <;>
    rcases hba : (b.state.after a.state).readLine (withoutLineEnd rawLine) with f | _ | ⟨q, ns⟩ <;>
    simp_all [Except.map, Logged.fail]

theorem feed_after (b a : Reading LineProgram) (lines : List String) :
    (format.feed (readAfter b a) lines).outcome =
      (format.feed b lines).outcome.map (readAfter · a) := by
  induction lines generalizing b with
  | nil => rfl
  | cons rawLine lines ih =>
      rw [DumpFormat.feed_cons, DumpFormat.feed_cons, Logged.outcome_bind, Logged.outcome_bind,
        feedLine_after]
      cases (format.feedLine b rawLine).outcome with
      | error f => rfl
      | ok b' => exact ih b'

theorem exists_feed_forgetful {a r : Reading LineProgram} {lines : List String}
    (h : (format.feed a lines).outcome = .ok r) :
    ∃ b, (format.feed ⟨a.state.forgetful, #[]⟩ lines).outcome = .ok b ∧ r = readAfter b a := by
  have ha : readAfter ⟨a.state.forgetful, #[]⟩ a = a := by
    rw [readAfter, forgetful_after, Array.append_empty]
  rw [← ha, feed_after] at h
  cases hb : (format.feed ⟨a.state.forgetful, #[]⟩ lines).outcome with
  | error f =>
      rw [hb] at h
      cases h
  | ok b =>
      rw [hb] at h
      cases h
      exact ⟨b, rfl, rfl⟩

/-- Sequences do not touch each other. Those that some lines close are kept, whatever lines follow, also
when these overwrite the tables. Between two sequences the machine is at the start of one, and the
lines that follow give what they give to a machine that knows the tables and the default and nothing
else. -/
theorem read_append {earlier later : List String} {r : Reading LineProgram}
    (h : (read (earlier ++ later)).outcome = .ok r) :
    ∃ a, (format.read earlier).outcome = .ok a ∧
      (read earlier).outcome = .ok { a with state := a.state.finish } ∧
      a.state.sequences <+: r.state.sequences ∧
      (BetweenSequences earlier →
        a.state.registers = a.state.initialRegisters ∧ a.state.rows = .empty ∧
        ∃ b, (format.feed ⟨a.state.fresh, #[]⟩ later).outcome = .ok b ∧
          r.state.sequences = a.state.sequences ++ b.state.sequences ∧
          r.state.files = b.state.files) := by
  rw [read, Logged.outcome_bind_eq_ok_iff] at h
  obtain ⟨r', hread, h⟩ := h
  cases h
  rw [DumpFormat.read, DumpFormat.feed_append, Logged.outcome_bind_eq_ok_iff] at hread
  obtain ⟨a, hearlier, hlater⟩ := hread
  obtain ⟨b, hb, rfl⟩ := exists_feed_forgetful hlater
  refine ⟨a, hearlier, ?_, List.prefix_append _ _, ?_⟩
  · rw [read, Logged.outcome_bind_eq_ok_iff]
    exact ⟨a, hearlier, rfl⟩
  · intro hbetween
    have hstart := atStart_of_betweenSequences hearlier hbetween
    rw [hstart.forgetful_eq] at hb
    exact ⟨hstart.registers, hstart.rows, b, hb, rfl, rfl⟩

/-- Two units. The rows of the second come after the end of the only sequence of the first, and give a
new first file and a new default. -/
def firstUnit : List String :=
  ["  1\t0\t(line_strp)\t(offset: 0x1): a.c", "  [0x1]  Set column to 5",
    "  [0x2]  Extended opcode 1: End of Sequence", "  Initial value of 'is_stmt':  0",
    "  1\t0\t(line_strp)\t(offset: 0x5): b.c"]

def secondUnit : List String :=
  ["  [0x3]  Extended opcode 1: End of Sequence"]

theorem read_append_twoUnits :
    let first : LineSequence := .ofList [(0, ⟨some "a.c", 1, 5, true, 0⟩)]
    let second : LineSequence := .ofList [(0, ⟨some "b.c", 1, 0, false, 0⟩)]
    ∃ r, (read (firstUnit ++ secondUnit)).outcome = .ok r ∧ BetweenSequences firstUnit ∧
      r.state.sequences = [first, second] ∧
      ∃ a b, (format.read firstUnit).outcome = .ok a ∧
        (format.feed ⟨a.state.fresh, #[]⟩ secondUnit).outcome = .ok b ∧
        r.state.sequences = a.state.sequences ++ b.state.sequences := by
  intro first second
  have hcomputed : (read (firstUnit ++ secondUnit)).outcome.toOption.map (·.state.sequences) =
      some [first, second] := by
    decide +kernel
  have hbetween : BetweenSequences firstUnit := by
    decide +kernel
  obtain ⟨r, hr, hsequences⟩ := Logged.exists_outcome_eq_ok hcomputed
  obtain ⟨a, ha, -, -, hstart⟩ := read_append hr
  obtain ⟨-, -, b, hb, happend, -⟩ := hstart hbetween
  exact ⟨r, hr, hbetween, hsequences, a, b, ha, hb, happend⟩

end LineAtlas.LineProgram
