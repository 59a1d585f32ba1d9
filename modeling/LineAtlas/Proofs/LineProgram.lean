import LineAtlas.LineProgram
import LineAtlas.Proofs.LineSequence
import LineAtlas.Proofs.Traversal

/-!
# What a line program records

A log of a run holds every recorded position with its address, in the order in which the machine
recorded them, and closes a part at each end of sequence. The machine itself keeps positions by
address: each of its sequences is that of a part of the log.
-/

namespace LineAtlas.LineProgram

open Text

abbrev RecordedPosition := Int × SourcePosition

/-- What a text makes the machine do, if it is a statement whose number can be read. -/
def Statement.carriedOut? (text : String) : Option (Statement Nat) :=
  (Statement.ofText? text).bind fun s => s.read.toOption

theorem Statement.carriedOut?_eq_some_iff {text : String} {s : Statement Nat} :
    carriedOut? text = some s ↔ ∃ written, ofText? text = some written ∧ written.read = .ok s := by
  simp only [carriedOut?, Option.bind_eq_some_iff]
  refine exists_congr fun written => and_congr_right fun _ => ?_
  cases written.read <;> simp [Except.toOption]

theorem Statement.carriedOut?_eq_none {text : String} (h : ofText? text = none) :
    carriedOut? text = none := by
  rw [carriedOut?, h, Option.bind_none]

def recordedBy? (p : LineProgram) : Statement Nat → Option RecordedPosition
  | .special address line => some (address, { p.registers with address, line }.position)
  | .copy | .endSequence => some (p.registers.address, p.registers.position)
  | _ => none

structure RecordLog where
  closed : List (List RecordedPosition)
  opened : List RecordedPosition

namespace RecordLog

def empty : RecordLog :=
  ⟨[], []⟩

def add (e : RecordLog) (row : RecordedPosition) : RecordLog :=
  ⟨e.closed, e.opened ++ [row]⟩

def close (e : RecordLog) : RecordLog :=
  ⟨e.closed ++ [e.opened], []⟩

end RecordLog

def logStatement (p : LineProgram) (e : RecordLog) (s : Statement Nat) : RecordLog :=
  let e := (p.recordedBy? s).elim e e.add
  if s = .endSequence then e.close else e

def logLine (p : LineProgram) (e : RecordLog) : Line → RecordLog
  | .statement text => (Statement.carriedOut? text).elim e (p.logStatement e)
  | _ => e

def readLogging (m : LineProgram × RecordLog) (rawLine : String) : LineProgram × RecordLog :=
  (Line.ofText? (Text.withoutLineEnd rawLine)).elim m fun line =>
    match m.1.step line with
    | .ok (p, _) => (p, m.1.logLine m.2 line)
    | .error _ => m

/-- What the lines of a dump make the machine record, by sequence. -/
def recordedSequences (lines : List String) : List (List RecordedPosition) :=
  (lines.foldl readLogging (empty, .empty)).2.closed

theorem format_readLine : format.readLine = readLine := rfl

theorem readLine_eq_some (p : LineProgram) {text : String} {q : LineProgram} {ns : List Notice}
    (h : p.readLine text = .ok (some (q, ns))) :
    ∃ line, Line.ofText? text = some line ∧ p.step line = .ok (q, ns) := by
  rw [readLine] at h
  split at h
  · cases h
  · rename_i line hline
    cases hstep : p.step line with
    | error f =>
        rw [hstep] at h
        cases h
    | ok result =>
        rw [hstep] at h
        cases h
        exact ⟨line, hline, hstep⟩

theorem readLine_eq_none (p : LineProgram) {text : String} (h : p.readLine text = .ok none) :
    Line.ofText? text = none := by
  rw [readLine] at h
  split at h
  · assumption
  · rename_i line _
    cases hstep : p.step line <;> rw [hstep] at h <;> cases h

/-- A statement that is no fault is carried out, or it is one that the machine does not know. -/
theorem step_statement_cases {p q : LineProgram} {text : String} {ns : List Notice}
    (h : p.step (.statement text) = .ok (q, ns)) :
    (∃ s, Statement.carriedOut? text = some s ∧ q = p.execute s) ∨
      Statement.ofText? text = none ∧
        q = { p with unknownStatements := p.unknownStatements ++ [text] } := by
  rw [step, stepStatement] at h
  split at h
  · cases h
  · split at h
    · rename_i written hwritten
      obtain ⟨s, hread, h⟩ := Except.bind_eq_ok_iff.1 h
      cases h
      exact .inl ⟨s, Statement.carriedOut?_eq_some_iff.2 ⟨written, hwritten, hread⟩, rfl⟩
    · rename_i hs
      cases h
      exact .inr ⟨hs, rfl⟩

theorem step_fileRow_eq_ok {p q : LineProgram} {index directory : Numeral} {name : String}
    {ns : List Notice} (h : p.step (.fileRow index directory name) = .ok (q, ns)) :
    ∃ i d, index.read = .ok i ∧ directory.read = .ok d ∧ q = p.addFile i d name := by
  obtain ⟨i, hi, h⟩ := Except.bind_eq_ok_iff.1 h
  obtain ⟨d, hd, h⟩ := Except.bind_eq_ok_iff.1 h
  cases h
  exact ⟨i, d, hi, hd, rfl⟩

theorem step_directoryRow_eq_ok {p q : LineProgram} {index : Numeral} {name : String}
    {ns : List Notice} (h : p.step (.directoryRow index name) = .ok (q, ns)) :
    ∃ i, index.read = .ok i ∧ q = { p with directories := p.directories.put i name } := by
  obtain ⟨i, hi, h⟩ := Except.bind_eq_ok_iff.1 h
  cases h
  exact ⟨i, hi, rfl⟩

structure Logs (p : LineProgram) (e : RecordLog) : Prop where
  sequences : p.sequences = e.closed.map .ofList
  rows : p.rows = .ofList e.opened

theorem logs_empty : Logs empty .empty :=
  ⟨rfl, rfl⟩

namespace Logs

variable {p : LineProgram} {e : RecordLog}

theorem of_eq (h : Logs p e) {q : LineProgram} (hsequences : q.sequences = p.sequences)
    (hrows : q.rows = p.rows) : Logs q e :=
  ⟨hsequences.trans h.sequences, hrows.trans h.rows⟩

theorem emit (h : Logs p e) : Logs p.emit (e.add (p.registers.address, p.registers.position)) := by
  refine ⟨h.sequences, ?_⟩
  rw [RecordLog.add, LineSequence.ofList_concat, ← h.rows]
  rfl

theorem close (h : Logs p e) :
    Logs p.close (e.add (p.registers.address, p.registers.position)).close := by
  refine ⟨?_, rfl⟩
  rw [RecordLog.close, List.map_append, ← h.emit.sequences, List.map_singleton, ← h.emit.rows]
  rfl

theorem execute (h : Logs p e) (s : Statement Nat) : Logs (p.execute s) (p.logStatement e s) := by
  cases s with
  | special address line =>
      have hset : Logs { p with registers := { p.registers with address, line } } e :=
        h.of_eq rfl rfl
      exact hset.emit
  | copy => exact h.emit
  | endSequence => exact h.close
  | _ => exact h.of_eq rfl rfl

theorem step (h : Logs p e) {line : Line} {q : LineProgram} {ns : List Notice}
    (hstep : p.step line = .ok (q, ns)) : Logs q (p.logLine e line) := by
  cases line with
  | statement text =>
      rw [logLine]
      rcases step_statement_cases hstep with ⟨s, hs, rfl⟩ | ⟨hs, rfl⟩
      · rw [hs]
        exact h.execute s
      · rw [Statement.carriedOut?_eq_none hs]
        exact h.of_eq rfl rfl
  | fileRow index directory name =>
      obtain ⟨i, d, -, -, rfl⟩ := step_fileRow_eq_ok hstep
      exact h.of_eq rfl rfl
  | directoryRow index name =>
      obtain ⟨i, -, rfl⟩ := step_directoryRow_eq_ok hstep
      exact h.of_eq rfl rfl
  | _ =>
      cases hstep
      exact h.of_eq rfl rfl

theorem feedLine (h : Logs p e) {unrecognized : Array String} {rawLine : String}
    {r : Reading LineProgram} (hfeed : (format.feedLine ⟨p, unrecognized⟩ rawLine).outcome = .ok r) :
    ∃ e', readLogging (p, e) rawLine = (r.state, e') ∧ Logs r.state e' := by
  rw [readLogging]
  rcases format.feedLine_cases hfeed with ⟨q, ns, hread, rfl⟩ | ⟨hread, rfl⟩
  · rw [format_readLine] at hread
    obtain ⟨line, hline, hstep⟩ := p.readLine_eq_some hread
    rw [hline, Option.elim_some, hstep]
    exact ⟨_, rfl, h.step hstep⟩
  · rw [format_readLine] at hread
    rw [p.readLine_eq_none hread]
    exact ⟨e, rfl, h⟩

theorem feed (h : Logs p e) {lines : List String} {unrecognized : Array String}
    {r : Reading LineProgram} (hfeed : (format.feed ⟨p, unrecognized⟩ lines).outcome = .ok r) :
    ∃ e', lines.foldl readLogging (p, e) = (r.state, e') ∧ Logs r.state e' := by
  induction lines generalizing p e unrecognized with
  | nil =>
      cases hfeed
      exact ⟨e, rfl, h⟩
  | cons rawLine lines ih =>
      rw [DumpFormat.feed_cons, Logged.outcome_bind_eq_ok_iff] at hfeed
      obtain ⟨r', hline, hlines⟩ := hfeed
      obtain ⟨e', hlog, h'⟩ := h.feedLine hline
      rw [List.foldl_cons, hlog]
      exact ih h' hlines

end Logs

/-- The sequences read from a dump hold what its lines made the machine record, part by part and in
the order of the log. -/
theorem sequences_of_read {lines : List String} {r : Reading LineProgram}
    (h : (read lines).outcome = .ok r) :
    r.state.sequences = (recordedSequences lines).map .ofList := by
  rw [read, Logged.outcome_bind_eq_ok_iff] at h
  obtain ⟨r', hread, h⟩ := h
  cases h
  obtain ⟨e, hlog, h⟩ := logs_empty.feed hread
  rw [recordedSequences, hlog]
  exact h.sequences

end LineAtlas.LineProgram
