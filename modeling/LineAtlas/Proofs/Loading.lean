import LineAtlas.Loading
import LineAtlas.Proofs.Loading.Pool
import LineAtlas.Proofs.Lookup
import LineAtlas.Proofs.Matching.Evidence
import LineAtlas.Proofs.Text.Lines

/-!
# Loading in a pool

The four dumps of an object are taken and read in a pool of workers. However many workers there are and
whichever dump is finished first, the answer is the one that loading gives when the dumps are taken one
after the other.
-/

namespace LineAtlas.Loading

open Text

abbrev Content : DumpKind → Type
  | .code => Listing
  | .symbols => SymbolTable
  | .info => DebugInfo
  | .lines => LineProgram

def reader : (k : DumpKind) → List String → Logged (Reading (Content k))
  | .code => Listing.read
  | .symbols => SymbolTable.read
  | .info => DebugInfo.read
  | .lines => LineProgram.read

def work (program path : String) (runs : ToolRuns) (k : DumpKind) : Except Fault (Content k) :=
  (readDump program path k (runs k) (reader k)).outcome

def workersFor (jobs : Int) : Nat :=
  (max 1 jobs).toNat

/-- The answer given when a pool is done: the fault met, or what the four results make up. -/
inductive Answers (s : Pool DumpKind Content) (compilationDirectory : Option String) (path : String) :
    Except Fault Snapshot → Prop
  | failed {f} (hfault : s.fault = some f) : Answers s compilationDirectory path (.error f)
  | assembled {listing symbols info lines} (hfault : s.fault = none)
    (hcode : s.received .code = some listing) (hsymbols : s.received .symbols = some symbols)
    (hinfo : s.received .info = some info) (hlines : s.received .lines = some lines) :
    Answers s compilationDirectory path
      (Snapshot.assemble listing symbols info.nodes lines compilationDirectory (some path)).outcome

/-- Loading by a number of jobs may end with this answer after these commands. -/
inductive Loads (jobs : Int) (inspection : Inspection) (program path : String) (runs : ToolRuns) :
    Except Fault Snapshot → List (List String) → Prop
  | rejected {f} (hinspection : inspection = .error f) :
    Loads jobs inspection program path runs (.error f) []
  | ended {compilationDirectory s answer} (hinspection : inspection = .ok compilationDirectory)
    (hreaches : Pool.Reaches (workersFor jobs) (work program path runs) (.start DumpKind.all) s)
    (hdone : s.Done) (hanswer : Answers s compilationDirectory path answer) :
    Loads jobs inspection program path runs answer
      (s.takenUp.map fun k => DumpTool.command program path k.arguments)

def commandText (program path : String) (k : DumpKind) : String :=
  " ".intercalate (DumpTool.command program path k.arguments)

def Printed (run : ToolRun) (lines : List String) : Prop :=
  ∃ output complaint, run = .ended 0 output complaint ∧ IsLinesOf output lines

/-- Why a dump is not known: its run failed, or its lines are at fault. -/
inductive Fails (program path : String) (runs : ToolRuns) (k : DumpKind) : Fault → Prop
  | notStarted {reason : String} (hrun : runs k = .notStarted reason) :
    Fails program path runs k (.commandNotRun (commandText program path k) reason)
  | undecodable (hrun : runs k = .undecodable) :
    Fails program path runs k (.undecodableOutput (commandText program path k))
  | status {status : Int} {output complaint : String} (hrun : runs k = .ended status output complaint)
    (hstatus : status ≠ 0) : Fails program path runs k
      (.commandFailed (commandText program path k) status (String.ofList (trim complaint.toList)))
  | lines {lines : List String} {f : Fault} (hprinted : Printed (runs k) lines)
    (hread : (reader k lines).outcome = .error f) : Fails program path runs k f

/-- The first dump of those that are not known is so for this reason. -/
def FirstFails (program path : String) (runs : ToolRuns) (f : Fault) : Prop :=
  ∃ earlier k later, DumpKind.all = earlier ++ k :: later ∧ Fails program path runs k f ∧
    ∀ j ∈ earlier, ∀ g, ¬ Fails program path runs j g

def dumpOf (d : Snapshot.Dumps) : DumpKind → List String
  | .code => d.code
  | .symbols => d.symbols
  | .info => d.info
  | .lines => d.lines

/-! ## One dump -/

section

variable {program path : String} {runs : ToolRuns} {k : DumpKind}

theorem work_eq (program path : String) (runs : ToolRuns) (k : DumpKind) :
    work program path runs k = (do
      let lines ← (DumpTool.dump program path k.arguments (runs k)).outcome
      let r ← (reader k lines).outcome
      return r.state) := by
  rw [work, readDump, Logged.outcome_bind]
  congr 1
  funext lines
  rw [Logged.outcome_bind]
  congr 1
  funext r
  split <;> rfl

theorem work_eq_error_iff {f : Fault} :
    work program path runs k = .error f ↔ Fails program path runs k f := by
  rw [work_eq]
  constructor
  · intro h
    cases hrun : runs k with
    | notStarted reason =>
        rw [hrun] at h
        cases h
        exact .notStarted hrun
    | undecodable =>
        rw [hrun] at h
        cases h
        exact .undecodable hrun
    | ended status output complaint =>
        rw [hrun, DumpTool.outcome_dump_ended] at h
        split at h
        · rename_i hstatus
          subst hstatus
          refine .lines ⟨output, complaint, hrun, isLinesOf_iff.2 rfl⟩ ?_
          rcases Except.bind_eq_error_iff.1 (Except.ok_bind .. ▸ h) with hread | ⟨r, -, hread⟩
          · exact hread
          · cases hread
        · rename_i hstatus
          cases h
          exact .status hrun hstatus
  · rintro (hrun | hrun | ⟨hrun, hstatus⟩ | ⟨⟨output, complaint, hrun, hlines⟩, hread⟩)
    · rw [hrun]
      rfl
    · rw [hrun]
      rfl
    · rw [hrun, DumpTool.outcome_dump_ended, if_neg hstatus]
      rfl
    · obtain rfl := isLinesOf_iff.1 hlines
      rw [hrun, DumpTool.outcome_dump_ended, if_pos rfl, Except.ok_bind, hread]
      rfl

/-- A dump that is known was read from the lines that its run printed. -/
theorem work_eq_ok_iff {content : Content k} : work program path runs k = .ok content ↔
    ∃ lines r, Printed (runs k) lines ∧ (reader k lines).outcome = .ok r ∧ r.state = content := by
  rw [work_eq]
  constructor
  · intro h
    cases hrun : runs k with
    | notStarted reason =>
        rw [hrun] at h
        cases h
    | undecodable =>
        rw [hrun] at h
        cases h
    | ended status output complaint =>
        rw [hrun, DumpTool.outcome_dump_ended] at h
        split at h
        · rename_i hstatus
          subst hstatus
          obtain ⟨r, hread, heq⟩ := Except.bind_eq_ok_iff.1 (Except.ok_bind .. ▸ h)
          cases heq
          exact ⟨linesOf output, r, ⟨output, complaint, rfl, isLinesOf_iff.2 rfl⟩, hread, rfl⟩
        · cases h
  · rintro ⟨lines, r, ⟨output, complaint, hrun, hlines⟩, hread, rfl⟩
    obtain rfl := isLinesOf_iff.1 hlines
    rw [hrun, DumpTool.outcome_dump_ended, if_pos rfl, Except.ok_bind, hread]
    rfl

end

/-- The first fault in the order of the dumps. -/
theorem findSome?_work_eq_some_iff {program path : String} {runs : ToolRuns} {f : Fault} :
    DumpKind.all.findSome? (fun k => faultOf? (work program path runs k)) = some f ↔
      FirstFails program path runs f := by
  have hsome (k : DumpKind) (g : Fault) :
      faultOf? (work program path runs k) = some g ↔ Fails program path runs k g := by
    rw [← work_eq_error_iff]
    cases work program path runs k <;> simp [faultOf?]
  rw [List.findSome?_eq_some_iff, FirstFails]
  simp only [hsome, Option.eq_none_iff_forall_ne_some, ne_eq]

theorem findSome?_work_eq_none_iff {program path : String} {runs : ToolRuns} :
    DumpKind.all.findSome? (fun k => faultOf? (work program path runs k)) = none ↔
      ∀ k f, ¬ Fails program path runs k f := by
  simp only [List.findSome?_eq_none_iff, DumpKind.mem_all, true_imp_iff, ← work_eq_error_iff]
  refine forall_congr' fun k => ?_
  cases work program path runs k <;> simp [faultOf?]

/-! ## One dump after the other -/

section

variable {compilationDirectory : Option String} {program path : String} {runs : ToolRuns}

theorem outcome_load (compilationDirectory : Option String) (program path : String) (runs : ToolRuns) :
    (load (.ok compilationDirectory) program path runs).outcome = (do
      let listing ← work program path runs .code
      let symbols ← work program path runs .symbols
      let info ← work program path runs .info
      let lines ← work program path runs .lines
      (Snapshot.assemble listing symbols info.nodes lines compilationDirectory (some path)).outcome) := by
  have hcode : work program path runs .code =
      (readDump program path .code (runs .code) Listing.read).outcome := rfl
  have hsymbols : work program path runs .symbols =
      (readDump program path .symbols (runs .symbols) SymbolTable.read).outcome := rfl
  have hinfo : work program path runs .info =
      (readDump program path .info (runs .info) DebugInfo.read).outcome := rfl
  have hlines : work program path runs .lines =
      (readDump program path .lines (runs .lines) LineProgram.read).outcome := rfl
  simp only [load, both, Logged.outcome_bind, ← hcode, ← hsymbols, ← hinfo, ← hlines]
  cases work program path runs .code with
  | error f => rfl
  | ok listing =>
      cases work program path runs .symbols with
      | error f => rfl
      | ok symbols =>
          cases work program path runs .info with
          | error f => rfl
          | ok info => cases work program path runs .lines <;> rfl

theorem outcome_load_of_fault {f : Fault}
    (h : DumpKind.all.findSome? (fun k => faultOf? (work program path runs k)) = some f) :
    (load (.ok compilationDirectory) program path runs).outcome = .error f := by
  rw [outcome_load]
  simp only [DumpKind.all, List.findSome?_cons] at h
  cases hcode : work program path runs .code with
  | error e =>
      rw [hcode] at h
      cases h
      rfl
  | ok listing =>
      cases hsymbols : work program path runs .symbols with
      | error e =>
          rw [hcode, hsymbols] at h
          cases h
          rfl
      | ok symbols =>
          cases hinfo : work program path runs .info with
          | error e =>
              rw [hcode, hsymbols, hinfo] at h
              cases h
              rfl
          | ok info =>
              cases hlines : work program path runs .lines with
              | error e =>
                  rw [hcode, hsymbols, hinfo, hlines] at h
                  cases h
                  rfl
              | ok lines =>
                  rw [hcode, hsymbols, hinfo, hlines] at h
                  cases h

/-- When all four dumps are known, the answer is that of reading the printed lines one dump after the other. -/
theorem outcome_load_of_contents (compilationDirectory : Option String) {listing : Listing}
    {symbols : SymbolTable} {info : DebugInfo} {lines : LineProgram}
    (hcode : work program path runs .code = .ok listing)
    (hsymbols : work program path runs .symbols = .ok symbols)
    (hinfo : work program path runs .info = .ok info)
    (hlines : work program path runs .lines = .ok lines) :
    (load (.ok compilationDirectory) program path runs).outcome =
        (Snapshot.assemble listing symbols info.nodes lines compilationDirectory (some path)).outcome ∧
      ∃ d, (∀ k, Printed (runs k) (dumpOf d k)) ∧
        (Snapshot.ofDumps d compilationDirectory (some path)).outcome =
          (Snapshot.assemble listing symbols info.nodes lines compilationDirectory
            (some path)).outcome := by
  constructor
  · rw [outcome_load, hcode, hsymbols, hinfo, hlines]
    rfl
  · obtain ⟨code, rc, hprintedCode, hrc, rfl⟩ := work_eq_ok_iff.1 hcode
    obtain ⟨table, rs, hprintedSymbols, hrs, rfl⟩ := work_eq_ok_iff.1 hsymbols
    obtain ⟨nodes, ri, hprintedInfo, hri, rfl⟩ := work_eq_ok_iff.1 hinfo
    obtain ⟨program, rl, hprintedLines, hrl, rfl⟩ := work_eq_ok_iff.1 hlines
    refine ⟨⟨code, table, nodes, program⟩, ?_, ?_⟩
    · rintro (_ | _ | _ | _)
      · exact hprintedCode
      · exact hprintedSymbols
      · exact hprintedInfo
      · exact hprintedLines
    · have hrc : (Listing.read code).outcome = .ok rc := hrc
      have hrs : (SymbolTable.read table).outcome = .ok rs := hrs
      have hri : (DebugInfo.read nodes).outcome = .ok ri := hri
      have hrl : (LineProgram.read program).outcome = .ok rl := hrl
      simp only [Snapshot.ofDumps, Logged.outcome_bind, hrc, hrs, hri, hrl]
      rfl

end

/-- Parts that are known make a snapshot, but for sequences that lie too far from a declaration. -/
theorem assemble_defined (listing : Listing) (symbols : SymbolTable) (nodes : NodeTable)
    (lines : LineProgram) (compilationDirectory path : Option String) :
    (∃ x, (Snapshot.assemble listing symbols nodes lines compilationDirectory path).outcome = .ok x) ∨
      (Snapshot.assemble listing symbols nodes lines compilationDirectory path).outcome =
        .error .quotientTooLarge := by
  cases hanswer : (Snapshot.assemble listing symbols nodes lines compilationDirectory path).outcome with
  | ok x => exact .inl ⟨x, rfl⟩
  | error f =>
      rw [Snapshot.outcome_assemble, Except.map_eq_error_iff] at hanswer
      rw [(Matching.Problem.run_eq_error_iff.1 hanswer).1]
      exact .inr rfl

/-! ## In a pool -/

theorem pos_workersFor (jobs : Int) : 0 < workersFor jobs := by
  rw [workersFor]
  omega

section

variable {compilationDirectory : Option String} {program path : String} {runs : ToolRuns}
  {s : Pool DumpKind Content} (h : s.Sound DumpKind.all (work program path runs)) (hdone : s.Done)
include h hdone

theorem exists_answers : ∃ answer, Answers s compilationDirectory path answer := by
  obtain ⟨-, -, hreceived⟩ := h.of_done hdone
  cases hfault : s.fault with
  | some f => exact ⟨_, .failed hfault⟩
  | none =>
      have hall (k : DumpKind) : ∃ content, s.received k = some content := by
        obtain ⟨content, -, hcontent⟩ := hreceived hfault k k.mem_all
        exact ⟨content, hcontent⟩
      obtain ⟨listing, hcode⟩ := hall .code
      obtain ⟨symbols, hsymbols⟩ := hall .symbols
      obtain ⟨info, hinfo⟩ := hall .info
      obtain ⟨lines, hlines⟩ := hall .lines
      exact ⟨_, .assembled hfault hcode hsymbols hinfo hlines⟩

structure AnswerOf (compilationDirectory : Option String) (program path : String) (runs : ToolRuns)
    (answer : Except Fault Snapshot) : Prop where
  failed : ∀ f, FirstFails program path runs f → answer = .error f
  known : (∀ k f, ¬ Fails program path runs k f) →
    ((∃ x, answer = .ok x) ∨ answer = .error .quotientTooLarge) ∧
    ∃ d, (∀ k, Printed (runs k) (dumpOf d k)) ∧
      answer = (Snapshot.ofDumps d compilationDirectory (some path)).outcome

/-- The answer does not depend on how the pool went, and never on a part of the results. -/
theorem Answers.eq_outcome_load {answer : Except Fault Snapshot}
    (hanswer : Answers s compilationDirectory path answer) :
    answer = (load (.ok compilationDirectory) program path runs).outcome ∧
      AnswerOf compilationDirectory program path runs answer := by
  obtain ⟨-, hfirst, hreceived⟩ := h.of_done hdone
  cases hanswer with
  | @failed f hfault =>
      rw [hfault] at hfirst
      refine ⟨(outcome_load_of_fault hfirst.symm).symm, ?_, ?_⟩
      · intro g hg
        rw [← findSome?_work_eq_some_iff, ← hfirst] at hg
        cases hg
        rfl
      · intro hnone
        rw [← findSome?_work_eq_none_iff, ← hfirst] at hnone
        cases hnone
  | @assembled listing symbols info lines hfault hcode hsymbols hinfo hlines =>
      have hwork {k : DumpKind} {content : Content k} (hcontent : s.received k = some content) :
          work program path runs k = .ok content := by
        obtain ⟨content', hwork, hcontent'⟩ := hreceived hfault k k.mem_all
        rw [hcontent] at hcontent'
        cases hcontent'
        exact hwork
      obtain ⟨hload, d, hd, hdumps⟩ := outcome_load_of_contents compilationDirectory
        (hwork hcode) (hwork hsymbols) (hwork hinfo) (hwork hlines)
      refine ⟨hload.symm, ?_, fun _ => ⟨assemble_defined .., d, hd, hdumps.symm⟩⟩
      intro g hg
      rw [← findSome?_work_eq_some_iff, ← hfirst, hfault] at hg
      cases hg

end

/-- One function with a row of the line program in it. -/
def oneRow : ToolRuns
  | .code => .ended 0 "Disassembly of section .text:\r\n\r\n0 <f>:\r\n 0:\tc3 \tret\r\n" ""
  | .symbols => .ended 0 "0 g     F .text\t1 f\n" ""
  | .info => .ended 0 "<2d>: (DW_TAG_subprogram)\nDW_AT_name: f\n" ""
  | .lines => .ended 0 " 1\t0\t0\t0\ta.c\n [0x1] Copy\n [0x2] Extended opcode 1: End of Sequence" ""

/-- The code dump ends with a status other than zero, the symbols are no text and the lines are not taken. -/
def threeFaults : ToolRuns
  | .code => .ended 1 "" " no such file\n"
  | .symbols => .undecodable
  | .info => oneRow .info
  | .lines => .notStarted "not found"

end LineAtlas.Loading
