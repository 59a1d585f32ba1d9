import LineAtlas.Proofs.Keyed
import LineAtlas.Proofs.LineProgram
import LineAtlas.Proofs.LineProgram.Layout

/-!
# Where paths come from

A path is put together once, when its row is read, from the name in the row and the name in the last row of
its directory up to there. Later rows of the directory leave it as it is, and a later row of the file
replaces it. A directory that has no row by then is written `None`, which no line of the dump says.
-/

namespace LineAtlas

def LineSequence.FilesAmong (P : String → Prop) (q : LineSequence) : Prop :=
  ∀ a ps, q.positionsAt? a = some ps → ∀ x ∈ ps, ∀ f, x.file = some f → P f

theorem LineSequence.FilesAmong.add {P : String → Prop} {q : LineSequence} (h : q.FilesAmong P) (a : Int)
    {x : SourcePosition} (hx : ∀ f, x.file = some f → P f) : (q.add a x).FilesAmong P := by
  intro b ps hps y hy f hf
  rw [positionsAt?_add] at hps
  split at hps
  · cases hps
    rcases List.mem_append.1 hy with hy | hy
    · cases hold : q.positionsAt? b with
      | none =>
          rw [hold] at hy
          cases hy
      | some old =>
          rw [hold] at hy
          exact h b old hold y hy f hf
    · exact hx f (List.mem_singleton.1 hy ▸ hf)
  · exact h b ps hps y hy f hf

namespace LineProgram

open Text

def IsFileRow (rawLine : String) (index directory : Nat) (name : String) : Prop :=
  FileLayout (withoutLineEnd rawLine) index directory name

def IsDirectoryRow (rawLine : String) (index : Nat) (name : String) : Prop :=
  DirectoryLayout (withoutLineEnd rawLine) index name ∧
    ∀ index directory name, ¬ IsFileRow rawLine index directory name

def LastDirectory (lines : List String) (index : Nat) (name : String) : Prop :=
  ∃ before row after, lines = before ++ row :: after ∧ IsDirectoryRow row index name ∧
    ∀ row' ∈ after, ∀ name', ¬ IsDirectoryRow row' index name'

/-- The path that a row makes of its name after these lines, by the index of its directory. -/
inductive PathAfter (lines : List String) (name : String) : Nat → String → Prop
  | plain : PathAfter lines name 0 name
  | under {directory : Nat} {parent : String} (hdirectory : directory ≠ 0)
      (h : LastDirectory lines directory parent) :
      PathAfter lines name directory (parent ++ "/" ++ name)
  | unknown {directory : Nat} (hdirectory : directory ≠ 0)
      (h : ∀ row ∈ lines, ∀ parent, ¬ IsDirectoryRow row directory parent) :
      PathAfter lines name directory ("None" ++ "/" ++ name)

def RowPath (before : List String) (row : String) (index : Nat) (path : String) : Prop :=
  ∃ directory name, IsFileRow row index directory name ∧ PathAfter before name directory path

def LastPath (lines : List String) (index : Nat) (path : String) : Prop :=
  ∃ before row after, lines = before ++ row :: after ∧ RowPath before row index path ∧
    ∀ row' ∈ after, ∀ directory name, ¬ IsFileRow row' index directory name

theorem lastPath_concat {lines : List String} {row : String} {index : Nat} {path : String} :
    LastPath (lines ++ [row]) index path ↔ RowPath lines row index path ∨
      (∀ directory name, ¬ IsFileRow row index directory name) ∧ LastPath lines index path :=
  Keyed.last_concat_iff

def GivenPath (lines : List String) (path : String) : Prop :=
  ∃ before row after index, lines = before ++ row :: after ∧ RowPath before row index path

theorem GivenPath.concat {lines : List String} {path : String} (h : GivenPath lines path)
    (rawLine : String) : GivenPath (lines ++ [rawLine]) path := by
  obtain ⟨before, row, after, index, rfl, h⟩ := h
  exact ⟨before, row, after ++ [rawLine], index, by simp, h⟩

/-! ## The tables after a line -/

def Line.directory? : Line → Option (Nat × String)
  | .directoryRow index name => some (index.value, name)
  | _ => none

def Line.file? : Line → Option (Nat × Nat × String)
  | .fileRow index directory name => some (index.value, directory.value, name)
  | _ => none

def directoryOf? (rawLine : String) : Option (Nat × String) :=
  (Line.ofText? (withoutLineEnd rawLine)).bind Line.directory?

def fileOf? (rawLine : String) : Option (Nat × Nat × String) :=
  (Line.ofText? (withoutLineEnd rawLine)).bind Line.file?

theorem fileOf?_eq_some_iff {rawLine name : String} {index directory : Nat} :
    fileOf? rawLine = some (index, directory, name) ↔ IsFileRow rawLine index directory name := by
  rw [IsFileRow, ← ofText?_eq_fileRow_iff, fileOf?, Option.bind_eq_some_iff]
  constructor
  · rintro ⟨line, hline, hfile⟩
    cases line <;> cases hfile
    exact ⟨_, _, rfl, rfl, hline⟩
  · rintro ⟨i, d, rfl, rfl, hline⟩
    exact ⟨_, hline, rfl⟩

theorem directoryOf?_eq_some_iff {rawLine name : String} {index : Nat} :
    directoryOf? rawLine = some (index, name) ↔ IsDirectoryRow rawLine index name := by
  simp only [IsDirectoryRow, IsFileRow]
  rw [← ofText?_eq_directoryRow_iff, directoryOf?, Option.bind_eq_some_iff]
  constructor
  · rintro ⟨line, hline, hdirectory⟩
    cases line <;> cases hdirectory
    exact ⟨_, rfl, hline⟩
  · rintro ⟨i, rfl, hline⟩
    exact ⟨_, hline, rfl⟩

/-- The tables of `q` are those of `p` with the row that the line may be. -/
def Extends (p q : LineProgram) (rawLine : String) : Prop :=
  q.directories = (match directoryOf? rawLine with
    | some (index, name) => p.directories.put index name
    | none => p.directories) ∧
  q.files = match fileOf? rawLine with
    | some (index, directory, name) => p.files.put index (p.path directory name)
    | none => p.files

theorem execute_tables (p : LineProgram) (s : Statement Nat) :
    (p.execute s).directories = p.directories ∧ (p.execute s).files = p.files := by
  cases s <;> exact ⟨rfl, rfl⟩

theorem extends_of_step {p q : LineProgram} {rawLine : String} {line : Line} {ns : List Notice}
    (hline : Line.ofText? (withoutLineEnd rawLine) = some line) (hstep : p.step line = .ok (q, ns)) :
    Extends p q rawLine := by
  have hdirectory : directoryOf? rawLine = line.directory? := by
    rw [directoryOf?, hline, Option.bind_some]
  have hfile : fileOf? rawLine = line.file? := by
    rw [fileOf?, hline, Option.bind_some]
  rw [Extends, hdirectory, hfile]
  cases line with
  | statement text =>
      rcases step_statement_cases hstep with ⟨s, -, rfl⟩ | ⟨-, rfl⟩
      · exact p.execute_tables s
      · exact ⟨rfl, rfl⟩
  | fileRow index directory name =>
      obtain ⟨i, d, hi, hd, rfl⟩ := step_fileRow_eq_ok hstep
      obtain ⟨-, rfl⟩ := Numeral.read_eq_ok_iff.1 hi
      obtain ⟨-, rfl⟩ := Numeral.read_eq_ok_iff.1 hd
      exact ⟨rfl, rfl⟩
  | directoryRow index name =>
      obtain ⟨i, hi, rfl⟩ := step_directoryRow_eq_ok hstep
      obtain ⟨-, rfl⟩ := Numeral.read_eq_ok_iff.1 hi
      exact ⟨rfl, rfl⟩
  | _ =>
      cases hstep
      exact ⟨rfl, rfl⟩

theorem extends_of_feedLine {r r' : Reading LineProgram} {rawLine : String}
    (hfeed : (format.feedLine r rawLine).outcome = .ok r') : Extends r.state r'.state rawLine := by
  rcases format.feedLine_cases hfeed with ⟨q, ns, hread, rfl⟩ | ⟨hread, rfl⟩
  · rw [format_readLine] at hread
    obtain ⟨line, hline, hstep⟩ := r.state.readLine_eq_some hread
    exact extends_of_step hline hstep
  · rw [format_readLine] at hread
    have hline : Line.ofText? (withoutLineEnd rawLine) = none := r.state.readLine_eq_none hread
    rw [Extends, directoryOf?, fileOf?, hline]
    exact ⟨rfl, rfl⟩

/-! ## The tables after a dump -/

theorem directories_of_read {lines : List String} {r : Reading LineProgram}
    (hread : (format.read lines).outcome = .ok r) :
    r.state.directories = Keyed.collect directoryOf? lines := by
  induction lines using List.reverseRecOn generalizing r with
  | nil =>
      cases hread
      rfl
  | append_singleton lines rawLine ih =>
      obtain ⟨r₁, hlines, hline⟩ := format.read_concat hread
      rw [(extends_of_feedLine hline).1, ih hlines, Keyed.collect_concat]
      cases directoryOf? rawLine <;> rfl

theorem get?_directories_eq_some_iff {lines : List String} {r : Reading LineProgram}
    (hread : (format.read lines).outcome = .ok r) {index : Nat} {name : String} :
    r.state.directories.get? index = some name ↔ LastDirectory lines index name := by
  rw [directories_of_read hread, Keyed.get?_collect_eq_some_iff]
  simp only [ne_eq, directoryOf?_eq_some_iff, LastDirectory]

theorem get?_directories_eq_none_iff {lines : List String} {r : Reading LineProgram}
    (hread : (format.read lines).outcome = .ok r) {index : Nat} :
    r.state.directories.get? index = none ↔
      ∀ row ∈ lines, ∀ name, ¬ IsDirectoryRow row index name := by
  rw [directories_of_read hread, Keyed.get?_collect_eq_none_iff]
  simp only [ne_eq, directoryOf?_eq_some_iff]

/-- The path that is made of a name depends on the lines before through the last row of the directory. -/
theorem path_eq_iff {lines : List String} {r : Reading LineProgram}
    (hread : (format.read lines).outcome = .ok r) {directory : Nat} {name path : String} :
    r.state.path directory name = path ↔ PathAfter lines name directory path := by
  rw [LineProgram.path, directoryText]
  constructor
  · rintro rfl
    split
    · rename_i hzero
      rw [hzero]
      exact .plain
    · rename_i hdirectory
      cases hfound : r.state.directories.get? directory with
      | some parent =>
          exact .under hdirectory ((get?_directories_eq_some_iff hread).1 hfound)
      | none =>
          exact .unknown hdirectory ((get?_directories_eq_none_iff hread).1 hfound)
  · intro h
    cases h with
    | plain => exact if_pos rfl
    | under hdirectory h =>
        rw [if_neg hdirectory, (get?_directories_eq_some_iff hread).2 h, Option.getD_some]
    | unknown hdirectory h =>
        rw [if_neg hdirectory, (get?_directories_eq_none_iff hread).2 h, Option.getD_none]

def pathFor? (p : LineProgram) (index : Nat) (rawLine : String) : Option String :=
  (fileOf? rawLine).bind fun row => if row.1 = index then some (p.path row.2.1 row.2.2) else none

theorem pathFor?_eq_some_iff {p : LineProgram} {index : Nat} {rawLine path : String} :
    p.pathFor? index rawLine = some path ↔ ∃ directory name,
      IsFileRow rawLine index directory name ∧ p.path directory name = path := by
  simp [pathFor?, Option.bind_eq_some_iff, ← fileOf?_eq_some_iff]

theorem pathFor?_eq_none_iff {p : LineProgram} {index : Nat} {rawLine : String} :
    p.pathFor? index rawLine = none ↔ ∀ directory name, ¬ IsFileRow rawLine index directory name := by
  simp only [Option.eq_none_iff_forall_ne_some, ne_eq, pathFor?_eq_some_iff]
  constructor
  · intro h directory name hrow
    exact h _ ⟨directory, name, hrow, rfl⟩
  · rintro h path ⟨directory, name, hrow, -⟩
    exact h directory name hrow

/-- A row of a file replaces its path, and every other line leaves it. -/
theorem Extends.get?_files {p q : LineProgram} {rawLine : String} (h : Extends p q rawLine)
    (index : Nat) : q.files.get? index = (p.pathFor? index rawLine).or (p.files.get? index) := by
  rw [h.2, pathFor?]
  cases hrow : fileOf? rawLine with
  | none => rfl
  | some row =>
      change Keyed.get? (Keyed.put p.files row.1 (p.path row.2.1 row.2.2)) index = _
      rw [Keyed.put, Keyed.get?_alter, Option.bind_some]
      by_cases heq : row.1 = index
      · rw [if_pos heq, if_pos heq.symm, Option.some_or]
      · rw [if_neg heq, if_neg (Ne.symm heq), Option.none_or]

theorem get?_files_eq_some_iff {lines : List String} {r : Reading LineProgram}
    (hread : (format.read lines).outcome = .ok r) {index : Nat} {path : String} :
    r.state.files.get? index = some path ↔ LastPath lines index path := by
  induction lines using List.reverseRecOn generalizing r path with
  | nil =>
      cases hread
      simp [LastPath, format, DumpFormat.begin, empty]
  | append_singleton lines rawLine ih =>
      obtain ⟨r₁, hlines, hline⟩ := format.read_concat hread
      rw [(extends_of_feedLine hline).get?_files, Option.or_eq_some_iff, pathFor?_eq_some_iff,
        pathFor?_eq_none_iff, ih hlines, lastPath_concat]
      simp only [RowPath, path_eq_iff hlines]

/-- A file has no path when it has no row. -/
theorem get?_files_eq_none_iff {lines : List String} {r : Reading LineProgram}
    (hread : (format.read lines).outcome = .ok r) {index : Nat} :
    r.state.files.get? index = none ↔
      ∀ row ∈ lines, ∀ directory name, ¬ IsFileRow row index directory name := by
  induction lines using List.reverseRecOn generalizing r with
  | nil =>
      cases hread
      simp [format, DumpFormat.begin, empty]
  | append_singleton lines rawLine ih =>
      obtain ⟨r₁, hlines, hline⟩ := format.read_concat hread
      rw [(extends_of_feedLine hline).get?_files, Option.or_eq_none_iff, pathFor?_eq_none_iff,
        ih hlines, List.forall_mem_append, List.forall_mem_singleton, and_comm]

/-! ## The files of recorded positions -/

/-- All paths that the machine holds, in its table, its register and its rows, have the property. -/
structure FilesAmong (P : String → Prop) (p : LineProgram) : Prop where
  table : ∀ index f, p.files.get? index = some f → P f
  register : ∀ f, p.registers.file = some f → P f
  opened : p.rows.FilesAmong P
  closed : ∀ q ∈ p.sequences, q.FilesAmong P

theorem filesAmong_empty (P : String → Prop) : FilesAmong P empty where
  table index f h := by cases h
  register f h := by cases h
  opened a ps h := by cases h
  closed q h := by cases h

namespace FilesAmong

variable {P : String → Prop} {p : LineProgram}

theorem mono {Q : String → Prop} (h : p.FilesAmong P) (himp : ∀ f, P f → Q f) : p.FilesAmong Q where
  table index f hf := himp f (h.table index f hf)
  register f hf := himp f (h.register f hf)
  opened a ps hps x hx f hf := himp f (h.opened a ps hps x hx f hf)
  closed q hq a ps hps x hx f hf := himp f (h.closed q hq a ps hps x hx f hf)

theorem emit (h : p.FilesAmong P) : p.emit.FilesAmong P :=
  ⟨h.table, h.register, h.opened.add _ h.register, h.closed⟩

theorem close (h : p.FilesAmong P) : p.close.FilesAmong P where
  table := h.table
  register f hf := h.table firstFile f hf
  opened := (filesAmong_empty P).opened
  closed q hq := by
    rcases List.mem_append.1 hq with hq | hq
    · exact h.closed q hq
    · rw [List.mem_singleton.1 hq]
      exact h.emit.opened

theorem execute (h : p.FilesAmong P) (s : Statement Nat) : (p.execute s).FilesAmong P := by
  cases s with
  | special address line =>
      have hset : FilesAmong P { p with registers := { p.registers with address, line } } :=
        ⟨h.table, h.register, h.opened, h.closed⟩
      exact hset.emit
  | copy => exact h.emit
  | setFile index written => exact ⟨h.table, fun f hf => h.table index f hf, h.opened, h.closed⟩
  | endSequence => exact h.close
  | _ => exact ⟨h.table, h.register, h.opened, h.closed⟩

theorem addFile (h : p.FilesAmong P) {index directory : Nat} {name : String}
    (hpath : P (p.path directory name)) : (p.addFile index directory name).FilesAmong P := by
  refine ⟨?_, ?_, h.opened, h.closed⟩
  · intro index' f hf
    rw [LineProgram.addFile, Keyed.put, Keyed.get?_alter] at hf
    split at hf
    · cases hf
      exact hpath
    · exact h.table index' f hf
  · intro f hf
    rw [LineProgram.addFile] at hf
    split at hf
    · cases hf
      exact hpath
    · exact h.register f hf

/-- A line adds no path but that of its row. -/
theorem step (h : p.FilesAmong P) {line : Line} {q : LineProgram} {ns : List Notice}
    (hstep : p.step line = .ok (q, ns))
    (hrow : ∀ index directory name, line = .fileRow index directory name →
      P (p.path directory.value name)) :
    q.FilesAmong P := by
  cases line with
  | statement text =>
      rcases step_statement_cases hstep with ⟨s, -, rfl⟩ | ⟨-, rfl⟩
      · exact h.execute s
      · exact ⟨h.table, h.register, h.opened, h.closed⟩
  | fileRow index directory name =>
      obtain ⟨i, d, -, hd, rfl⟩ := step_fileRow_eq_ok hstep
      obtain ⟨-, rfl⟩ := Numeral.read_eq_ok_iff.1 hd
      exact h.addFile (hrow index directory name rfl)
  | directoryRow index name =>
      obtain ⟨i, -, rfl⟩ := step_directoryRow_eq_ok hstep
      exact ⟨h.table, h.register, h.opened, h.closed⟩
  | _ =>
      cases hstep
      exact ⟨h.table, h.register, h.opened, h.closed⟩

end FilesAmong

theorem filesAmong_of_read {lines : List String} {r : Reading LineProgram}
    (hread : (format.read lines).outcome = .ok r) : r.state.FilesAmong (GivenPath lines) := by
  induction lines using List.reverseRecOn generalizing r with
  | nil =>
      cases hread
      exact filesAmong_empty _
  | append_singleton lines rawLine ih =>
      obtain ⟨r₁, hlines, hfeed⟩ := format.read_concat hread
      have hbefore : r₁.state.FilesAmong (GivenPath (lines ++ [rawLine])) :=
        (ih hlines).mono fun f hf => hf.concat rawLine
      rcases format.feedLine_cases hfeed with ⟨q, ns, hstep, rfl⟩ | ⟨-, rfl⟩
      · rw [format_readLine] at hstep
        obtain ⟨line, hline, hstep⟩ := r₁.state.readLine_eq_some hstep
        apply hbefore.step hstep
        rintro index directory name rfl
        have hrow : IsFileRow rawLine index.value directory.value name := by
          rw [← fileOf?_eq_some_iff, fileOf?, hline, Option.bind_some, Line.file?]
        exact ⟨lines, rawLine, [], index.value, rfl, directory.value, name, hrow,
          (path_eq_iff hlines).1 rfl⟩
      · exact hbefore

/-- The path of a file is that of its last row, and a file without a row has none. A path is the name in its
row, behind the name in the last row of its directory up to there; only a directory without a row by then is
written `None`. Every file of a recorded position has such a path. -/
theorem paths_of_read {lines : List String} {r : Reading LineProgram}
    (h : (read lines).outcome = .ok r) :
    (∀ index path, r.state.files.get? index = some path ↔ LastPath lines index path) ∧
    (∀ index, r.state.files.get? index = none ↔
      ∀ row ∈ lines, ∀ directory name, ¬ IsFileRow row index directory name) ∧
    ∀ q ∈ r.state.sequences, q.FilesAmong (GivenPath lines) := by
  rw [read, Logged.outcome_bind_eq_ok_iff] at h
  obtain ⟨r', hread, h⟩ := h
  cases h
  exact ⟨fun _ _ => get?_files_eq_some_iff hread, fun _ => get?_files_eq_none_iff hread,
    (filesAmong_of_read hread).closed⟩

/-- Rows in both layouts. The first directory gets another name after the row of its first file, and the
directory of the third file has no row. -/
def movedDirectory : List String :=
  ["  1\t/usr/include", "  1\t1\t0\t0\ta.h", "  1\t(line_strp)\t(offset: 0x9): /src",
    "  2\t1\t(line_strp)\t(offset: 0x5): b.c", "  3\t4\t(line_strp)\t(offset: 0x1): c.c",
    "  [0x1]  Copy", "  [0x2]  Set File Name to entry 3 in the File Name Table",
    "  [0x3]  Extended opcode 1: End of Sequence"]

theorem paths_of_read_movedDirectory :
    let files : FileTable := [(1, "/usr/include/a.h"), (2, "/src/b.c"), (3, "None/c.c")]
    let recorded : LineSequence := .ofList [(0, ⟨some "/usr/include/a.h", 1, 0, true, 0⟩),
      (0, ⟨some "None/c.c", 1, 0, true, 0⟩)]
    ∃ r, (read movedDirectory).outcome = .ok r ∧ r.state.files = files ∧
      r.state.sequences = [recorded] ∧ LastPath movedDirectory 1 "/usr/include/a.h" ∧
      LastPath movedDirectory 2 "/src/b.c" ∧ LastPath movedDirectory 3 "None/c.c" ∧
      GivenPath movedDirectory "None/c.c" ∧
      ∀ row ∈ movedDirectory, ∀ parent, ¬ IsDirectoryRow row 4 parent := by
  intro files recorded
  have hcomputed : (read movedDirectory).outcome.toOption.map
      (fun r => (r.state.files, r.state.sequences)) = some (files, [recorded]) := by
    decide +kernel
  have hnone : ∀ row ∈ movedDirectory, (directoryOf? row).map Prod.fst ≠ some 4 := by
    decide +kernel
  obtain ⟨r, hr, hcontents⟩ := Logged.exists_outcome_eq_ok hcomputed
  obtain ⟨hfiles, hsequences⟩ := Prod.mk.inj hcontents
  obtain ⟨hlast, -, hrecorded⟩ := paths_of_read hr
  rw [hfiles] at hlast
  have hmem : recorded ∈ r.state.sequences := hsequences ▸ List.mem_cons_self
  have hgiven : GivenPath movedDirectory "None/c.c" :=
    hrecorded recorded hmem 0 _ rfl ⟨some "None/c.c", 1, 0, true, 0⟩ (by decide) _ rfl
  refine ⟨r, hr, hfiles, hsequences, (hlast 1 _).1 rfl, (hlast 2 _).1 rfl, (hlast 3 _).1 rfl, hgiven, ?_⟩
  intro row hrow parent hdirectory
  apply hnone row hrow
  rw [directoryOf?_eq_some_iff.2 hdirectory, Option.map_some]

end LineProgram

end LineAtlas
