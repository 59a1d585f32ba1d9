import LineAtlas.SourceReader
import Mathlib.Data.List.Basic

/-!
# What a source reader remembers

A session is a reader in use while files are written to the disk and removed from it. The first lines that
were read under a path are the answer to all later reads of that path, whatever the disk holds by then. What
is remembered never shows otherwise: a path without lines so far is looked up on the disk as it is, and so is
every path whose place is asked for.
-/

namespace LineAtlas.SourceReader

inductive Event
  | resolve (path : String)
  | read (path : String)
  | write (path : String) (bytes : List UInt8)
  | remove (path : String)
  deriving DecidableEq

inductive Answer
  | place (found : Option String)
  | lines (lines : Option (List String))
  | done
  deriving DecidableEq

def Event.change (d : Disk) : Event → Disk
  | write path bytes => d.write path bytes
  | remove path => d.remove path
  | resolve _ | read _ => d

structure Session where
  reader : SourceReader
  disk : Disk

namespace Session

def start (compilationDirectory : Option String) (searchDirectories : List String) (d : Disk) : Session :=
  ⟨new compilationDirectory searchDirectories, d⟩

def readerAfter (s : Session) : Event → SourceReader
  | .read path => (s.reader.read s.disk.view path).1
  | _ => s.reader

def next (s : Session) (e : Event) : Session :=
  ⟨s.readerAfter e, e.change s.disk⟩

def answer (s : Session) : Event → Answer
  | .resolve path => .place (s.reader.resolve? s.disk.view path)
  | .read path => .lines (s.reader.read s.disk.view path).2
  | _ => .done

def after (s : Session) (es : List Event) : Session :=
  es.foldl next s

def log (s : Session) : List Event → List (Event × Answer)
  | [] => []
  | e :: es => (e, s.answer e) :: (s.next e).log es

@[simp]
theorem after_nil (s : Session) : s.after [] = s := rfl

@[simp]
theorem after_cons (s : Session) (e : Event) (es : List Event) :
    s.after (e :: es) = (s.next e).after es := rfl

@[simp]
theorem log_nil (s : Session) : s.log [] = [] := rfl

@[simp]
theorem log_cons (s : Session) (e : Event) (es : List Event) :
    s.log (e :: es) = (e, s.answer e) :: (s.next e).log es := rfl

theorem log_append (s : Session) (before later : List Event) :
    s.log (before ++ later) = s.log before ++ (s.after before).log later := by
  induction before generalizing s with
  | nil => rfl
  | cons e before ih => simp [ih]

end Session

/-! ## Places -/

/-- The directories in which a relative path is tried, in order. An empty compilation directory is none. -/
def triedDirectories (compilationDirectory : Option String) (searchDirectories : List String) (v : FileView) :
    List String :=
  compilationDirectory.toList.filter (· ≠ "") ++ searchDirectories ++ [v.workingPath]

/-- The place of a file: the path itself if it is absolute, and else the path as seen from the first of the
directories from which it leads to a file. -/
inductive Finds (compilationDirectory : Option String) (searchDirectories : List String) (v : FileView)
    (path : String) : String → Prop
  | absolute (habsolute : Path.isAbsolute path = true) (hfile : v.isFile path = true) :
    Finds compilationDirectory searchDirectories v path path
  | relative (habsolute : Path.isAbsolute path = false) (before : List String) (base : String)
    (later : List String)
    (hbases : triedDirectories compilationDirectory searchDirectories v = before ++ base :: later)
    (hbefore : ∀ b ∈ before, v.isFile (Path.join b path) = false)
    (hfile : v.isFile (Path.join base path) = true) :
    Finds compilationDirectory searchDirectories v path (Path.join base path)

theorem bases_new (c : Option String) (ds : List String) (v : FileView) :
    (new c ds).bases v.workingPath = triedDirectories c ds v := by
  cases c with
  | none => rfl
  | some directory =>
      by_cases h : directory = "" <;>
        simp [new, bases, namedDirectories, triedDirectories, Option.filter, h]

/-- A new reader resolves a path to its place. -/
theorem resolve?_new_eq_some_iff {c : Option String} {ds : List String} {v : FileView}
    {path found : String} : (new c ds).resolve? v path = some found ↔ Finds c ds v path found := by
  rw [resolve?, choices, bases_new]
  by_cases habsolute : Path.isAbsolute path = true
  · rw [if_pos habsolute]
    constructor
    · intro h
      have hfile := List.find?_some h
      obtain rfl := List.mem_singleton.1 (List.mem_of_find?_eq_some h)
      exact .absolute habsolute hfile
    · intro h
      cases h with
      | absolute _ hfile => simp [hfile]
      | relative hrelative => simp [habsolute] at hrelative
  · rw [if_neg habsolute, List.find?_map, Option.map_eq_some_iff]
    rw [Bool.not_eq_true] at habsolute
    constructor
    · rintro ⟨base, hbase, rfl⟩
      obtain ⟨hfile, before, later, hbases, hbefore⟩ := List.find?_eq_some_iff_append.1 hbase
      exact .relative habsolute before base later hbases (by simpa using hbefore) hfile
    · intro h
      cases h with
      | absolute hpath => simp [habsolute] at hpath
      | relative _ before base later hbases hbefore hfile =>
          refine ⟨base, List.find?_eq_some_iff_append.2 ⟨hfile, before, later, hbases, ?_⟩, rfl⟩
          simpa using hbefore

/-- What the disk shows under a path: the lines of the file at its place, or none without a place. -/
def Shows (c : Option String) (ds : List String) (d : Disk) (path : String) (lines : Option (List String)) :
    Prop :=
  (∃ f bytes, Finds c ds d.view path f ∧ d.contents? f = some bytes ∧ lines = some (decodeLines bytes)) ∨
    (∀ f, ¬ Finds c ds d.view path f) ∧ lines = none

/-! ## One event -/

def fresh? (r : SourceReader) (v : FileView) (path : String) : Option (List String) :=
  ((r.resolve? v path).bind v.contents?).map decodeLines

/-- A place that was found is that of a file, which has contents. -/
theorem shows_fresh? (c : Option String) (ds : List String) (d : Disk) (path : String) :
    Shows c ds d path ((new c ds).fresh? d.view path) := by
  rw [fresh?]
  cases hplace : (new c ds).resolve? d.view path with
  | none =>
      refine .inr ⟨fun f hf => ?_, rfl⟩
      rw [resolve?_new_eq_some_iff.2 hf] at hplace
      cases hplace
  | some f =>
      have hfile : d.view.isFile f = true := List.find?_some hplace
      obtain ⟨bytes, hbytes⟩ := Option.isSome_iff_exists.1 hfile
      rw [Option.bind_some, hbytes]
      exact .inl ⟨f, bytes, resolve?_new_eq_some_iff.1 hplace, hbytes, rfl⟩

theorem read_snd (r : SourceReader) (v : FileView) (path : String) :
    (r.read v path).2 = (r.cache.get? path).or (r.fresh? v path) := by
  rw [read, fresh?]
  cases r.cache.get? path with
  | some lines => rfl
  | none => cases (r.resolve? v path).bind v.contents? <;> rfl

theorem read_fst_of_failed {r : SourceReader} {v : FileView} {path : String}
    (h : (r.read v path).2 = none) : (r.read v path).1 = r := by
  rw [read] at h ⊢
  cases hcached : r.cache.get? path with
  | some lines => rfl
  | none =>
      rw [hcached] at h
      cases hbytes : (r.resolve? v path).bind v.contents? with
      | none => rfl
      | some bytes =>
          rw [hbytes] at h
          cases h

/-- Reading leaves the directories as they are, and so all places. -/
theorem resolve?_read (r : SourceReader) (v : FileView) (path : String) :
    (r.read v path).1.resolve? = r.resolve? := by
  rw [read]
  split
  · rfl
  · split <;> rfl

theorem get?_cache_read (r : SourceReader) (v : FileView) (path other : String) :
    (r.read v path).1.cache.get? other =
      (r.cache.get? other).or (if path = other then (r.read v path).2 else none) := by
  rw [read]
  cases hcached : r.cache.get? path with
  | some lines =>
      by_cases hother : path = other
      · subst hother
        simp [hcached]
      · simp [hother]
  | none =>
      cases (r.resolve? v path).bind v.contents? with
      | none => simp
      | some bytes =>
          by_cases hother : path = other
          · subst hother
            simp [Keyed.put, Keyed.get?_alter, hcached]
          · simp [Keyed.put, Keyed.get?_alter, hother, Ne.symm hother]

namespace Session

theorem resolve?_next (s : Session) (e : Event) :
    (s.next e).reader.resolve? = s.reader.resolve? := by
  cases e with
  | read path => exact resolve?_read s.reader s.disk.view path
  | resolve path => rfl
  | write path bytes => rfl
  | remove path => rfl

def linesFor? (path : String) : Event × Answer → Option (List String)
  | (.read p, .lines lines) => if p = path then lines else none
  | _ => none

/-- An event adds to what is remembered the lines that it reads, where there are none yet. -/
theorem get?_cache_next (s : Session) (e : Event) (path : String) :
    (s.next e).reader.cache.get? path =
      (s.reader.cache.get? path).or (linesFor? path (e, s.answer e)) := by
  cases e with
  | read p => exact get?_cache_read s.reader s.disk.view p path
  | resolve p => exact Option.or_none.symm
  | write p bytes => exact Option.or_none.symm
  | remove p => exact Option.or_none.symm

/-- A read that finds nothing leaves no trace. -/
theorem next_of_failed {s : Session} {path : String} (h : s.answer (.read path) = .lines none) :
    s.next (.read path) = s := by
  rw [next, readerAfter, read_fst_of_failed (Answer.lines.inj h)]
  rfl

/-! ## Sessions -/

theorem disk_after (s : Session) (es : List Event) : (s.after es).disk = es.foldl Event.change s.disk := by
  induction es generalizing s with
  | nil => rfl
  | cons e es ih => exact ih (s.next e)

theorem resolve?_after (s : Session) (es : List Event) :
    (s.after es).reader.resolve? = s.reader.resolve? := by
  induction es generalizing s with
  | nil => rfl
  | cons e es ih => rw [after_cons, ih, resolve?_next]

def firstRead? (path : String) (log : List (Event × Answer)) : Option (List String) :=
  log.findSome? (linesFor? path)

/-- What is remembered at any moment is what was read first. -/
theorem get?_cache_after (s : Session) (es : List Event) (path : String) :
    (s.after es).reader.cache.get? path =
      (s.reader.cache.get? path).or (firstRead? path (s.log es)) := by
  induction es generalizing s with
  | nil => exact Option.or_none.symm
  | cons e es ih =>
      rw [after_cons, ih, get?_cache_next, Option.or_assoc, log_cons, firstRead?, firstRead?,
        List.findSome?_cons]
      cases linesFor? path (e, s.answer e) <;> rfl

theorem length_log (s : Session) (es : List Event) : (s.log es).length = es.length := by
  induction es generalizing s with
  | nil => rfl
  | cons e es ih => simp [ih]

theorem getElem?_log (s : Session) (before later : List Event) (e : Event) :
    (s.log (before ++ e :: later))[before.length]? = some (e, (s.after before).answer e) := by
  rw [log_append, ← s.length_log before, List.getElem?_append_right (Nat.le_refl _), Nat.sub_self]
  rfl

/-- Two sessions that a path cannot tell apart: they look at the same disk from the same directories and
remember the same of the path. -/
structure Alike (path : String) (s t : Session) : Prop where
  disk : s.disk = t.disk
  places : s.reader.resolve? = t.reader.resolve?
  remembered : s.reader.cache.get? path = t.reader.cache.get? path

/-- The events that can matter to the reads of a path: these reads and all changes of the disk. -/
def Concerns (path : String) : Event → Bool
  | .read p => p = path
  | .write _ _ | .remove _ => true
  | .resolve _ => false

namespace Alike

variable {path : String} {s t : Session}

theorem answer (h : Alike path s t) : s.answer (.read path) = t.answer (.read path) := by
  rw [Session.answer, Session.answer, read_snd, read_snd, fresh?, fresh?, h.remembered, h.places, h.disk]

theorem next (h : Alike path s t) {e : Event} (he : Concerns path e = true) :
    Alike path (s.next e) (t.next e) := by
  refine ⟨congrArg (Event.change · e) h.disk, ?_, ?_⟩
  · rw [resolve?_next, resolve?_next, h.places]
  · have hanswer : linesFor? path (e, s.answer e) = linesFor? path (e, t.answer e) := by
      cases e with
      | read p =>
          obtain rfl : p = path := of_decide_eq_true he
          rw [h.answer]
      | write p bytes => rfl
      | remove p => rfl
      | resolve p => cases he
    rw [get?_cache_next, get?_cache_next, h.remembered, hanswer]

theorem next_left (h : Alike path s t) {e : Event} (he : Concerns path e = false) :
    Alike path (s.next e) t := by
  have hdisk : e.change s.disk = s.disk := by
    cases e with
    | read p => rfl
    | resolve p => rfl
    | write p bytes => cases he
    | remove p => cases he
  have hother : linesFor? path (e, s.answer e) = none := by
    cases e with
    | read p => exact if_neg (of_decide_eq_false he)
    | resolve p => rfl
    | write p bytes => rfl
    | remove p => rfl
  refine ⟨hdisk.trans h.disk, ?_, ?_⟩
  · rw [resolve?_next, h.places]
  · rw [get?_cache_next, hother, Option.or_none, h.remembered]

/-- Leaving out what does not concern a path changes no answer to its reads. -/
theorem reads_eq (h : Alike path s t) (es : List Event) :
    (s.log es).filter (·.1 = .read path) = (t.log (es.filter (Concerns path))).filter (·.1 = .read path) := by
  induction es generalizing s t with
  | nil => rfl
  | cons e es ih =>
      cases he : Concerns path e with
      | true =>
          rw [List.filter_cons_of_pos he, log_cons, log_cons, List.filter_cons, List.filter_cons,
            ih (h.next he)]
          by_cases hread : e = .read path
          · subst hread
            rw [h.answer]
          · simp [hread]
      | false =>
          have hread : e ≠ .read path := by
            rintro rfl
            simp [Concerns] at he
          rw [List.filter_cons_of_neg (by simp [he]), log_cons, List.filter_cons_of_neg (by simpa using hread),
            ih (h.next_left he)]

end Alike

end Session

open Session

/-- What a session answers is told by what happened in it. A read gives the lines of the first earlier read
of the same path that gave any, and without such a read what the disk shows at that moment; the place of a
path is always looked up on the disk of the moment. Leaving out a read that found nothing changes no other
answer, and the answers to the reads of a path are the same without all reads of other paths. -/
theorem log_of_history (c : Option String) (ds : List String) (d : Disk) :
    (∀ before path later, ∃ lines,
      ((start c ds d).log (before ++ .read path :: later))[before.length]? =
          some (.read path, .lines lines) ∧
        (∀ first, firstRead? path ((start c ds d).log before) = some first → lines = some first) ∧
        (firstRead? path ((start c ds d).log before) = none →
          Shows c ds (before.foldl Event.change d) path lines)) ∧
      (∀ before path later, ∃ found,
        ((start c ds d).log (before ++ .resolve path :: later))[before.length]? =
            some (.resolve path, .place found) ∧
          ∀ f, found = some f ↔ Finds c ds (before.foldl Event.change d).view path f) ∧
      (∀ before path later rest,
        (start c ds d).log (before ++ .read path :: later) =
            (start c ds d).log before ++ (.read path, .lines none) :: rest →
          (start c ds d).log (before ++ later) = (start c ds d).log before ++ rest) ∧
      ∀ path es, ((start c ds d).log es).filter (·.1 = .read path) =
        ((start c ds d).log (es.filter (Concerns path))).filter (·.1 = .read path) := by
  have hdisk (es : List Event) : ((start c ds d).after es).disk = es.foldl Event.change d :=
    disk_after _ es
  have hplaces (es : List Event) : ((start c ds d).after es).reader.resolve? = (new c ds).resolve? :=
    resolve?_after _ es
  refine ⟨?_, ?_, ?_, ?_⟩
  · intro before path later
    refine ⟨_, getElem?_log _ before later _, ?_⟩
    have hstart : (start c ds d).reader.cache.get? path = none := rfl
    rw [read_snd, get?_cache_after, hstart, Option.none_or]
    constructor
    · intro first hfirst
      rw [hfirst, Option.some_or]
    · intro hnone
      rw [hnone, Option.none_or, fresh?, hplaces, hdisk]
      exact shows_fresh? c ds (before.foldl Event.change d) path
  · intro before path later
    refine ⟨_, getElem?_log _ before later _, ?_⟩
    intro f
    rw [hplaces, hdisk]
    exact resolve?_new_eq_some_iff
  · intro before path later rest h
    rw [log_append, List.append_cancel_left_eq, log_cons, List.cons.injEq, Prod.mk.injEq] at h
    obtain ⟨⟨-, hfailed⟩, hrest⟩ := h
    rw [next_of_failed hfailed] at hrest
    rw [log_append, hrest]
  · intro path es
    exact Alike.reads_eq ⟨rfl, rfl, rfl⟩ es

/-- A file is missed, written and read; then another takes its place, which only another spelling of the path
shows, and in the end one is left in another directory. -/
def changingDisk : List Event :=
  [.read "a.c", .write "/src/a.c" [0x31, 0x0a, 0x32], .resolve "a.c", .read "a.c",
    .write "/src/a.c" [0x33], .read "./a.c", .remove "/src/a.c", .write "/lib/a.c" [], .resolve "a.c",
    .read "a.c", .read "/src/a.c"]

theorem log_of_history_changingDisk :
    let s := start (some "/src") ["/lib"] (.empty ["work"])
    (s.log changingDisk)[9]? = some (.read "a.c", .lines (some ["1", "2"])) ∧
      (s.log changingDisk)[8]? = some (.resolve "a.c", .place (some "/lib/a.c")) ∧
      s.log changingDisk.tail = (s.log changingDisk).tail ∧
      (s.log changingDisk).filter (·.1 = .read "./a.c") =
        [(.read "./a.c", .lines (some ["3"]))] := by
  intro s
  obtain ⟨hread, hresolve, hfailed, hother⟩ := log_of_history (some "/src") ["/lib"] (.empty ["work"])
  refine ⟨?_, ?_, ?_, ?_⟩
  · obtain ⟨lines, hat, hlines, -⟩ := hread (changingDisk.take 9) "a.c" (changingDisk.drop 10)
    rw [hlines ["1", "2"] (by decide)] at hat
    exact hat
  · obtain ⟨found, hat, hfound⟩ := hresolve (changingDisk.take 8) "a.c" (changingDisk.drop 9)
    have hplace : found = some "/lib/a.c" := by
      rw [hfound]
      refine .relative (by decide) ["/src"] "/lib" ["/work"] (by decide) ?_ (by decide)
      decide
    rw [hplace] at hat
    exact hat
  · exact hfailed [] "a.c" changingDisk.tail _ rfl
  · exact (hother "./a.c" changingDisk).trans (by decide)

end LineAtlas.SourceReader
