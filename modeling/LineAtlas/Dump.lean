import LineAtlas.Logged
import LineAtlas.Text.Scan

/-!
# Reading a dump

A dump is read line by line. A line that is not understood changes nothing but the record of such lines:
it is noticed as a warning the first time and quietly when it comes again. The banner that names the file
format is common to all dumps.
-/

namespace LineAtlas

open Text

/-- What sets one kind of dump apart: its name in notices, what is known before the first line, and what a
line adds to it. A line that is not understood adds `none`. -/
structure DumpFormat (σ : Type) where
  name : String
  start : σ
  readLine : σ → String → Except Fault (Option (σ × List Notice))

structure Reading (σ : Type) where
  state : σ
  unrecognized : Array String

namespace DumpFormat

variable {σ : Type} (d : DumpFormat σ)

def begin : Reading σ :=
  ⟨d.start, #[]⟩

def complaint (earlier : Array String) (line : String) : Notice :=
  if earlier.contains line then ⟨.debug, s!"Unknown line in {d.name} (repeated): '{line}'"⟩
  else ⟨.warning, s!"Unknown line in {d.name}: '{line}'"⟩

def feedLine (r : Reading σ) (rawLine : String) : Logged (Reading σ) :=
  let line := withoutLineEnd rawLine
  match d.readLine r.state line with
  | .error f => Logged.fail f
  | .ok (some (s, ns)) => ⟨ns, .ok { r with state := s }⟩
  | .ok none => ⟨[d.complaint r.unrecognized line],
      .ok { r with unrecognized := r.unrecognized.push line }⟩

def feed (r : Reading σ) : List String → Logged (Reading σ)
  | [] => pure r
  | line :: lines => do
    let r ← d.feedLine r line
    feed r lines

def read (lines : List String) : Logged (Reading σ) :=
  d.feed d.begin lines

@[simp]
theorem feed_nil (r : Reading σ) : d.feed r [] = pure r := rfl

theorem feed_cons (r : Reading σ) (line : String) (lines : List String) :
    d.feed r (line :: lines) = d.feedLine r line >>= fun r => d.feed r lines := rfl

theorem feed_append (r : Reading σ) (earlier later : List String) :
    d.feed r (earlier ++ later) = d.feed r earlier >>= fun r => d.feed r later := by
  induction earlier generalizing r with
  | nil => rfl
  | cons line earlier ih =>
    simp only [List.cons_append, feed_cons, ih, Logged.bind_assoc]

/-- A line that is read without a fault is understood, or only recorded as not understood. -/
theorem feedLine_cases {r r' : Reading σ} {line : String}
    (h : (d.feedLine r line).outcome = .ok r') :
    (∃ s ns, d.readLine r.state (withoutLineEnd line) = .ok (some (s, ns)) ∧
        r' = { r with state := s }) ∨
      d.readLine r.state (withoutLineEnd line) = .ok none ∧
        r' = { r with unrecognized := r.unrecognized.push (withoutLineEnd line) } := by
  simp only [feedLine] at h
  split at h
  · cases h
  · rename_i s ns hread
    cases h
    exact .inl ⟨s, ns, hread, rfl⟩
  · rename_i hread
    cases h
    exact .inr ⟨hread, rfl⟩

theorem feedLine_eq_error_iff {r : Reading σ} {line : String} {f : Fault} :
    (d.feedLine r line).outcome = .error f ↔
      d.readLine r.state (withoutLineEnd line) = .error f := by
  simp only [feedLine]
  split <;> simp_all [Logged.fail]

/-- The last line of a dump is read after the others. -/
theorem read_concat {lines : List String} {line : String} {r' : Reading σ}
    (h : (d.read (lines ++ [line])).outcome = .ok r') :
    ∃ r, (d.read lines).outcome = .ok r ∧ (d.feedLine r line).outcome = .ok r' := by
  rw [read, feed_append, Logged.outcome_bind_eq_ok_iff] at h
  obtain ⟨r, hlines, h⟩ := h
  rw [feed_cons, Logged.outcome_bind_eq_ok_iff] at h
  obtain ⟨r₁, hline, h⟩ := h
  cases h
  exact ⟨r, hlines, hline⟩

/-- What every line that is understood keeps, a dump keeps. -/
theorem feed_preserves {P : σ → Prop}
    (h : ∀ s line s' ns, d.readLine s line = .ok (some (s', ns)) → P s → P s')
    {r r' : Reading σ} {lines : List String} (hr : P r.state)
    (hfeed : (d.feed r lines).outcome = .ok r') : P r'.state := by
  induction lines generalizing r with
  | nil =>
    cases hfeed
    exact hr
  | cons line lines ih =>
    rw [feed_cons, Logged.outcome_bind_eq_ok_iff] at hfeed
    obtain ⟨r₁, hline, hlines⟩ := hfeed
    apply ih _ hlines
    rcases d.feedLine_cases hline with ⟨s, ns, hread, rfl⟩ | ⟨-, rfl⟩
    · exact h _ _ _ _ hread hr
    · exact hr

/-- A dump is at fault where one of its lines is, after the lines before it. -/
theorem feed_eq_error_iff {r : Reading σ} {lines : List String} {f : Fault} :
    (d.feed r lines).outcome = .error f ↔ ∃ earlier line later a, lines = earlier ++ line :: later ∧
      (d.feed r earlier).outcome = .ok a ∧
      d.readLine a.state (withoutLineEnd line) = .error f := by
  constructor
  · intro h
    induction lines generalizing r with
    | nil => cases h
    | cons line lines ih =>
        rw [feed_cons, Logged.outcome_bind] at h
        cases hline : (d.feedLine r line).outcome with
        | error e =>
            rw [hline] at h
            cases h
            exact ⟨[], line, lines, r, rfl, rfl, d.feedLine_eq_error_iff.1 hline⟩
        | ok r' =>
            rw [hline] at h
            obtain ⟨earlier, line', later, a, rfl, hfeed, hread⟩ := ih h
            refine ⟨line :: earlier, line', later, a, rfl, ?_, hread⟩
            rw [feed_cons, Logged.outcome_bind, hline]
            exact hfeed
  · rintro ⟨earlier, line, later, a, rfl, hfeed, hread⟩
    have hline := d.feedLine_eq_error_iff.2 hread
    rw [feed_append, Logged.outcome_bind, hfeed]
    change (d.feed a (line :: later)).outcome = .error f
    rw [feed_cons, Logged.outcome_bind, hline]
    rfl

theorem exists_read_eq_ok (h : ∀ s line f, d.readLine s line ≠ .error f) (lines : List String) :
    ∃ r, (d.read lines).outcome = .ok r := by
  cases hread : (d.read lines).outcome with
  | ok r => exact ⟨r, rfl⟩
  | error f =>
      obtain ⟨_, line, _, a, -, -, hline⟩ := d.feed_eq_error_iff.1 hread
      exact absurd hline (h _ _ _)

end DumpFormat

def formatFollows (cs : List Char) : Bool :=
  (((blanks? cs).bind (skip? "file format ")).bind oneLine?).isSome

/-- Whether the words `file format` follow some colon of a single line that ends a word; `inWord` tells
whether the character before was no blank. -/
def bannerFrom (inWord : Bool) : List Char → Bool
  | [] => false
  | c :: cs =>
    (inWord && c == ':' && formatFollows cs) || (c != '\n' && bannerFrom (!isBlank c) cs)

def isBanner (line : List Char) : Bool :=
  bannerFrom false line

end LineAtlas
