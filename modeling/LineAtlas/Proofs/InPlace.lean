import LineAtlas.Dump

/-!
# Reading in place

A builder changes what it holds part by part, and only on the way does it see that a line is not understood or
at fault. What it had changed by then would stay. A builder realizes a format when its work on a line comes to
what the format makes of the line: then it has changed nothing by the time it sees that. So reading in place
comes to reading, and a fault leaves what the lines before it have left.
-/

namespace LineAtlas

open Text

structure Desk (σ : Type) extends Reading σ where
  notices : List Notice

/-- Work that changes what is held as it goes. A fault leaves what was changed before it. -/
abbrev InPlace (σ α : Type) := EStateM Fault (Desk σ) α

namespace InPlace

variable {σ α β : Type}

def state : InPlace σ σ := do
  let k ← get
  return k.state

def update (f : σ → σ) : InPlace σ Unit :=
  modify fun k => { k with state := f k.state }

def say (severity : Severity) (text : String) : InPlace σ Unit :=
  modify fun k => { k with notices := k.notices ++ [⟨severity, text⟩] }

def attempt (x : Except Fault α) : InPlace σ α :=
  match x with
  | .ok a => return a
  | .error f => throw f

theorem run_attempt (x : Except Fault α) (k : Desk σ) : (attempt x).run k =
    match x with
    | .ok a => .ok a k
    | .error f => .error f k := by
  cases x <;> rfl

@[simp]
theorem run_state (k : Desk σ) : (state : InPlace σ σ).run k = .ok k.state k := by
  simp only [state, EStateM.run_bind, EStateM.run_get, EStateM.run_pure]

@[simp]
theorem run_update (f : σ → σ) (k : Desk σ) :
    (update f).run k = .ok () { k with state := f k.state } := by
  simp only [update, EStateM.run_modify]

@[simp]
theorem run_say (severity : Severity) (text : String) (k : Desk σ) :
    (say severity text).run k = .ok () { k with notices := k.notices ++ [⟨severity, text⟩] } := by
  simp only [say, EStateM.run_modify]

theorem run_bind_eq_ok_iff {x : InPlace σ α} {f : α → InPlace σ β} {k k' : Desk σ} {b : β} :
    (x >>= f).run k = .ok b k' ↔ ∃ a k₁, x.run k = .ok a k₁ ∧ (f a).run k₁ = .ok b k' := by
  rw [EStateM.run_bind]
  cases x.run k with
  | ok a k₁ => simp [and_assoc]
  | error f k₁ => simp

theorem run_bind_eq_error_iff {x : InPlace σ α} {g : α → InPlace σ β} {k k' : Desk σ} {f : Fault} :
    (x >>= g).run k = .error f k' ↔
      x.run k = .error f k' ∨ ∃ a k₁, x.run k = .ok a k₁ ∧ (g a).run k₁ = .error f k' := by
  rw [EStateM.run_bind]
  cases x.run k with
  | ok a k₁ => simp [and_assoc]
  | error f k₁ => simp

end InPlace

/-- A builder for one kind of dump. Its work on a line tells whether the line is understood. -/
structure Builder (σ : Type) where
  name : String
  start : σ
  work : String → InPlace σ Bool

namespace Builder

variable {σ : Type} (b : Builder σ)

def begin : Desk σ :=
  ⟨⟨b.start, #[]⟩, []⟩

def report (line : String) : InPlace σ Unit := do
  let k ← get
  if k.unrecognized.contains line then
    InPlace.say .debug s!"Unknown line in {b.name} (repeated): '{line}'"
  else
    InPlace.say .warning s!"Unknown line in {b.name}: '{line}'"
  modify fun k => { k with unrecognized := k.unrecognized.push line }

def feedLine (rawLine : String) : InPlace σ Bool := do
  let line := withoutLineEnd rawLine
  let understood ← b.work line
  if understood then
    return true
  else
    b.report line
    return false

def feed : List String → InPlace σ (List Bool)
  | [] => return []
  | line :: lines => do
    let understood ← b.feedLine line
    let rest ← feed lines
    return understood :: rest

def read (lines : List String) : EStateM.Result Fault (Desk σ) (List Bool) :=
  (b.feed lines).run b.begin

theorem run_feed_cons_eq_ok_iff {line : String} {lines : List String} {k k' : Desk σ} {vs : List Bool} :
    (b.feed (line :: lines)).run k = .ok vs k' ↔ ∃ v k₁ ws,
      (b.feedLine line).run k = .ok v k₁ ∧ (b.feed lines).run k₁ = .ok ws k' ∧ vs = v :: ws := by
  simp only [feed, InPlace.run_bind_eq_ok_iff, EStateM.run_pure, EStateM.Result.ok.injEq]
  constructor
  · rintro ⟨v, k₁, hline, ws, k₂, hlines, rfl, rfl⟩
    exact ⟨v, k₁, ws, hline, hlines, rfl⟩
  · rintro ⟨v, k₁, ws, hline, hlines, rfl⟩
    exact ⟨v, k₁, hline, ws, k', hlines, rfl, rfl⟩

theorem feed_append (earlier later : List String) : b.feed (earlier ++ later) = do
    let vs ← b.feed earlier
    let ws ← b.feed later
    return vs ++ ws := by
  induction earlier with
  | nil => simp [feed]
  | cons line earlier ih => simp only [List.cons_append, feed, ih, bind_assoc, pure_bind]

/-- Lines are read on from what the lines before them have left. -/
theorem run_feed_append (earlier later : List String) {k k₁ : Desk σ} {vs : List Bool}
    (h : (b.feed earlier).run k = .ok vs k₁) :
    (b.feed (earlier ++ later)).run k = (do return vs ++ (← b.feed later)).run k₁ := by
  rw [feed_append, EStateM.run_bind, h]

theorem run_feed_append_eq_ok_iff {earlier later : List String} {k k' : Desk σ} {vs : List Bool} :
    (b.feed (earlier ++ later)).run k = .ok vs k' ↔ ∃ us k₁ ws, (b.feed earlier).run k = .ok us k₁ ∧
      (b.feed later).run k₁ = .ok ws k' ∧ vs = us ++ ws := by
  simp only [feed_append, InPlace.run_bind_eq_ok_iff, EStateM.run_pure, EStateM.Result.ok.injEq]
  constructor
  · rintro ⟨us, k₁, hearlier, ws, k₂, hlater, rfl, rfl⟩
    exact ⟨us, k₁, ws, hearlier, hlater, rfl⟩
  · rintro ⟨us, k₁, ws, hearlier, hlater, rfl⟩
    exact ⟨us, k₁, hearlier, ws, k', hlater, rfl, rfl⟩

theorem length_of_run_feed {lines : List String} {k k' : Desk σ} {vs : List Bool}
    (h : (b.feed lines).run k = .ok vs k') : vs.length = lines.length := by
  induction lines generalizing k vs with
  | nil =>
      cases h
      rfl
  | cons line lines ih =>
      obtain ⟨v, k₁, ws, -, hlines, rfl⟩ := b.run_feed_cons_eq_ok_iff.1 h
      rw [List.length_cons, List.length_cons, ih hlines]

end Builder

/-! ## Builders and formats -/

/-- What is held after the work on a line, by what the format makes of the line: a line that is not understood
or at fault leaves what was held before. -/
def Desk.after {σ : Type} (k : Desk σ) :
    Except Fault (Option (σ × List Notice)) → EStateM.Result Fault (Desk σ) Bool
  | .ok (some (s, ns)) => .ok true { k with state := s, notices := k.notices ++ ns }
  | .ok none => .ok false k
  | .error f => .error f k

structure Builder.Realizes {σ : Type} (b : Builder σ) (d : DumpFormat σ) : Prop where
  name : b.name = d.name
  start : b.start = d.start
  run_work : ∀ line k, (b.work line).run k = k.after (d.readLine k.state line)

/-- What was read and said. After a fault what was read is lost to those who look on. -/
def told {σ α : Type} : EStateM.Result Fault (Desk σ) α → Logged (Reading σ)
  | .ok _ k => ⟨k.notices, .ok k.toReading⟩
  | .error f k => ⟨k.notices, .error f⟩

namespace Builder.Realizes

variable {σ : Type} {b : Builder σ} {d : DumpFormat σ} (h : b.Realizes d)
include h

theorem run_report (line : String) (k : Desk σ) : (b.report line).run k =
    .ok () { k with
      unrecognized := k.unrecognized.push line
      notices := k.notices ++ [d.complaint k.unrecognized line] } := by
  simp only [report, EStateM.run_bind, EStateM.run_get, DumpFormat.complaint, h.name]
  split <;> simp

theorem run_feedLine (rawLine : String) (k : Desk σ) : (b.feedLine rawLine).run k =
    match d.readLine k.state (withoutLineEnd rawLine) with
    | .ok (some (s, ns)) => .ok true { k with state := s, notices := k.notices ++ ns }
    | .ok none => .ok false { k with
        unrecognized := k.unrecognized.push (withoutLineEnd rawLine)
        notices := k.notices ++ [d.complaint k.unrecognized (withoutLineEnd rawLine)] }
    | .error f => .error f k := by
  rw [feedLine, EStateM.run_bind, h.run_work]
  rcases d.readLine k.state (withoutLineEnd rawLine) with f | _ | ⟨s, ns⟩
  · rfl
  · simp only [Desk.after, Bool.false_eq_true, if_false, EStateM.run_bind, h.run_report, EStateM.run_pure]
  · simp only [Desk.after, if_true, EStateM.run_pure]

/-- A line that is read in place is understood, or only recorded as not understood. -/
theorem run_feedLine_eq_ok_iff {rawLine : String} {k k' : Desk σ} {v : Bool} :
    (b.feedLine rawLine).run k = .ok v k' ↔
      (∃ s ns, d.readLine k.state (withoutLineEnd rawLine) = .ok (some (s, ns)) ∧ v = true ∧
        k' = { k with state := s, notices := k.notices ++ ns }) ∨
      d.readLine k.state (withoutLineEnd rawLine) = .ok none ∧ v = false ∧ k' = { k with
        unrecognized := k.unrecognized.push (withoutLineEnd rawLine)
        notices := k.notices ++ [d.complaint k.unrecognized (withoutLineEnd rawLine)] } := by
  rw [h.run_feedLine]
  rcases d.readLine k.state (withoutLineEnd rawLine) with f | _ | ⟨s, ns⟩
  · simp
  · simp [eq_comm]
  · constructor
    · intro heq
      cases heq
      exact .inl ⟨s, ns, rfl, rfl, rfl⟩
    · rintro (⟨_, _, heq, rfl, rfl⟩ | ⟨hnone, -, -⟩)
      · cases heq
        rfl
      · cases hnone

theorem run_feedLine_eq_error_iff {rawLine : String} {k k' : Desk σ} {f : Fault} :
    (b.feedLine rawLine).run k = .error f k' ↔
      d.readLine k.state (withoutLineEnd rawLine) = .error f ∧ k' = k := by
  rw [h.run_feedLine]
  rcases d.readLine k.state (withoutLineEnd rawLine) with f | _ | ⟨s, ns⟩
  · simp [eq_comm]
  · simp
  · simp

/-- A fault leaves what the lines before it have left. -/
theorem run_feed_eq_error_iff {lines : List String} {k k' : Desk σ} {f : Fault} :
    (b.feed lines).run k = .error f k' ↔ ∃ earlier line later vs, lines = earlier ++ line :: later ∧
      (b.feed earlier).run k = .ok vs k' ∧ d.readLine k'.state (withoutLineEnd line) = .error f := by
  constructor
  · intro hfeed
    induction lines generalizing k with
    | nil => cases hfeed
    | cons line lines ih =>
        rw [feed, InPlace.run_bind_eq_error_iff] at hfeed
        rcases hfeed with hline | ⟨v, k₁, hline, hfeed⟩
        · obtain ⟨hread, rfl⟩ := h.run_feedLine_eq_error_iff.1 hline
          exact ⟨[], line, lines, [], rfl, rfl, hread⟩
        · rw [InPlace.run_bind_eq_error_iff] at hfeed
          rcases hfeed with hlines | ⟨ws, k₂, -, hfeed⟩
          · obtain ⟨earlier, line', later, vs, rfl, hearlier, hread⟩ := ih hlines
            refine ⟨line :: earlier, line', later, v :: vs, rfl, ?_, hread⟩
            exact b.run_feed_cons_eq_ok_iff.2 ⟨v, k₁, vs, hline, hearlier, rfl⟩
          · cases hfeed
  · rintro ⟨earlier, line, later, vs, rfl, hearlier, hread⟩
    have hline := h.run_feedLine_eq_error_iff.2 ⟨hread, rfl⟩
    rw [b.run_feed_append _ _ hearlier, feed]
    simp only [EStateM.run_bind, hline]

/-- Reading in place comes to reading. -/
theorem told_run_feed (lines : List String) (k : Desk σ) : told ((b.feed lines).run k) =
    ⟨k.notices ++ (d.feed k.toReading lines).notices, (d.feed k.toReading lines).outcome⟩ := by
  induction lines generalizing k with
  | nil => simp [feed, told]
  | cons line lines ih =>
      have hrest (v : Bool) (k₁ : Desk σ) :
          told (((b.feed lines) >>= fun ws => pure (v :: ws)).run k₁) = told ((b.feed lines).run k₁) := by
        rw [EStateM.run_bind]
        cases (b.feed lines).run k₁ <;> rfl
      rw [feed, EStateM.run_bind, h.run_feedLine, DumpFormat.feed_cons, DumpFormat.feedLine]
      rcases d.readLine k.state (withoutLineEnd line) with f | _ | ⟨s, ns⟩
      · simp [told, Logged.fail]
      · simp only [hrest, ih, Logged.bind_ok, List.append_assoc]
      · simp only [hrest, ih, Logged.bind_ok, List.append_assoc]

theorem told_read (lines : List String) : told (b.read lines) = d.read lines := by
  rw [Builder.read, h.told_run_feed, begin, h.start]
  rfl

end Builder.Realizes

end LineAtlas
