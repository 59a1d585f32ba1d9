import LineAtlas.Proofs.InPlace

/-!
# Lines that are not understood

A line that is not understood is recorded and noticed, and changes nothing else. What lines in turn do depends on
the state alone, so such a line may be left out: the lines after it are understood or not as they were, and the
state is the same in the end. The first time such a line is met a warning is given, and a quiet notice each time
it comes again.
-/

namespace LineAtlas

open Text

variable {σ : Type}

/-- Lines do not tell states apart that are alike: they are understood in both or in neither, and leave them
alike. -/
structure DumpFormat.Keeps (d : DumpFormat σ) (Alike : σ → σ → Prop) : Prop where
  rejects : ∀ {s t line}, Alike s t → d.readLine s line = .ok none → d.readLine t line = .ok none
  accepts : ∀ {s t line s' ns}, Alike s t → d.readLine s line = .ok (some (s', ns)) →
    ∃ t' ms, d.readLine t line = .ok (some (t', ms)) ∧ Alike s' t'

theorem DumpFormat.keeps_eq (d : DumpFormat σ) : d.Keeps (· = ·) where
  rejects := by
    rintro s t line rfl hread
    exact hread
  accepts := by
    rintro s t line s' ns rfl hread
    exact ⟨s', ns, hread, rfl⟩

def rejected (lines : List String) (understood : List Bool) : List String :=
  (lines.zip understood).filterMap fun (line, v) => if v then none else some (withoutLineEnd line)

@[simp]
theorem rejected_nil (vs : List Bool) : rejected [] vs = [] := rfl

@[simp]
theorem rejected_cons_true (line : String) (lines : List String) (vs : List Bool) :
    rejected (line :: lines) (true :: vs) = rejected lines vs := rfl

@[simp]
theorem rejected_cons_false (line : String) (lines : List String) (vs : List Bool) :
    rejected (line :: lines) (false :: vs) = withoutLineEnd line :: rejected lines vs := rfl

namespace Builder

variable (b : Builder σ)

def warning (line : String) : Notice :=
  ⟨.warning, s!"Unknown line in {b.name}: '{line}'"⟩

def reminder (line : String) : Notice :=
  ⟨.debug, s!"Unknown line in {b.name} (repeated): '{line}'"⟩

theorem warning_inj {line other : String} : b.warning line = b.warning other ↔ line = other := by
  simp [warning, toString]

theorem reminder_inj {line other : String} : b.reminder line = b.reminder other ↔ line = other := by
  simp [reminder, toString]

theorem warning_ne_reminder (line other : String) : b.warning line ≠ b.reminder other := by
  intro h
  cases congrArg Notice.severity h

def complaint (earlier : List String) (line : String) : Notice :=
  if line ∈ earlier then b.reminder line else b.warning line

/-- No line that is understood is noticed in the words for one that is not. -/
def Distinguishes (d : DumpFormat σ) : Prop :=
  ∀ s line s' ns, d.readLine s line = .ok (some (s', ns)) →
    ∀ n ∈ ns, ∀ other, n ≠ b.warning other ∧ n ≠ b.reminder other

theorem distinguishes_of_silent {d : DumpFormat σ}
    (h : ∀ {s line s' ns}, d.readLine s line = .ok (some (s', ns)) → ns = []) : b.Distinguishes d := by
  intro s line s' ns hread n hn
  rw [h hread] at hn
  cases hn

/-- There was one warning for each of the lines recorded, and a reminder each time it came again. -/
structure Noticed (k : Desk σ) : Prop where
  count_warning : ∀ line,
    k.notices.count (b.warning line) = if line ∈ k.unrecognized.toList then 1 else 0
  count_reminder : ∀ line,
    k.notices.count (b.reminder line) = k.unrecognized.toList.count line - 1

theorem count_warning_concat (seen : List String) (line other : String) :
    (if other ∈ seen then 1 else 0) + [b.complaint seen line].count (b.warning other) =
      if other ∈ seen ++ [line] then 1 else 0 := by
  have hne := (b.warning_ne_reminder other line).symm
  by_cases hseen : line ∈ seen
  · by_cases heq : other = line
    · subst heq
      simp [complaint, hseen, hne]
    · simp [complaint, hseen, hne, heq]
  · by_cases heq : other = line
    · subst heq
      simp [complaint, hseen]
    · simp [complaint, hseen, heq, Ne.symm heq, b.warning_inj]

theorem count_reminder_concat (seen : List String) (line other : String) :
    seen.count other - 1 + [b.complaint seen line].count (b.reminder other) =
      (seen ++ [line]).count other - 1 := by
  have hne := b.warning_ne_reminder line other
  by_cases hseen : line ∈ seen
  · by_cases heq : other = line
    · subst heq
      have hpos := List.count_pos_iff.2 hseen
      simp only [complaint, if_pos hseen, List.count_append, List.count_singleton_self]
      omega
    · simp [complaint, hseen, Ne.symm heq, b.reminder_inj]
  · by_cases heq : other = line
    · subst heq
      simp [complaint, hseen, hne, List.count_eq_zero.2 hseen]
    · simp [complaint, hseen, hne, Ne.symm heq]

theorem noticed_begin : b.Noticed b.begin where
  count_warning line := by simp [begin]
  count_reminder line := by simp [begin]

/-- A dump is read up to one of its lines, then that line, then the others. -/
theorem read_eq_ok_split {earlier later : List String} {line : String} {vs : List Bool} {v : Bool} {k : Desk σ}
    (h : b.read (earlier ++ line :: later) = .ok vs k) (hv : vs[earlier.length]? = some v) :
    ∃ us k₁ k₂ ws, b.read earlier = .ok us k₁ ∧ (b.feedLine line).run k₁ = .ok v k₂ ∧
      (b.feed later).run k₂ = .ok ws k ∧ vs.eraseIdx earlier.length = us ++ ws := by
  obtain ⟨us, k₁, _, hearlier, hrest, rfl⟩ := b.run_feed_append_eq_ok_iff.1 h
  obtain ⟨u, k₂, ws, hline, hlater, rfl⟩ := b.run_feed_cons_eq_ok_iff.1 hrest
  rw [← b.length_of_run_feed hearlier] at hv ⊢
  obtain rfl : u = v := by simpa using hv
  refine ⟨us, k₁, k₂, ws, hearlier, hline, hlater, ?_⟩
  rw [List.eraseIdx_append_of_length_le (Nat.le_refl _)]
  simp

theorem read_append_of_run_feed {earlier later : List String} {us ws : List Bool} {k₁ k : Desk σ}
    (hearlier : b.read earlier = .ok us k₁) (hlater : (b.feed later).run k₁ = .ok ws k) :
    b.read (earlier ++ later) = .ok (us ++ ws) k :=
  b.run_feed_append_eq_ok_iff.2 ⟨us, k₁, ws, hearlier, hlater, rfl⟩

end Builder

namespace Builder.Realizes

variable {b : Builder σ} {d : DumpFormat σ} (h : b.Realizes d)
include h

theorem complaint_eq (earlier : Array String) (line : String) :
    d.complaint earlier line = b.complaint earlier.toList line := by
  simp only [DumpFormat.complaint, complaint, reminder, warning, h.name, Array.contains_iff_mem,
    Array.mem_toList_iff]

/-- From states that are alike, the same lines are understood, and the states stay alike. -/
theorem run_feed_of_keeps {Alike : σ → σ → Prop} (hkeeps : d.Keeps Alike) {lines : List String}
    {k k' l : Desk σ} {vs : List Bool} (hfeed : (b.feed lines).run k = .ok vs k')
    (halike : Alike k.state l.state) :
    ∃ l', (b.feed lines).run l = .ok vs l' ∧ Alike k'.state l'.state := by
  induction lines generalizing k l vs with
  | nil =>
      cases hfeed
      exact ⟨l, rfl, halike⟩
  | cons line lines ih =>
      obtain ⟨v, k₁, ws, hline, hlines, rfl⟩ := b.run_feed_cons_eq_ok_iff.1 hfeed
      have hnext : ∃ l₁, (b.feedLine line).run l = .ok v l₁ ∧ Alike k₁.state l₁.state := by
        rcases h.run_feedLine_eq_ok_iff.1 hline with ⟨s, ns, hread, rfl, rfl⟩ | ⟨hread, rfl, rfl⟩
        · obtain ⟨t, ms, hread', halike'⟩ := hkeeps.accepts halike hread
          exact ⟨_, h.run_feedLine_eq_ok_iff.2 (.inl ⟨t, ms, hread', rfl, rfl⟩), halike'⟩
        · have hread' := hkeeps.rejects halike hread
          exact ⟨_, h.run_feedLine_eq_ok_iff.2 (.inr ⟨hread', rfl, rfl⟩), halike⟩
      obtain ⟨l₁, hline', halike₁⟩ := hnext
      obtain ⟨l', hlines', halike'⟩ := ih hlines halike₁
      exact ⟨l', b.run_feed_cons_eq_ok_iff.2 ⟨v, l₁, ws, hline', hlines', rfl⟩, halike'⟩

theorem unrecognized_of_run_feed {lines : List String} {k k' : Desk σ} {vs : List Bool}
    (hfeed : (b.feed lines).run k = .ok vs k') :
    k'.unrecognized.toList = k.unrecognized.toList ++ rejected lines vs := by
  induction lines generalizing k vs with
  | nil =>
      cases hfeed
      simp
  | cons line lines ih =>
      obtain ⟨v, k₁, ws, hline, hlines, rfl⟩ := b.run_feed_cons_eq_ok_iff.1 hfeed
      rw [ih hlines]
      rcases h.run_feedLine_eq_ok_iff.1 hline with ⟨s, ns, -, rfl, rfl⟩ | ⟨-, rfl, rfl⟩
      · simp
      · simp

theorem unrecognized_of_read {lines : List String} {k : Desk σ} {vs : List Bool}
    (hread : b.read lines = .ok vs k) : k.unrecognized.toList = rejected lines vs := by
  simpa [begin] using h.unrecognized_of_run_feed hread

theorem noticed_of_run_feedLine (hdist : b.Distinguishes d) {line : String} {k k' : Desk σ} {v : Bool}
    (hk : b.Noticed k) (hline : (b.feedLine line).run k = .ok v k') : b.Noticed k' := by
  rcases h.run_feedLine_eq_ok_iff.1 hline with ⟨s, ns, hread, -, rfl⟩ | ⟨-, -, rfl⟩
  · constructor
    · intro other
      have hnone : ns.count (b.warning other) = 0 :=
        List.count_eq_zero.2 fun hmem => (hdist _ _ _ _ hread _ hmem other).1 rfl
      rw [List.count_append, hnone, hk.count_warning, Nat.add_zero]
    · intro other
      have hnone : ns.count (b.reminder other) = 0 :=
        List.count_eq_zero.2 fun hmem => (hdist _ _ _ _ hread _ hmem other).2 rfl
      rw [List.count_append, hnone, hk.count_reminder, Nat.add_zero]
  · have hpush : (k.unrecognized.push (withoutLineEnd line)).toList =
        k.unrecognized.toList ++ [withoutLineEnd line] := Array.toList_push
    constructor
    · intro other
      rw [h.complaint_eq, List.count_append, hk.count_warning, hpush, b.count_warning_concat]
    · intro other
      rw [h.complaint_eq, List.count_append, hk.count_reminder, hpush, b.count_reminder_concat]

theorem noticed_of_run_feed (hdist : b.Distinguishes d) {lines : List String} {k k' : Desk σ}
    {vs : List Bool} (hk : b.Noticed k) (hfeed : (b.feed lines).run k = .ok vs k') : b.Noticed k' := by
  induction lines generalizing k vs with
  | nil =>
      cases hfeed
      exact hk
  | cons line lines ih =>
      obtain ⟨v, k₁, ws, hline, hlines, rfl⟩ := b.run_feed_cons_eq_ok_iff.1 hfeed
      exact ih (h.noticed_of_run_feedLine hdist hk hline) hlines

end Builder.Realizes

/-! ## Leaving a line out -/

/-- What a builder does on lines that are not understood, when it reads a dump to the end. -/
structure Builder.RejectsCleanly (b : Builder σ) : Prop where
  /-- The work on such a line leaves all that is held as it was. -/
  untouched : ∀ line k k', (b.work line).run k = .ok false k' → k' = k
  /-- Without the line the others are understood as they were, and the state is the same in the end. -/
  leftOut : ∀ earlier line later understood k, b.read (earlier ++ line :: later) = .ok understood k →
    understood[earlier.length]? = some false →
    ∃ k', b.read (earlier ++ later) = .ok (understood.eraseIdx earlier.length) k' ∧ k'.state = k.state
  /-- These lines are recorded in order, each time they come. -/
  recorded : ∀ lines understood k, b.read lines = .ok understood k →
    k.unrecognized.toList = rejected lines understood
  /-- When the line is read, one notice is given: a warning unless the line was rejected before. -/
  noticed : ∀ earlier line later understood k, b.read (earlier ++ line :: later) = .ok understood k →
    understood[earlier.length]? = some false →
    ∃ before k₁ k₂, b.read earlier = .ok before k₁ ∧ (b.feedLine line).run k₁ = .ok false k₂ ∧
      k₂.notices = k₁.notices ++ [b.complaint (rejected earlier before) (withoutLineEnd line)]
  /-- In the end there is one warning for each of these lines, -/
  warned : ∀ lines understood k, b.read lines = .ok understood k → ∀ line,
    k.notices.count (b.warning line) = if line ∈ rejected lines understood then 1 else 0
  /-- and a quiet notice for each time one came again. -/
  reminded : ∀ lines understood k, b.read lines = .ok understood k → ∀ line,
    k.notices.count (b.reminder line) = (rejected lines understood).count line - 1

theorem Builder.Realizes.rejectsCleanly {b : Builder σ} {d : DumpFormat σ} (h : b.Realizes d)
    (hdist : b.Distinguishes d) : b.RejectsCleanly where
  untouched line k k' hwork := by
    rw [h.run_work] at hwork
    rcases hread : d.readLine k.state line with f | _ | ⟨s, ns⟩
    · rw [hread] at hwork
      cases hwork
    · rw [hread] at hwork
      cases hwork
      rfl
    · rw [hread] at hwork
      cases hwork
  leftOut earlier line later vs k hread hline := by
    obtain ⟨us, k₁, k₂, ws, hearlier, hrun, hlater, herase⟩ := b.read_eq_ok_split hread hline
    obtain ⟨_, _, -, hfalse, -⟩ | ⟨-, -, rfl⟩ := h.run_feedLine_eq_ok_iff.1 hrun
    · cases hfalse
    · obtain ⟨k', hlater', hstate⟩ := h.run_feed_of_keeps d.keeps_eq hlater (l := k₁) rfl
      rw [herase]
      exact ⟨k', b.read_append_of_run_feed hearlier hlater', hstate.symm⟩
  recorded lines vs k hread := h.unrecognized_of_read hread
  noticed earlier line later vs k hread hline := by
    obtain ⟨us, k₁, k₂, ws, hearlier, hrun, -, -⟩ := b.read_eq_ok_split hread hline
    refine ⟨us, k₁, k₂, hearlier, hrun, ?_⟩
    obtain ⟨_, _, -, hfalse, -⟩ | ⟨-, -, rfl⟩ := h.run_feedLine_eq_ok_iff.1 hrun
    · cases hfalse
    · rw [h.complaint_eq, h.unrecognized_of_read hearlier]
  warned lines vs k hread line := by
    rw [← h.unrecognized_of_read hread]
    exact (h.noticed_of_run_feed hdist b.noticed_begin hread).count_warning line
  reminded lines vs k hread line := by
    rw [← h.unrecognized_of_read hread]
    exact (h.noticed_of_run_feed hdist b.noticed_begin hread).count_reminder line

end LineAtlas
