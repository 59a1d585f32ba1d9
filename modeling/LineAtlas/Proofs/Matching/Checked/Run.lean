import LineAtlas.Proofs.Matching.Checked.Tables
import LineAtlas.Proofs.Matching.Evidence

/-!
# No look-up without an answer

Whatever is to be matched, a run that looks up all that it needs ends with the result of the matching.
-/

namespace LineAtlas.Matching

open Problem

variable {p : Problem}

theorem Checked.runFilters_eq {c : Candidates} (h : p.Sound c) (stages : List Stage) (found : Evidence) :
    Checked.runFilters p stages c found = answered (p.runFilters stages c found) := by
  induction stages generalizing c found with
  | nil =>
      rw [Checked.runFilters, Checked.bestEffort_eq h]
      rfl
  | cons stage rest ih =>
      have hfilter := h.filter stage
      rw [Checked.runFilters, Problem.runFilters, Checked.filter_eq h]
      cases p.evidenceAt c stage with
      | error f => rfl
      | ok more =>
          change (Checked.found (Checked.complete p (p.filter c stage)) >>= _) = _
          rw [Checked.complete_eq hfilter, Except.ok_bind]
          dsimp only
          cases p.complete? (p.filter c stage) with
          | none => exact ih hfilter _
          | some table => rfl

/-- All that a run looks up is there, for everything that can be matched: sections that are listed twice,
not at all or without code, and sequences that are empty, repeated or lie outside of all sections. For every
filter has an answer where sequences with candidates have rows and candidates are listed sections with code;
that holds when a run begins, and a filter keeps it. So a run ends with its result, or with the one fault
that it can have, and that is a mean beyond all doubles. -/
theorem run_defined (p : Problem) :
    p.Sound p.initial ∧
      (∀ c, p.Sound c → ∀ stage,
        Checked.filter p c stage =
            Checked.answered ((p.evidenceAt c stage).map fun found => (p.filter c stage, found)) ∧
          p.Sound (p.filter c stage)) ∧
      Checked.run p = Checked.answered p.run ∧
      ∀ f, p.run = .error f ↔
        f = .quotientTooLarge ∧ p.Overflows (p.after [.size, .overlap, .alignment] p.initial) := by
  refine ⟨p.sound_initial, ?_, ?_, fun f => run_eq_error_iff⟩
  · intro c hc stage
    exact ⟨Checked.filter_eq hc stage, hc.filter stage⟩
  · rw [Checked.run, Checked.runFilters_eq p.sound_initial]
    exact Checked.answered_bind fun _ => rfl

/-- A section that is listed but not there, one that is listed twice and one whose only entry is empty; a
sequence without rows, two equal ones and one outside of all sections; symbols of a section that is not
listed and of names without a declaration. -/
def awkward : Problem where
  listed := [".gone", ".a", ".a", ".b", ".none"]
  code :=
    let run := [⟨0, "48 89 e5 c3", none⟩, ⟨4, "48 89 e5 c3", none⟩]
    [(".a", [("f", []), ("g", run)]), (".b", [("g", run)]), (".none", [("h", [])])]
  sequences :=
    [.empty, .ofList [(0, ⟨some "a.c", 1, 0, true, 0⟩), (4, ⟨some "a.c", 2, 0, true, 0⟩)],
      .ofList [(0, ⟨some "a.c", 1, 0, true, 0⟩), (4, ⟨some "a.c", 2, 0, true, 0⟩)],
      .ofList [(100, ⟨some "b.c", 1, 0, true, 0⟩), (200, ⟨some "b.c", 2, 0, true, 0⟩)],
      .ofList [(4, ⟨some "c.c", 1, 0, true, 0⟩), (8, ⟨some "c.c", 2, 0, true, 0⟩)]]
  symbols := [(".unlisted", [(0, [⟨"f", 4⟩])]), (".a", [(0, [⟨"g", 4⟩]), (77, [⟨"h", 80⟩])])]
  declarations := []

/-- Two sections of one extent with a symbol for the start of a sequence, whose row there is so far from the
declaration that no double is near. -/
def distant : Problem where
  listed := [".a", ".b"]
  code :=
    let run := [⟨0, "48 89 e5 c3", none⟩]
    [(".a", [("f", run)]), (".b", [("f", run)])]
  sequences := [.ofList [(0, ⟨some "a.c", 10 ^ 200 * 10 ^ 200, 0, true, 0⟩), (4, ⟨some "a.c", 1, 0, true, 0⟩)]]
  symbols := [(".a", [(0, [⟨"f", 4⟩])])]
  declarations := [("f", ⟨"a.c", 1⟩)]

theorem run_defined_awkward :
    let c := [[], [".a", ".a", ".b"], [], [], [".a", ".a", ".b"]]
    awkward.Sound c ∧ Checked.filter awkward c .alignment = Checked.answered (.ok (c, [])) ∧
      ∃ r, Checked.run awkward = Checked.answered (.ok r) ∧ r.stage = .bestEffort ∧
        r.table = [(".a", [⟨⟨0, 4⟩, 1⟩]), (".b", [⟨⟨4, 8⟩, 4⟩])] ∧
        r.duplicates = [(2, 1)] ∧ r.unmatched = [0, 3] ∧
      Checked.run distant = Checked.answered (.error .quotientTooLarge) ∧
        distant.Overflows [[".a", ".b"]] := by
  intro c
  obtain ⟨hinitial, hfilter, hrun, -⟩ := run_defined awkward
  have hsize : awkward.filter awkward.initial .size = c := by decide
  have hsound : awkward.Sound c := hsize ▸ (hfilter _ hinitial .size).2
  have haligned : awkward.filter c .alignment = c := by decide
  have hr : awkward.run = .ok ⟨[(".a", [⟨⟨0, 4⟩, 1⟩]), (".b", [⟨⟨4, 8⟩, 4⟩])], .bestEffort,
      [(2, 1)], [0, 3], [], []⟩ := by decide
  obtain ⟨-, -, hfar, hfault⟩ := run_defined distant
  have herror : distant.run = .error .quotientTooLarge := by decide +kernel
  have hplaces : distant.after [.size, .overlap, .alignment] distant.initial = [[".a", ".b"]] := by decide
  refine ⟨hsound, ?_, _, hr ▸ hrun, rfl, rfl, rfl, rfl, herror ▸ hfar, ?_⟩
  · rw [(hfilter c hsound .alignment).1, haligned]
    rfl
  · exact hplaces ▸ ((hfault _).1 herror).2

/-- Candidates that no run comes to leave a filter without an answer. -/
example : Checked.filterBySize awkward [[], [".gone"], [], [], []] = none ∧
    Checked.filterByAlignment awkward [[".a", ".b"], [], [], [], []] = none := by decide

end LineAtlas.Matching
