import LineAtlas.Listing
import LineAtlas.Proofs.Keyed

/-!
# A listing names each place once

Sections and entries may be named several times in a dump. The table made from it has each of them once, since
a line adds to what is there or opens what is not.
-/

namespace LineAtlas

/-- No section stands in the table twice, and no entry twice in its section. -/
structure CodeTable.Distinct (code : CodeTable) : Prop where
  sections : (Keyed.keys code).Nodup
  entries : ∀ s entries, (s, entries) ∈ code → (Keyed.keys entries).Nodup

namespace CodeTable.Distinct

variable {code : CodeTable} (h : code.Distinct)
include h

theorem change (s : String) {f : Entries → Entries}
    (hf : ∀ entries, (Keyed.keys entries).Nodup → (Keyed.keys (f entries)).Nodup) :
    Distinct (Keyed.change code s f) := by
  refine ⟨by rw [Keyed.keys_change]; exact h.sections, ?_⟩
  intro s' entries hmem
  rcases Keyed.mem_change hmem with hmem | ⟨old, hold, rfl⟩
  · exact h.entries s' entries hmem
  · exact hf old (h.entries s' old hold)

theorem addSection (s : String) : Distinct (Keyed.alter code s fun entries => entries.getD []) := by
  refine ⟨Keyed.nodup_keys_alter h.sections s _, ?_⟩
  intro s' entries hmem
  rcases Keyed.mem_alter_getD hmem with hmem | rfl
  · exact h.entries s' entries hmem
  · exact .nil

theorem nodup_entries (s : String) : (Keyed.keys ((Keyed.get? code s).getD [])).Nodup := by
  cases hget : Keyed.get? code s with
  | none => exact .nil
  | some entries => exact h.entries s entries (Keyed.mem_of_get? hget)

end CodeTable.Distinct

namespace Listing

theorem distinct_change {l : Listing} (h : l.code.Distinct) (s e : String)
    (f : List Instruction → List Instruction) : (l.change s e f).code.Distinct := by
  have hentries : ∀ entries : Entries, (Keyed.keys entries).Nodup →
      (Keyed.keys (Keyed.change entries e f)).Nodup := by
    intro entries hentries
    rwa [Keyed.keys_change]
  exact h.change s hentries

/-- A line adds to what is there or opens a section or an entry that is not. -/
theorem distinct_step {l l' : Listing} {line : Line} (h : l.code.Distinct)
    (hstep : l.step line = .ok (some l')) : l'.code.Distinct := by
  cases line with
  | instruction address encoded text =>
      rw [step] at hstep
      split at hstep
      · cases hstep
      · cases hstep
        exact distinct_change h _ _ _
  | relocation symbol =>
      simp only [step] at hstep
      split at hstep
      · cases hstep
      · cases hstep
      · rename_i s e run _ _ _
        cases hlast : relocateLast symbol l.currentInstructions with
        | error f =>
            rw [hlast] at hstep
            cases hstep
        | ok run =>
            rw [hlast] at hstep
            cases hstep
            exact distinct_change h _ _ _
  | entry name =>
      rw [step] at hstep
      split at hstep
      · cases hstep
      · cases hstep
        exact h.change _ fun entries hentries => Keyed.nodup_keys_alter hentries name _
  | header name =>
      cases hstep
      exact h.addSection name
  | filler =>
      cases hstep
      exact h
  | banner =>
      cases hstep
      exact h

theorem distinct_readLine {l l' : Listing} {line : String} {ns : List Notice} (h : l.code.Distinct)
    (hread : l.readLine line = .ok (some (l', ns))) : l'.code.Distinct := by
  rw [readLine] at hread
  split at hread
  · cases hread
  · rename_i content _
    cases hstep : l.step content with
    | error f =>
        rw [hstep] at hread
        cases hread
    | ok next =>
        rw [hstep] at hread
        cases next with
        | none => cases hread
        | some next =>
            cases hread
            exact distinct_step h hstep

theorem distinct_of_read {lines : List String} {r : Reading Listing}
    (h : (read lines).outcome = .ok r) : r.state.code.Distinct := by
  rw [read, Logged.outcome_bind_eq_ok_iff] at h
  obtain ⟨r', hfeed, h⟩ := h
  cases h
  have hempty : Listing.empty.code.Distinct := ⟨.nil, by simp [empty]⟩
  have hkept : ∀ (l : Listing) (line : String) (l' : Listing) (ns : List Notice),
      format.readLine l line = .ok (some (l', ns)) → l.code.Distinct → l'.code.Distinct :=
    fun _ _ _ _ hread hl => distinct_readLine hl hread
  exact format.feed_preserves hkept hempty hfeed

end Listing

end LineAtlas
