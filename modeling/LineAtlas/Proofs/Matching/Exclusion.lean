import LineAtlas.Proofs.Matching.Candidates
import Mathlib.Data.List.Forall2

/-!
# Excluding until nothing changes

A sequence with a single candidate keeps it, and so the reservation that it makes. So whatever a round of
excluding takes away stays justified by a reservation to the end, and what is left to the ambiguous
sequences in the end are exactly the candidates on which they overlap none. Every round but the last takes
a candidate away.
-/

namespace LineAtlas.Matching

/-! ## Counting candidates -/

theorem forall₂_sublist_of_narrows {c d : Candidates} (h : Narrows c d) :
    List.Forall₂ List.Sublist d c := by
  rw [List.forall₂_iff_get]
  refine ⟨h.length_eq, ?_⟩
  intro i hd hc
  have hi := h.sublist i
  rwa [candidatesOf_of_getElem? (List.getElem?_eq_getElem hd),
    candidatesOf_of_getElem? (List.getElem?_eq_getElem hc)] at hi

/-- Where some candidate is taken away, there are fewer of them. -/
theorem length_flatten_lt {c d : Candidates} (h : Narrows c d) (hne : d ≠ c) :
    d.flatten.length < c.flatten.length := by
  have hsub := forall₂_sublist_of_narrows h
  clear h
  induction hsub with
  | nil => exact absurd rfl hne
  | @cons ds cs d c hhead htail ih =>
      have hle : ds.length ≤ cs.length := hhead.length_le
      rw [List.flatten_cons, List.flatten_cons, List.length_append, List.length_append]
      by_cases hdc : d = c
      · subst hdc
        have hne' : ds ≠ cs := fun e => hne (by rw [e])
        have hlt : ds.length < cs.length :=
          Nat.lt_of_le_of_ne hle fun e => hne' (hhead.eq_of_length e)
        omega
      · have hlt := ih hdc
        omega

namespace Problem

variable (p : Problem)

/-! ## Rounds -/

/-- The rounds of excluding that start with some candidates end with others: the last changes nothing,
and all before it do. -/
inductive Ends : Candidates → Candidates → Prop
  | unchanged {c : Candidates} (h : p.exclude c = c) : Ends c c
  | changed {c d : Candidates} (h : p.exclude c ≠ c) (rest : Ends (p.exclude c) d) : Ends c d

theorem length_exclude {c : Candidates} (hc : c.length = p.sequences.length) :
    (p.exclude c).length = p.sequences.length :=
  (p.exclude_narrows hc).length_eq.trans hc

theorem length_flatten_exclude_lt {c : Candidates} (hc : c.length = p.sequences.length)
    (h : p.exclude c ≠ c) : (p.exclude c).flatten.length < c.flatten.length :=
  length_flatten_lt (p.exclude_narrows hc) h

/-- As many rounds as there are candidates are enough. -/
theorem ends_settle {n : Nat} {c : Candidates} (hc : c.length = p.sequences.length)
    (hn : c.flatten.length ≤ n) : p.Ends c (p.settle n c) := by
  induction n generalizing c with
  | zero =>
      have hsame : p.exclude c = c := by
        by_contra hne
        have hlt := p.length_flatten_exclude_lt hc hne
        omega
      exact .unchanged hsame
  | succ n ih =>
      rw [settle_succ]
      split
      · rename_i hsame
        exact .unchanged hsame
      · rename_i hne
        have hlt := p.length_flatten_exclude_lt hc hne
        exact .changed hne (ih (p.length_exclude hc) (by omega))

theorem ends_filterByOverlap {c : Candidates} (hc : c.length = p.sequences.length) :
    p.Ends c (p.filterByOverlap c) :=
  p.ends_settle hc (Nat.le_refl _)

variable {p}

theorem Ends.exclude_eq {c d : Candidates} (h : p.Ends c d) : p.exclude d = d := by
  induction h with
  | unchanged hsame => exact hsame
  | changed _ _ ih => exact ih

theorem Ends.unique {c d e : Candidates} (h : p.Ends c d) (h' : p.Ends c e) : d = e := by
  induction h with
  | unchanged hsame =>
      cases h' with
      | unchanged => rfl
      | changed hne => exact absurd hsame hne
  | changed hne _ ih =>
      cases h' with
      | unchanged hsame => exact absurd hsame hne
      | changed _ rest => exact ih rest

/-! ## What was taken away -/

variable (p)

/-- Every sequence keeps those of its candidates that pass a test, and all of them if it is not
ambiguous; what it loses is reserved in the end by a sequence that it overlaps. -/
structure Excludes (c d : Candidates) : Prop where
  length_eq : d.length = c.length
  filtered : ∀ i, ∃ f : String → Bool, candidatesOf d i = (candidatesOf c i).filter f
  kept : ∀ i, (candidatesOf c i).length ≤ 1 → candidatesOf d i = candidatesOf c i
  reserved : ∀ i q s, p.sequences[i]? = some q → s ∈ candidatesOf c i → s ∉ candidatesOf d i →
    ∃ j r, p.sequences[j]? = some r ∧ candidatesOf d j = [s] ∧ q.span.overlaps r.span = true

theorem Excludes.refl (c : Candidates) : p.Excludes c c := by
  refine ⟨rfl, fun i => ⟨fun _ => true, by simp⟩, fun _ _ => rfl, ?_⟩
  intro i q s _ hs hnot
  exact absurd hs hnot

variable {p}

/-- A reservation made on the way is still there in the end. -/
theorem Excludes.trans {c d e : Candidates} (h : p.Excludes c d) (h' : p.Excludes d e) :
    p.Excludes c e := by
  refine ⟨h'.length_eq.trans h.length_eq, ?_, ?_, ?_⟩
  · intro i
    obtain ⟨f, hf⟩ := h.filtered i
    obtain ⟨g, hg⟩ := h'.filtered i
    exact ⟨fun s => f s && g s, by simp only [hg, hf, List.filter_filter, Bool.and_comm]⟩
  · intro i hi
    have hd := h.kept i hi
    rw [h'.kept i (by rw [hd]; exact hi), hd]
  · intro i q s hq hs hnot
    by_cases hd : s ∈ candidatesOf d i
    · exact h'.reserved i q s hq hd hnot
    · obtain ⟨j, r, hr, hj, ho⟩ := h.reserved i q s hq hs hd
      have hlen : (candidatesOf d j).length ≤ 1 := by rw [hj]; simp
      exact ⟨j, r, hr, (h'.kept j hlen).trans hj, ho⟩

theorem Excludes.narrows {c d : Candidates} (h : p.Excludes c d) : Narrows c d := by
  refine ⟨h.length_eq, ?_⟩
  intro i
  obtain ⟨f, hf⟩ := h.filtered i
  rw [hf]
  exact List.filter_sublist

variable (p)

theorem candidatesOf_exclude (c : Candidates) {i : Nat} {q : LineSequence}
    (hq : p.sequences[i]? = some q) : candidatesOf (p.exclude c) i =
      whenAmbiguous (List.filter (isFree (p.reservations c) q)) (candidatesOf c i) :=
  p.candidatesOf_narrow (fun _ => whenAmbiguous_nil _) c hq

/-- A section is free when no sequence settled there is in the way. -/
theorem isFree_iff {c : Candidates} {q : LineSequence} {s : String} :
    isFree (p.reservations c) q s = true ↔ ∀ j r, p.sequences[j]? = some r →
      candidatesOf c j = [s] → q.span.overlaps r.span = false := by
  rw [p.isFree_reservations_iff]
  constructor
  · intro h j r hr hj
    have hmem : s ∈ candidatesOf c j := hj ▸ List.mem_singleton_self s
    exact h j r hr (hj ▸ getElem?_of_mem_candidatesOf hmem)
  · intro h j r hr hj
    exact h j r hr (candidatesOf_of_getElem? hj)

theorem exists_of_not_isFree {c : Candidates} {q : LineSequence} {s : String}
    (h : isFree (p.reservations c) q s ≠ true) : ∃ j r, p.sequences[j]? = some r ∧
      candidatesOf c j = [s] ∧ q.span.overlaps r.span = true := by
  rw [ne_eq, p.isFree_iff] at h
  push Not at h
  obtain ⟨j, r, hr, hj, ho⟩ := h
  exact ⟨j, r, hr, hj, by simpa using ho⟩

theorem excludes_exclude {c : Candidates} (hc : c.length = p.sequences.length) :
    p.Excludes c (p.exclude c) := by
  have hkept : ∀ i, (candidatesOf c i).length ≤ 1 →
      candidatesOf (p.exclude c) i = candidatesOf c i := by
    intro i hi
    cases hq : p.sequences[i]? with
    | some q => rw [p.candidatesOf_exclude c hq, whenAmbiguous_of_le _ hi]
    | none =>
        have hci : (c)[i]? = none := by
          rw [List.getElem?_eq_none_iff] at hq ⊢
          omega
        rw [exclude, p.candidatesOf_narrow_eq_nil _ c hq, candidatesOf, hci, Option.getD_none]
  refine ⟨(p.exclude_narrows hc).length_eq, ?_, hkept, ?_⟩
  · intro i
    by_cases hi : (candidatesOf c i).length ≤ 1
    · exact ⟨fun _ => true, by simp [hkept i hi]⟩
    · cases hq : p.sequences[i]? with
      | some q =>
          exact ⟨isFree (p.reservations c) q, by rw [p.candidatesOf_exclude c hq, whenAmbiguous, if_neg hi]⟩
      | none =>
          exact ⟨fun _ => false, by simp [exclude, p.candidatesOf_narrow_eq_nil _ c hq]⟩
  · intro i q s hq hs hnot
    have htaken : isFree (p.reservations c) q s ≠ true := by
      intro hfree
      rw [p.candidatesOf_exclude c hq] at hnot
      exact hnot (mem_whenAmbiguous hs fun _ => List.mem_filter.2 ⟨hs, hfree⟩)
    obtain ⟨j, r, hr, hj, ho⟩ := p.exists_of_not_isFree htaken
    have hlen : (candidatesOf c j).length ≤ 1 := by rw [hj]; simp
    exact ⟨j, r, hr, (hkept j hlen).trans hj, ho⟩

variable {p}

theorem Ends.excludes {c d : Candidates} (h : p.Ends c d) (hc : c.length = p.sequences.length) :
    p.Excludes c d := by
  induction h with
  | unchanged => exact .refl p _
  | changed _ _ ih => exact (p.excludes_exclude hc).trans (ih (p.length_exclude hc))

/-- After the last round, the ambiguous sequences overlap nothing that is reserved. -/
theorem Ends.isFree {c d : Candidates} (h : p.Ends c d) {i : Nat} {q : LineSequence}
    (hq : p.sequences[i]? = some q) (hi : 1 < (candidatesOf d i).length) {s : String}
    (hs : s ∈ candidatesOf d i) : isFree (p.reservations d) q s = true := by
  have hsame := p.candidatesOf_exclude d hq
  rw [h.exclude_eq, whenAmbiguous, if_neg (by omega)] at hsame
  rw [hsame] at hs
  exact (List.mem_filter.1 hs).2

/-- What an ambiguous sequence is left with are those of its candidates on which nothing is in its way. -/
theorem Ends.candidatesOf_eq_filter {c d : Candidates} (h : p.Ends c d)
    (hc : c.length = p.sequences.length) {i : Nat} {q : LineSequence}
    (hq : p.sequences[i]? = some q) (hi : 1 < (candidatesOf d i).length) :
    candidatesOf d i = (candidatesOf c i).filter (Problem.isFree (p.reservations d) q) := by
  have hex := h.excludes hc
  obtain ⟨f, hf⟩ := hex.filtered i
  rw [hf]
  apply List.filter_congr
  intro s hs
  cases hfs : f s with
  | true =>
      have hmem : s ∈ candidatesOf d i := hf ▸ List.mem_filter.2 ⟨hs, hfs⟩
      exact (h.isFree hq hi hmem).symm
  | false =>
      have hnot : s ∉ candidatesOf d i := by simp [hf, hfs]
      obtain ⟨j, r, hr, hj, ho⟩ := hex.reserved i q s hq hs hnot
      symm
      rw [← Bool.not_eq_true]
      intro hfree
      rw [p.isFree_iff.1 hfree j r hr hj] at ho
      cases ho

/-- Excluding ends, and with a justified result. A sequence keeps a part of its candidates, in order, and
all of them if it is not ambiguous. A section that it lost is in the end reserved by a sequence that it
overlaps. Those still ambiguous overlap no reservation on what is left to them, so that they have exactly
their candidates that are free. Excluding once more changes nothing. A round that changes anything takes
a candidate away, and the rounds from any candidates end, with this result only. -/
theorem filterByOverlap_justified {p : Problem} {c : Candidates}
    (hc : c.length = p.sequences.length) :
    let r := p.filterByOverlap c
    (r.length = c.length ∧ (∀ i, (candidatesOf r i).Sublist (candidatesOf c i)) ∧
        ∀ i, (candidatesOf c i).length ≤ 1 → candidatesOf r i = candidatesOf c i) ∧
      (∀ i q s, p.sequences[i]? = some q → s ∈ candidatesOf c i → s ∉ candidatesOf r i →
        ∃ j q', p.sequences[j]? = some q' ∧ candidatesOf r j = [s] ∧
          q.span.overlaps q'.span = true) ∧
      (∀ i q, p.sequences[i]? = some q → 1 < (candidatesOf r i).length →
        (∀ s ∈ candidatesOf r i, ∀ j q', p.sequences[j]? = some q' → candidatesOf r j = [s] →
          q.span.overlaps q'.span = false) ∧
        candidatesOf r i = (candidatesOf c i).filter (Problem.isFree (p.reservations r) q)) ∧
      p.filterByOverlap r = r ∧
      (∀ d, d.length = p.sequences.length → p.exclude d ≠ d →
        (p.exclude d).flatten.length < d.flatten.length) ∧
      ∀ d, p.Ends c d ↔ d = r := by
  intro r
  have hends : p.Ends c r := p.ends_filterByOverlap hc
  have hex : p.Excludes c r := hends.excludes hc
  refine ⟨⟨hex.length_eq, hex.narrows.sublist, hex.kept⟩, hex.reserved, ?_, ?_, ?_, ?_⟩
  · intro i q hq hi
    refine ⟨?_, hends.candidatesOf_eq_filter hc hq hi⟩
    intro s hs
    exact p.isFree_iff.1 (hends.isFree hq hi hs)
  · exact p.settle_eq_self hends.exclude_eq _
  · intro d hd hne
    exact p.length_flatten_exclude_lt hd hne
  · intro d
    constructor
    · intro h
      exact h.unique hends
    · rintro rfl
      exact hends

/-- The first sequence is settled, which settles the second and the fourth in one round and takes a
section from the third in the next. -/
def stepwise : Problem where
  listed := [".a", ".b", ".c"]
  code := []
  sequences :=
    [.ofList [(0, ⟨some "a.c", 1, 0, true, 0⟩), (4, ⟨some "a.c", 2, 0, true, 0⟩)],
      .ofList [(2, ⟨some "b.c", 1, 0, true, 0⟩), (6, ⟨some "b.c", 2, 0, true, 0⟩)],
      .ofList [(5, ⟨some "c.c", 1, 0, true, 0⟩), (9, ⟨some "c.c", 2, 0, true, 0⟩)],
      .ofList [(3, ⟨some "d.c", 1, 0, true, 0⟩), (5, ⟨some "d.c", 2, 0, true, 0⟩)]]
  symbols := []
  declarations := []

theorem filterByOverlap_justified_stepwise :
    let c := [[".a"], [".a", ".b"], [".a", ".b", ".c"], [".a", ".b"]]
    let r := [[".a"], [".b"], [".a", ".c"], [".b"]]
    c.length = stepwise.sequences.length ∧ stepwise.filterByOverlap c = r ∧ stepwise.Ends c r ∧
      stepwise.filterByOverlap r = r ∧
      ∃ j q, stepwise.sequences[j]? = some q ∧ candidatesOf r j = [".b"] ∧
        stepwise.sequences[2].span.overlaps q.span = true := by
  intro c r
  have hc : c.length = stepwise.sequences.length := rfl
  have hr : stepwise.filterByOverlap c = r := by decide
  obtain ⟨-, hreserved, -, hagain, -, hends⟩ := filterByOverlap_justified hc
  rw [hr] at hreserved hagain hends
  exact ⟨hc, hr, (hends r).2 rfl, hagain, hreserved 2 _ ".b" rfl (by decide) (by decide)⟩

end Problem

end LineAtlas.Matching
