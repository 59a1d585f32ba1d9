import LineAtlas.Proofs.Matching.Binding
import Mathlib.Algebra.Ring.Int.Defs

/-!
# Placing one sequence after the other

A sequence that is placed last changes the intervals of one section at most: it comes among them, or takes
the place of a single one that is shorter. So no section ever has fewer intervals than before, nor shorter
ones in total. A section that turned a sequence down holds, from then on, an interval as long as the sequence
or several intervals, whatever replaces what.
-/

namespace LineAtlas.Matching

def Table.intervals (t : Table) (s : String) : List Interval :=
  (Keyed.get? t s).getD []

/-- What one more interval makes of the intervals of a section that takes it. -/
inductive Gains (x : Interval) : List Interval → List Interval → Prop
  | added {front back : List Interval}
      (hfree : ∀ y ∈ front ++ back, x.span.overlaps y.span = false) :
      Gains x (front ++ back) (front ++ x :: back)
  | replaced {front back : List Interval} {z : Interval}
      (hoverlaps : x.span.overlaps z.span = true) (hshorter : z.span.length < x.span.length)
      (hfree : ∀ y ∈ front ++ back, x.span.overlaps y.span = false) :
      Gains x (front ++ z :: back) (front ++ x :: back)

def totalLength (xs : List Interval) : Int :=
  (xs.map (·.span.length)).sum

/-- Reason enough to turn down a sequence of length `n`: an interval as long, or several. -/
def Outweighs (xs : List Interval) (n : Int) : Prop :=
  (∃ y ∈ xs, n ≤ y.span.length) ∨ 2 ≤ xs.length

/-- What the intervals of a section keep of those it had before. -/
structure Grown (xs ys : List Interval) : Prop where
  length_le : xs.length ≤ ys.length
  totalLength_le : totalLength xs ≤ totalLength ys
  outweighs : ∀ n, Outweighs xs n → Outweighs ys n

namespace Grown

theorem refl (xs : List Interval) : Grown xs xs :=
  ⟨Nat.le_refl _, Int.le_refl _, fun _ h => h⟩

theorem trans {xs ys zs : List Interval} (h : Grown xs ys) (h' : Grown ys zs) : Grown xs zs :=
  ⟨Nat.le_trans h.length_le h'.length_le, Int.le_trans h.totalLength_le h'.totalLength_le,
    fun n hn => h'.outweighs n (h.outweighs n hn)⟩

end Grown

namespace Gains

variable {x : Interval} {xs ys : List Interval}

theorem mem (h : Gains x xs ys) : x ∈ ys := by
  cases h <;> simp

theorem outweighs_self (h : Gains x xs ys) : Outweighs ys x.span.length :=
  .inl ⟨x, h.mem, Int.le_refl _⟩

/-- An interval gives way to a longer one only, which then outweighs all that it did. -/
theorem grown (h : Gains x xs ys) (hx : x.span.start ≤ x.span.stop) : Grown xs ys := by
  cases h with
  | added hfree =>
      refine ⟨by simp, ?_, ?_⟩
      · have hnonneg : 0 ≤ x.span.length := by rw [Span.length]; omega
        simp only [totalLength, List.map_append, List.map_cons, List.sum_append, List.sum_cons]
        omega
      · rintro n (⟨y, hy, hn⟩ | htwo)
        · refine .inl ⟨y, ?_, hn⟩
          rcases List.mem_append.1 hy with hy | hy <;> simp [hy]
        · rw [List.length_append] at htwo
          refine .inr ?_
          simp only [List.length_append, List.length_cons]
          omega
  | @replaced front back z hoverlaps hshorter hfree =>
      refine ⟨by simp, ?_, ?_⟩
      · simp only [totalLength, List.map_append, List.map_cons, List.sum_append, List.sum_cons]
        omega
      · rintro n (⟨y, hy, hn⟩ | htwo)
        · rcases List.mem_append.1 hy with hy | hy
          · exact .inl ⟨y, by simp [hy], hn⟩
          · rcases List.mem_cons.1 hy with rfl | hy
            · exact .inl ⟨x, by simp, by omega⟩
            · exact .inl ⟨y, by simp [hy], hn⟩
        · exact .inr (by simpa using htwo)

end Gains

/-! ## Making room -/

theorem insertByStart_eq_append (x : Interval) (xs : List Interval) :
    ∃ front back, xs = front ++ back ∧ insertByStart x xs = front ++ x :: back := by
  induction xs with
  | nil => exact ⟨[], [], rfl, rfl⟩
  | cons y rest ih =>
      rw [insertByStart]
      split
      · obtain ⟨front, back, rfl, heq⟩ := ih
        exact ⟨y :: front, back, rfl, by rw [heq, List.cons_append]⟩
      · exact ⟨[], y :: rest, rfl, rfl⟩

theorem insertByStart_append {x : Interval} {front back : List Interval}
    (hfront : ∀ y ∈ front, y.span.start ≤ x.span.start)
    (hback : ∀ y ∈ back, x.span.start < y.span.start) :
    insertByStart x (front ++ back) = front ++ x :: back := by
  induction front with
  | nil =>
      cases back with
      | nil => rfl
      | cons y back =>
          have hlt := hback y List.mem_cons_self
          rw [List.nil_append, insertByStart, if_neg (by omega), List.nil_append]
  | cons y front ih =>
      obtain ⟨hy, hfront⟩ := List.forall_mem_cons.1 hfront
      rw [List.cons_append, insertByStart, if_pos hy, ih hfront, List.cons_append]

/-- An interval that overlaps one of a section only stands, among the others, where that one stood. -/
theorem Gains.of_replaced {x z : Interval} {xs : List Interval} (h : Apart xs)
    (hx : x.span.start ≤ x.span.stop) (hz : z ∈ xs) (hoverlaps : x.span.overlaps z.span = true)
    (hshorter : z.span.length < x.span.length)
    (hfree : ∀ y ∈ xs, y ≠ z → x.span.overlaps y.span = false) :
    Gains x xs (insertByStart x (xs.filter (· ≠ z))) := by
  obtain ⟨front, back, rfl⟩ := List.append_of_mem hz
  have hzx := Span.overlaps_iff.1 hoverlaps
  obtain ⟨-, hzback, hacross⟩ := List.pairwise_append.1 h.before
  have hbefore : ∀ y ∈ front, y.span.stop < z.span.start := fun y hy =>
    hacross y hy z List.mem_cons_self
  have hafter : ∀ y ∈ back, z.span.stop < y.span.start := fun y hy =>
    List.rel_of_pairwise_cons hzback hy
  have hproper : ∀ y ∈ front ++ z :: back, y.span.start ≤ y.span.stop := h.proper
  have hne : ∀ y ∈ front ++ back, y ≠ z := by
    rintro y hy rfl
    have := hproper y (by simp)
    rcases List.mem_append.1 hy with hy | hy
    · have := hbefore y hy
      omega
    · have := hafter y hy
      omega
  have hfree' : ∀ y ∈ front ++ back, x.span.overlaps y.span = false := fun y hy =>
    hfree y (by rcases List.mem_append.1 hy with hy | hy <;> simp [hy]) (hne y hy)
  have hothers : (front ++ z :: back).filter (· ≠ z) = front ++ back := by
    have hall : (front ++ back).filter (· ≠ z) = front ++ back :=
      List.filter_eq_self.2 fun y hy => decide_eq_true (hne y hy)
    rw [List.filter_append] at hall ⊢
    rwa [List.filter_cons_of_neg (by simp)]
  rw [hothers, insertByStart_append]
  · exact .replaced hoverlaps hshorter hfree'
  · intro y hy
    have := hbefore y hy
    have := hproper y (by simp [hy])
    rcases Span.overlaps_eq_false_iff.1 (hfree' y (by simp [hy])) with hlt | hlt <;> omega
  · intro y hy
    have := hafter y hy
    have := hproper y (by simp [hy])
    rcases Span.overlaps_eq_false_iff.1 (hfree' y (by simp [hy])) with hlt | hlt <;> omega

theorem Gains.of_makeRoom? {x : Interval} {xs ys : List Interval} {old : Option Interval}
    (h : Apart xs) (hx : x.span.start ≤ x.span.stop) (hm : makeRoom? x xs = some (ys, old)) :
    Gains x xs ys := by
  rcases makeRoom?_cases hm with ⟨-, hfree, rfl⟩ | ⟨z, hz, -, hoverlaps, hshorter, hfree, rfl⟩
  · obtain ⟨front, back, rfl, heq⟩ := insertByStart_eq_append x xs
    rw [heq]
    exact .added hfree
  · exact .of_replaced h hx hz hoverlaps hshorter hfree

theorem outweighs_of_makeRoom?_eq_none {x : Interval} {xs : List Interval}
    (h : makeRoom? x xs = none) : Outweighs xs x.span.length := by
  rw [makeRoom?] at h
  split at h
  · cases h
  · rename_i z hz
    split at h
    · cases h
    · rename_i hlong
      have hmem : z ∈ xs := (List.mem_filter.1 (hz ▸ List.mem_singleton_self z)).1
      exact .inl ⟨z, hmem, by omega⟩
  · rename_i hnil hone
    -- Neither none nor one of the intervals is overlapped, so at least two are.
    have hle := List.length_filter_le (fun y : Interval => x.span.overlaps y.span) xs
    have htwo : 2 ≤ (xs.filter fun y => x.span.overlaps y.span).length := by
      cases hover : xs.filter fun y => x.span.overlaps y.span with
      | nil => exact absurd hover hnil
      | cons z rest =>
          cases rest with
          | nil => exact absurd hover (hone z)
          | cons => simp
    exact .inr (Nat.le_trans htwo hle)

/-! ## One more sequence -/

theorem zip_concat {α β : Type} (xs : List α) (ys : List β) (y : β) :
    xs.zip (ys ++ [y]) = xs.zip ys ++ (xs[ys.length]?.map fun x => (x, y)).toList := by
  induction xs generalizing ys with
  | nil => simp
  | cons x xs ih =>
      cases ys with
      | nil => simp
      | cons first ys => simp [ih]

namespace Placement

variable {r : Placement} {x : Interval}

theorem gains_place (hr : ∀ s, Apart (r.intervals s)) (hx : x.span.start ≤ x.span.stop)
    (ss : List String) :
    r.place x ss = r ∨ ∃ s ∈ ss, Gains x (r.intervals s) ((r.place x ss).intervals s) ∧
      ∀ s', s' ≠ s → (r.place x ss).intervals s' = r.intervals s' := by
  rcases r.place_cases x ss with ⟨heq, -⟩ | ⟨before, s, after, ys, old, rfl, -, hm, heq⟩
  · exact .inl heq
  · refine .inr ⟨s, by simp, ?_, ?_⟩
    · rw [heq, intervals_put, if_pos rfl]
      exact Gains.of_makeRoom? (hr s) hx hm
    · intro s' hs'
      rw [heq, intervals_put, if_neg hs']
      rfl

theorem grown_place (hr : ∀ s, Apart (r.intervals s)) (hx : x.span.start ≤ x.span.stop)
    (ss : List String) (s : String) : Grown (r.intervals s) ((r.place x ss).intervals s) := by
  rcases gains_place hr hx ss with heq | ⟨s', -, hgains, hsame⟩
  · rw [heq]
    exact .refl _
  · by_cases hs : s = s'
    · subst hs
      exact hgains.grown hx
    · rw [hsame s hs]
      exact .refl _

/-- The section that is asked first takes the sequence or outweighs it. -/
theorem outweighs_place (hr : ∀ s, Apart (r.intervals s)) (hx : x.span.start ≤ x.span.stop)
    (s : String) (rest : List String) :
    Outweighs ((r.place x (s :: rest)).intervals s) x.span.length := by
  cases hm : makeRoom? x (r.intervals s) with
  | none => exact (grown_place hr hx (s :: rest) s).outweighs _ (outweighs_of_makeRoom?_eq_none hm)
  | some taken =>
      obtain ⟨ys, old⟩ := taken
      have hplace : (r.place x (s :: rest)).intervals s = ys := by
        simp [place, hm, intervals_put]
      rw [hplace]
      exact (Gains.of_makeRoom? (hr s) hx hm).outweighs_self

end Placement

namespace Problem

variable (p : Problem)

theorem intervals_tableOf (intervals : String → List Interval) (s : String) :
    (p.tableOf intervals).intervals s = if s ∈ p.sections then intervals s else [] := by
  cases hget : Keyed.get? (p.tableOf intervals) s with
  | some xs =>
      obtain ⟨hs, rfl, -⟩ := p.mem_tableOf.1 (Keyed.mem_of_get? hget)
      rw [Table.intervals, hget, if_pos hs, Option.getD_some]
  | none =>
      rw [Table.intervals, hget, Option.getD_none]
      split
      · rename_i hs
        by_contra hne
        have hmem : (s, intervals s) ∈ p.tableOf intervals := p.mem_tableOf.2 ⟨hs, rfl, Ne.symm hne⟩
        rw [(Keyed.get?_eq_some_iff (p.nodup_keys_tableOf intervals)).2 hmem] at hget
        cases hget
      · rfl

theorem intervals_bestEffort (c : Candidates) (s : String) : (p.bestEffort c).intervals s =
    if s ∈ p.sections then (p.bestEffortPlacement c).intervals s else [] :=
  p.intervals_tableOf _ s

theorem places_concat (c : Candidates) (cs : List String) : p.places (c ++ [cs]) =
    p.places c ++ (p.sequences[c.length]?.map fun q => (⟨q.span, c.length⟩, cs)).toList := by
  rw [places, zip_concat, List.zipIdx_append, List.map_append, places]
  cases hq : p.sequences[c.length]? with
  | none => rfl
  | some q =>
      have hlen : (p.sequences.zip c).length = c.length := by
        have hlt := (List.getElem?_eq_some_iff.1 hq).1
        rw [List.length_zip]
        omega
      simp [hlen]

theorem bestEffortPlacement_concat (c : Candidates) (cs : List String) :
    p.bestEffortPlacement (c ++ [cs]) = match p.sequences[c.length]? with
      | none => p.bestEffortPlacement c
      | some q => (p.bestEffortPlacement c).place ⟨q.span, c.length⟩ cs := by
  rw [bestEffortPlacement, p.places_concat, List.foldl_append]
  cases p.sequences[c.length]? <;> rfl

theorem grown_bestEffortPlacement_concat (c : Candidates) (cs : List String) (s : String) :
    Grown ((p.bestEffortPlacement c).intervals s)
      ((p.bestEffortPlacement (c ++ [cs])).intervals s) := by
  rw [p.bestEffortPlacement_concat]
  cases p.sequences[c.length]? with
  | none => exact .refl _
  | some q => exact Placement.grown_place (p.apart_bestEffort c) q.span_start_le_stop cs s

theorem grown_bestEffortPlacement (c more : Candidates) (s : String) :
    Grown ((p.bestEffortPlacement c).intervals s)
      ((p.bestEffortPlacement (c ++ more)).intervals s) := by
  induction more using List.reverseRecOn with
  | nil => rw [List.append_nil]; exact .refl _
  | append_singleton more cs ih =>
      rw [← List.append_assoc]
      exact ih.trans (p.grown_bestEffortPlacement_concat (c ++ more) cs s)

/-- The first candidate of a sequence outweighs it from its turn on. -/
theorem outweighs_bestEffortPlacement {c : Candidates} {i : Nat} {q : LineSequence} {s : String}
    {rest : List String} (hq : p.sequences[i]? = some q) (hcs : (c)[i]? = some (s :: rest)) :
    Outweighs ((p.bestEffortPlacement c).intervals s) q.span.length := by
  obtain ⟨hlt, hi⟩ := List.getElem?_eq_some_iff.1 hcs
  have hsplit : c = (c.take i ++ [s :: rest]) ++ c.drop (i + 1) := by
    rw [← hi, List.take_append_getElem, List.take_append_drop]
  have hlen : (c.take i).length = i := by
    rw [List.length_take]
    omega
  rw [hsplit]
  apply (p.grown_bestEffortPlacement (c.take i ++ [s :: rest]) _ s).outweighs
  rw [p.bestEffortPlacement_concat, hlen, hq]
  exact Placement.outweighs_place (p.apart_bestEffort _) q.span_start_le_stop s rest

/-- Placing as well as it goes never goes back. One more sequence leaves the table as it is, or comes among
the intervals of one of its candidates, or takes there the place of the only interval that it overlaps, a
shorter one. So over a run a section has ever more intervals, and longer ones in total. Bound or not, a
sequence finds on its first candidate, in the end, an interval as long as itself or several intervals. -/
theorem bestEffort_grows (p : Problem) (c : Candidates) :
    (∀ (cs : List String) (q : LineSequence), p.sequences[c.length]? = some q →
      let t := p.bestEffort c
      let t' := p.bestEffort (c ++ [cs])
      t' = t ∨ ∃ s ∈ cs, Gains ⟨q.span, c.length⟩ (t.intervals s) (t'.intervals s) ∧
        ∀ s', s' ≠ s → t'.intervals s' = t.intervals s') ∧
      (∀ earlier, earlier <+: c → ∀ s,
        let xs := (p.bestEffort earlier).intervals s
        let ys := (p.bestEffort c).intervals s
        xs.length ≤ ys.length ∧ totalLength xs ≤ totalLength ys) ∧
      ∀ (i : Nat) (q : LineSequence) (s : String) (rest : List String),
        p.sequences[i]? = some q → (c)[i]? = some (s :: rest) → s ∈ p.sections →
        Outweighs ((p.bestEffort c).intervals s) q.span.length := by
  refine ⟨?_, ?_, ?_⟩
  · intro cs q hq t t'
    have hstep : p.bestEffortPlacement (c ++ [cs]) =
        (p.bestEffortPlacement c).place ⟨q.span, c.length⟩ cs := by
      rw [p.bestEffortPlacement_concat, hq]
    have hsame : ∀ {s}, (s ∈ p.sections → (p.bestEffortPlacement (c ++ [cs])).intervals s =
        (p.bestEffortPlacement c).intervals s) → t'.intervals s = t.intervals s := by
      intro s h
      simp only [t, t', p.intervals_bestEffort]
      split
      · rename_i hs
        exact h hs
      · rfl
    have hproper : (⟨q.span, c.length⟩ : Interval).span.start ≤ q.span.stop := q.span_start_le_stop
    rcases Placement.gains_place (p.apart_bestEffort c) hproper cs with
      heq | ⟨s, hs, hgains, hothers⟩
    · refine .inl (p.tableOf_congr fun s _ => ?_)
      rw [hstep, heq]
    · rw [← hstep] at hgains hothers
      by_cases hlisted : s ∈ p.sections
      · refine .inr ⟨s, hs, ?_, fun s' hs' => hsame fun _ => hothers s' hs'⟩
        simpa only [t, t', p.intervals_bestEffort, if_pos hlisted] using hgains
      · -- Nothing is shown of a section that is not listed.
        exact .inl (p.tableOf_congr fun s' hs' => hothers s' fun h => hlisted (h ▸ hs'))
  · rintro earlier ⟨more, rfl⟩ s xs ys
    have hgrown := p.grown_bestEffortPlacement earlier more s
    simp only [xs, ys, p.intervals_bestEffort]
    split
    · exact ⟨hgrown.length_le, hgrown.totalLength_le⟩
    · exact ⟨Nat.le_refl _, Int.le_refl _⟩
  · intro i q s rest hq hcs hs
    rw [p.intervals_bestEffort, if_pos hs]
    exact p.outweighs_bestEffortPlacement hq hcs

/-- The first sequence is replaced by the second and ends unbound. -/
theorem bestEffort_grows_crowded :
    let cs := [".a", ".b"]
    let first := crowded.bestEffort [cs]
    let second := crowded.bestEffort [cs, cs]
    let last := crowded.bestEffort [cs, cs, cs, cs]
    first.intervals ".a" = [⟨⟨0, 4⟩, 0⟩] ∧ second.intervals ".a" = [⟨⟨0, 8⟩, 1⟩] ∧
      (∃ s ∈ cs, Gains ⟨⟨0, 8⟩, 1⟩ (first.intervals s) (second.intervals s)) ∧
      totalLength (second.intervals ".a") ≤ totalLength (last.intervals ".a") ∧
      0 ∉ last.bound ∧ Outweighs (last.intervals ".a") 4 := by
  intro cs first second last
  obtain ⟨hstep, -, -⟩ := bestEffort_grows crowded [cs]
  obtain ⟨-, hgrow, houtweighs⟩ := bestEffort_grows crowded [cs, cs, cs, cs]
  have hgains : ∃ s ∈ cs, Gains ⟨⟨0, 8⟩, 1⟩ (first.intervals s) (second.intervals s) := by
    rcases hstep cs crowded.sequences[1] rfl with hsame | ⟨s, hs, hgains, -⟩
    · exact absurd hsame (by decide)
    · exact ⟨s, hs, hgains⟩
  refine ⟨by decide, by decide, hgains, ?_, by decide, ?_⟩
  · exact (hgrow [cs, cs] (by decide) ".a").2
  · exact houtweighs 0 crowded.sequences[0] ".a" [".b"] rfl rfl (by decide)

end Problem

end LineAtlas.Matching
