import LineAtlas.Proofs.Extent
import LineAtlas.Proofs.LineSequence
import LineAtlas.Proofs.Matching.Candidates

/-!
# Rows at the first bytes of instructions

A long instruction takes several lines of a listing, of which only the first has a text. The alignment of a
sequence is judged by lines: every row has to lie where a line begins, except that the last may lie where
the section ends. So a row inside an instruction lies where one of its further lines begins, or else inside
a line that another line of the section crosses.
-/

namespace LineAtlas

/-- The lines without a text with which a run goes on from an address on. -/
def continuation (stop : Int) : List Instruction → List Instruction
  | [] => []
  | i :: rest => if i.text = none ∧ i.address = stop then i :: continuation i.stop rest else []

theorem text_of_mem_continuation {stop : Int} {run : List Instruction} {i : Instruction}
    (h : i ∈ continuation stop run) : i.text = none := by
  induction run generalizing stop with
  | nil => cases h
  | cons j rest ih =>
      rw [continuation] at h
      split at h
      · rename_i hj
        rcases List.mem_cons.1 h with rfl | h
        · exact hj.1
        · exact ih h
      · cases h

theorem exists_line_of_continuation (run : List Instruction) {first : Instruction} {a : Int}
    (hstart : first.address ≤ a)
    (hstop : a < ((continuation first.stop run).getLast?.getD first).stop) :
    ∃ i ∈ first :: continuation first.stop run, i.address ≤ a ∧ a < i.stop := by
  induction run generalizing first with
  | nil => exact ⟨first, by simp, hstart, hstop⟩
  | cons j rest ih =>
      by_cases hin : a < first.stop
      · exact ⟨first, by simp, hstart, hin⟩
      · rw [continuation] at hstop ⊢
        split at hstop
        · rename_i hj
          rw [List.getLast?_cons, Option.getD_some] at hstop
          obtain ⟨i, hi, hcovers⟩ := ih (by omega) hstop
          rw [if_pos hj]
          exact ⟨i, List.mem_cons_of_mem _ hi, hcovers⟩
        · exact absurd hstop hin

/-- A machine instruction as a listing has it: the line with its text, and those that directly follow and go
on with its bytes. -/
structure Encoding where
  first : Instruction
  more : List Instruction

namespace Encoding

def lines (e : Encoding) : List Instruction :=
  e.first :: e.more

def start (e : Encoding) : Int :=
  e.first.address

def stop (e : Encoding) : Int :=
  (e.more.getLast?.getD e.first).stop

def ofRun : List Instruction → List Encoding
  | [] => []
  | i :: rest => if i.text = none then ofRun rest else ⟨i, continuation i.stop rest⟩ :: ofRun rest

theorem mem_ofRun {e : Encoding} {run : List Instruction} (h : e ∈ ofRun run) :
    ∃ before after, run = before ++ e.first :: after ∧ e.first.text ≠ none ∧
      e.more = continuation e.first.stop after := by
  induction run with
  | nil => cases h
  | cons i rest ih =>
      have hlater : e ∈ ofRun rest → ∃ before after, i :: rest = before ++ e.first :: after ∧
          e.first.text ≠ none ∧ e.more = continuation e.first.stop after := by
        intro hmem
        obtain ⟨before, after, hrest, htext, hmore⟩ := ih hmem
        exact ⟨i :: before, after, by rw [hrest, List.cons_append], htext, hmore⟩
      rw [ofRun] at h
      split at h
      · exact hlater h
      · rename_i htext
        rcases List.mem_cons.1 h with rfl | h
        · exact ⟨[], rest, rfl, htext, rfl⟩
        · exact hlater h

/-- Every line with a text begins a machine instruction. -/
theorem exists_first_eq {run : List Instruction} {i : Instruction} (hi : i ∈ run)
    (htext : i.text ≠ none) : ∃ e ∈ ofRun run, e.first = i := by
  induction run with
  | nil => cases hi
  | cons j rest ih =>
      rw [ofRun]
      rcases List.mem_cons.1 hi with rfl | hi
      · rw [if_neg htext]
        exact ⟨_, List.mem_cons_self, rfl⟩
      · obtain ⟨e, he, hfirst⟩ := ih hi
        split
        · exact ⟨e, he, hfirst⟩
        · exact ⟨e, List.mem_cons_of_mem _ he, hfirst⟩

theorem text_of_mem_more {e : Encoding} {run : List Instruction} (he : e ∈ ofRun run)
    {i : Instruction} (hi : i ∈ e.more) : i.text = none := by
  obtain ⟨before, after, -, -, hmore⟩ := mem_ofRun he
  rw [hmore] at hi
  exact text_of_mem_continuation hi

/-- The lines of a machine instruction leave no gap. -/
theorem exists_line {e : Encoding} {run : List Instruction} (he : e ∈ ofRun run) {a : Int}
    (hstart : e.start ≤ a) (hstop : a < e.stop) : ∃ i ∈ e.lines, i.address ≤ a ∧ a < i.stop := by
  obtain ⟨before, after, -, -, hmore⟩ := mem_ofRun he
  rw [stop, hmore] at hstop
  rw [lines, hmore]
  exact exists_line_of_continuation after hstart hstop

end Encoding

namespace Matching.Problem

variable (p : Problem)

def linesIn (s : String) : List Instruction :=
  ((p.code.get? s).getD []).flatMap fun e => e.2

def encodingsIn (s : String) : List Encoding :=
  ((p.code.get? s).getD []).flatMap fun e => Encoding.ofRun e.2

/-- The last row of a sequence lies just after a section. -/
def EndsWith (q : LineSequence) (s : String) (a : Int) : Prop :=
  q.stop? = some a ∧ ∃ e, p.extent? s = some e ∧ e.high = a

theorem exists_encodingsIn {s : String} {i : Instruction} (hi : i ∈ p.linesIn s)
    (htext : i.text ≠ none) : ∃ e ∈ p.encodingsIn s, e.start = i.address := by
  obtain ⟨entry, hentry, hi⟩ := List.mem_flatMap.1 hi
  obtain ⟨e, he, rfl⟩ := Encoding.exists_first_eq hi htext
  exact ⟨e, List.mem_flatMap.2 ⟨entry, hentry, he⟩, rfl⟩

theorem exists_line_of_endsWith {q : LineSequence} {s : String} {a : Int}
    (h : p.EndsWith q s a) : ∃ i ∈ p.linesIn s, i.stop = a := by
  obtain ⟨-, x, hx, rfl⟩ := h
  obtain ⟨entries, hcode, hextent⟩ := Option.bind_eq_some_iff.1 hx
  obtain ⟨entry, hentry, i, hi, hstop⟩ :=
    Extent.lastStops_subset entries (Extent.bounds_of_ofEntries? hextent).2.1
  exact ⟨i, List.mem_flatMap.2 ⟨entry, by rwa [hcode, Option.getD_some], hi⟩, hstop⟩

theorem mem_instructionAddresses {s : String} {a : Int} :
    a ∈ p.instructionAddresses s ↔ ∃ i ∈ p.linesIn s, i.address = a := by
  simp only [instructionAddresses, linesIn, List.mem_flatMap, List.mem_map]
  constructor
  · rintro ⟨entry, hentry, i, hi, rfl⟩
    exact ⟨i, ⟨entry, hentry, hi⟩, rfl⟩
  · rintro ⟨i, ⟨entry, hentry, hi⟩, rfl⟩
    exact ⟨entry, hentry, i, hi, rfl⟩

/-- Each row apart: it lies where a line begins, or is the last and lies just after the section. -/
theorem isAligned_iff {q : LineSequence} {s : String} : p.isAligned q s = true ↔
    ∀ a ∈ q.addresses, (∃ i ∈ p.linesIn s, i.address = a) ∨ p.EndsWith q s a := by
  cases hlast : q.addresses.getLast? with
  | none => simp [isAligned, List.getLast?_eq_none_iff.1 hlast]
  | some last =>
      obtain ⟨inner, haddresses⟩ := List.getLast?_eq_some_iff.1 hlast
      have hbelow : ∀ a ∈ inner, a < last := by
        have hsorted := q.sorted_addresses
        rw [haddresses] at hsorted
        exact fun a ha => (List.pairwise_append.1 hsorted).2.2 a ha last (by simp)
      have hends : ∀ {a}, p.EndsWith q s a ↔ a = last ∧ (p.extent? s).any (·.high == last) = true := by
        intro a
        rw [EndsWith, LineSequence.stop?, hlast, Option.some.injEq, Option.any_eq_true]
        simp only [beq_iff_eq]
        constructor
        · rintro ⟨rfl, hx⟩
          exact ⟨rfl, hx⟩
        · rintro ⟨rfl, hx⟩
          exact ⟨rfl, hx⟩
      simp only [isAligned, hlast]
      simp only [haddresses, List.dropLast_concat, Bool.and_eq_true, Bool.or_eq_true, List.all_eq_true,
        List.contains_iff_mem, mem_instructionAddresses, hends]
      constructor
      · rintro ⟨hl, hinner⟩ a ha
        rcases List.mem_append.1 ha with ha | ha
        · exact .inl (hinner a ha)
        · obtain rfl := List.mem_singleton.1 ha
          exact hl.imp_right fun hx => ⟨rfl, hx⟩
      · intro hall
        refine ⟨(hall last (by simp)).imp_right And.right, ?_⟩
        intro a ha
        rcases hall a (by simp [ha]) with hline | ⟨rfl, -⟩
        · exact hline
        · exact absurd (hbelow a ha) (Int.lt_irrefl a)

/-- A row that lies inside a machine instruction but at none of its lines lies inside one of these, across
which another line of the section begins or ends. -/
theorem exists_crossing {q : LineSequence} {s : String} (haligned : p.isAligned q s = true) {a : Int}
    (ha : a ∈ q.addresses) {e : Encoding} (he : e ∈ p.encodingsIn s) (hstart : e.start < a)
    (hstop : a < e.stop) : (∃ i ∈ e.more, i.text = none ∧ i.address = a) ∨
      ∃ i ∈ e.lines, i.address < a ∧ a < i.stop ∧
        ∃ j ∈ p.linesIn s, j.address = a ∨ j.stop = a := by
  obtain ⟨entry, -, hrun⟩ := List.mem_flatMap.1 he
  obtain ⟨i, hi, hle, hlt⟩ := Encoding.exists_line hrun (Int.le_of_lt hstart) hstop
  rcases Int.lt_or_eq_of_le hle with hbelow | heq
  · refine .inr ⟨i, hi, hbelow, hlt, ?_⟩
    rcases p.isAligned_iff.1 haligned a ha with ⟨j, hj, hja⟩ | hends
    · exact ⟨j, hj, .inl hja⟩
    · obtain ⟨j, hj, hja⟩ := p.exists_line_of_endsWith hends
      exact ⟨j, hj, .inr hja⟩
  · rcases List.mem_cons.1 hi with rfl | hmore
    · exact absurd heq (Int.ne_of_lt hstart)
    · exact .inl ⟨i, hmore, Encoding.text_of_mem_more hrun hmore, heq⟩

/-- An ambiguous sequence keeps, in order, those of its candidates in which every row lies where a line
begins, except that the last may lie just after the section; other sequences keep all of theirs. So in a
section that is kept, a row lies at the first byte of a machine instruction, or at a line without a text, or
just after the section. It lies inside a machine instruction only where one of the further lines of that
begins, or where another line crosses a line of it. -/
theorem filterByAlignment_kept {p : Problem} {c : Candidates} (hc : c.length = p.sequences.length) :
    let r := p.filterByAlignment c
    (∀ i, (candidatesOf c i).length ≤ 1 → candidatesOf r i = candidatesOf c i) ∧
      ∀ (i : Nat) (q : LineSequence), p.sequences[i]? = some q → q.isEmpty = false →
        1 < (candidatesOf c i).length → (candidatesOf r i).Sublist (candidatesOf c i) ∧
        (∀ s, s ∈ candidatesOf r i ↔ s ∈ candidatesOf c i ∧
          ∀ a ∈ q.addresses, (∃ l ∈ p.linesIn s, l.address = a) ∨ p.EndsWith q s a) ∧
        ∀ s ∈ candidatesOf r i, ∀ a ∈ q.addresses,
          ((∃ e ∈ p.encodingsIn s, e.start = a) ∨ p.EndsWith q s a ∨
            ∃ l ∈ p.linesIn s, l.text = none ∧ l.address = a) ∧
          ∀ e ∈ p.encodingsIn s, e.start < a → a < e.stop →
            (∃ l ∈ e.more, l.text = none ∧ l.address = a) ∨
              ∃ l ∈ e.lines, l.address < a ∧ a < l.stop ∧
                ∃ l' ∈ p.linesIn s, l'.address = a ∨ l'.stop = a := by
  intro r
  have hat : ∀ {i : Nat} {q : LineSequence}, p.sequences[i]? = some q → candidatesOf r i =
      whenAmbiguous (List.filter (p.isAligned q)) (candidatesOf c i) := fun hq =>
    p.candidatesOf_narrow (fun _ => whenAmbiguous_nil _) c hq
  refine ⟨?_, ?_⟩
  · intro i hi
    cases hq : p.sequences[i]? with
    | some q => rw [hat hq, whenAmbiguous_of_le _ hi]
    | none =>
        have hnone : (c)[i]? = none := by
          rw [List.getElem?_eq_none_iff] at hq ⊢
          omega
        have hr : candidatesOf r i = [] := p.candidatesOf_narrow_eq_nil _ c hq
        rw [hr, candidatesOf, hnone, Option.getD_none]
  · intro i q hq _ hi
    have hfilter : candidatesOf r i = (candidatesOf c i).filter (p.isAligned q) := by
      rw [hat hq, whenAmbiguous, if_neg (by omega)]
    rw [hfilter]
    refine ⟨List.filter_sublist, ?_, ?_⟩
    · intro s
      rw [List.mem_filter, p.isAligned_iff]
    · intro s hs a ha
      have haligned := (List.mem_filter.1 hs).2
      refine ⟨?_, fun e he hstart hstop => p.exists_crossing haligned ha he hstart hstop⟩
      rcases p.isAligned_iff.1 haligned a ha with ⟨l, hl, rfl⟩ | hends
      · by_cases htext : l.text = none
        · exact .inr (.inr ⟨l, hl, htext, rfl⟩)
        · exact .inl (p.exists_encodingsIn hl htext)
      · exact .inr (.inl hends)

def twoEncodings : List String :=
  ["Disassembly of section .text:", "0000000000000000 <f>:",
    "   0:\t48 b8 88 77 66 55 44 \tmovabs $0x1122334455667788,%rax", "   7:\t33 22 11 ",
    "   a:\tc3 \tret",
    "Disassembly of section .init:", "0000000000000000 <g>:",
    "   0:\t48 8d 05 00 00 00 00 \tlea    0x0(%rip),%rax", "   7:\tff d0 \tcall   *%rax",
    "   9:\t5d \tpop    %rbp", "   a:\tc3 \tret"]

/-- The second row lies inside an instruction of the first section and at one of the second. -/
def rowInside : Problem where
  listed := [".text", ".init"]
  code :=
    [(".text", [("f", [⟨0x0, "48 b8 88 77 66 55 44", some "movabs $0x1122334455667788,%rax"⟩,
        ⟨0x7, "33 22 11", none⟩, ⟨0xa, "c3", some "ret"⟩])]),
      (".init", [("g", [⟨0x0, "48 8d 05 00 00 00 00", some "lea    0x0(%rip),%rax"⟩,
        ⟨0x7, "ff d0", some "call   *%rax"⟩, ⟨0x9, "5d", some "pop    %rbp"⟩,
        ⟨0xa, "c3", some "ret"⟩])])]
  sequences :=
    [.ofList [(0x0, ⟨some "a.c", 1, 0, true, 0⟩), (0x7, ⟨some "a.c", 1, 0, true, 0⟩),
      (0xb, ⟨some "a.c", 1, 0, true, 0⟩)]]
  symbols := []
  declarations := []

/-- The first section is kept although the second row lies inside its first instruction, where a further
line of that begins. -/
theorem filterByAlignment_kept_rowInside :
    let r := rowInside.filterByAlignment [[".text", ".init"]]
    (Listing.read twoEncodings).outcome.toOption.map (·.state.code) = some rowInside.code ∧
      rowInside.sequences[0].isEmpty = false ∧ ".text" ∈ candidatesOf r 0 ∧
      ∃ e ∈ rowInside.encodingsIn ".text", e.start < 0x7 ∧ 0x7 < e.stop ∧
        ∃ l ∈ e.more, l.text = none ∧ l.address = 0x7 := by
  intro r
  obtain ⟨-, hkept⟩ := @filterByAlignment_kept rowInside [[".text", ".init"]] rfl
  obtain ⟨-, -, hrows⟩ := hkept 0 rowInside.sequences[0] rfl rfl (by decide)
  have htext : ".text" ∈ candidatesOf r 0 := by decide
  let e : Encoding := ⟨⟨0x0, "48 b8 88 77 66 55 44", some "movabs $0x1122334455667788,%rax"⟩,
    [⟨0x7, "33 22 11", none⟩]⟩
  have he : e ∈ rowInside.encodingsIn ".text" := List.mem_cons_self
  refine ⟨by decide +kernel, rfl, htext, e, he, by decide, by decide, ?_⟩
  rcases (hrows ".text" htext 0x7 (by decide)).2 e he (by decide) (by decide) with
    hmore | ⟨l, hl, hbelow, habove, -⟩
  · exact hmore
  · have hout : ∀ l ∈ e.lines, ¬ (l.address < 0x7 ∧ 0x7 < l.stop) := by decide
    exact absurd ⟨hbelow, habove⟩ (hout l hl)

end Matching.Problem

end LineAtlas
