import LineAtlas.Proofs.Listing.Distinct
import LineAtlas.Proofs.Lookup
import LineAtlas.Snapshot.Annotation

/-!
# The instructions of a section

The listing of a section goes through its entries in the order of the addresses at which they start. Each
entry is looked for by its name, and a name that an entry has is never taken for another name of some
address, so every entry is found once and shows all of its instructions.
-/

namespace LineAtlas.Snapshot

theorem distinct_of_ofDumps {d : Dumps} {compilationDirectory path : Option String} {x : Snapshot}
    (h : (ofDumps d compilationDirectory path).outcome = .ok x) : x.code.Distinct := by
  simp only [ofDumps, Logged.outcome_bind_eq_ok_iff] at h
  obtain ⟨listing, hlisting, symbols, -, info, -, lines, -, h⟩ := h
  rw [outcome_assemble, Except.map_eq_ok_iff] at h
  obtain ⟨matching, -, rfl⟩ := h
  exact Listing.distinct_of_read hlisting

/-! ## Entries in order -/

def startingAt (entries : Entries) (a : Int) : Entries :=
  entries.filter fun e => startOf? e.2 = some a

def startsBefore (a b : String × List Instruction) : Bool :=
  (startOf? a.2).getD 0 ≤ (startOf? b.2).getD 0

theorem startsBefore_trans (a b c : String × List Instruction) :
    startsBefore a b = true → startsBefore b c = true → startsBefore a c = true := by
  simp only [startsBefore, decide_eq_true_eq]
  exact Int.le_trans

theorem startsBefore_total (a b : String × List Instruction) :
    (startsBefore a b || startsBefore b a) = true := by
  simp only [startsBefore, Bool.or_eq_true, decide_eq_true_eq]
  exact Int.le_total _ _

theorem sortedEntries_perm (entries : Entries) :
    (sortedEntries entries).Perm (entries.filter fun e => !e.2.isEmpty) :=
  List.mergeSort_perm _ _

theorem mem_sortedEntries {entries : Entries} {e : String × List Instruction} :
    e ∈ sortedEntries entries ↔ e ∈ entries ∧ e.2 ≠ [] := by
  rw [(sortedEntries_perm entries).mem_iff, List.mem_filter]
  simp

theorem pairwise_sortedEntries (entries : Entries) : (sortedEntries entries).Pairwise fun a b =>
    ∀ m n, startOf? a.2 = some m → startOf? b.2 = some n → m ≤ n := by
  have hsorted := List.pairwise_mergeSort startsBefore_trans startsBefore_total
    (entries.filter fun e => !e.2.isEmpty)
  apply List.Pairwise.imp _ hsorted
  intro a b hab m n hm hn
  simpa [startsBefore, hm, hn] using hab

/-- Sorting keeps the order of the entries that start at one address. -/
theorem startingAt_sortedEntries (entries : Entries) (a : Int) :
    startingAt (sortedEntries entries) a = startingAt entries a := by
  let found := entries.filter fun e => !e.2.isEmpty
  have hfound : startingAt found a = startingAt entries a := by
    rw [startingAt, startingAt, List.filter_filter]
    apply List.filter_congr
    rintro ⟨name, run⟩ -
    cases run <;> simp [startOf?]
  have hlevel : (startingAt found a).Pairwise fun e f => startsBefore e f = true := by
    apply List.pairwise_of_forall_mem_list
    intro e he f hf
    have hea := (List.mem_filter.1 he).2
    have hfa := (List.mem_filter.1 hf).2
    simp_all [startsBefore]
  have hsub : (startingAt found a).Sublist (sortedEntries entries) :=
    List.sublist_mergeSort startsBefore_trans startsBefore_total hlevel List.filter_sublist
  have hlength : (startingAt (sortedEntries entries) a).length = (startingAt found a).length :=
    ((sortedEntries_perm entries).filter _).length_eq
  have hself : startingAt (startingAt found a) a = startingAt found a := by
    simp [startingAt, List.filter_filter]
  have hkept : (startingAt found a).Sublist (startingAt (sortedEntries entries) a) := by
    rw [← hself]
    exact hsub.filter _
  rw [← hfound]
  exact (hkept.eq_of_length hlength.symm).symm

/-! ## All entries of a section -/

variable (x : Snapshot)

def annotated (s entry : String) (i : Instruction) : AnnotatedInstruction :=
  ⟨s, entry, i, x.resolve? s i.address⟩

theorem annotatedEntry_eq (s entry : String) :
    x.annotatedEntry s entry = ((x.instructions? s entry).getD []).map (x.annotated s entry) := rfl

/-- An entry goes by its own name before any other name of its address is looked for. -/
theorem instructions?_of_get? {s entry : String} {entries : Entries} {run : List Instruction}
    (hentries : x.code.get? s = some entries) (hrun : Keyed.get? entries entry = some run) :
    x.instructions? s entry = some run := by
  simp [instructions?, hentries, hrun]

theorem flatMap_filter_entries (s : String) (entries : Entries) :
    ((entries.filter fun e => !e.2.isEmpty).flatMap fun e => e.2.map (x.annotated s e.1)) =
      entries.flatMap fun e => e.2.map (x.annotated s e.1) := by
  induction entries with
  | nil => rfl
  | cons e entries ih =>
      cases hrun : e.2 with
      | nil => simp [hrun, ih]
      | cons i rest => simp [hrun, ih]

theorem annotatedInstructions_none {x : Snapshot} (hx : x.code.Distinct) (s : String) :
    x.annotatedInstructions s none = (sortedEntries ((x.code.get? s).getD [])).flatMap fun e =>
      e.2.map (x.annotated s e.1) := by
  cases hcode : x.code.get? s with
  | none => simp [annotatedInstructions, entries?, hcode, sortedEntries]
  | some entries =>
      have hnodup : (Keyed.keys entries).Nodup := hx.entries s entries (Keyed.mem_of_get? hcode)
      simp only [annotatedInstructions, entries?, hcode, Option.map_some, Option.getD_some, Keyed.keys,
        List.flatMap_map]
      apply List.flatMap_congr
      intro e he
      have hget : Keyed.get? entries e.1 = some e.2 :=
        (Keyed.get?_eq_some_iff hnodup).2 (mem_sortedEntries.1 he).1
      rw [annotatedEntry_eq, x.instructions?_of_get? hcode hget, Option.getD_some]

/-- Two entries start at one address, and the name of an entry without instructions is also a name of the
address at which another starts. -/
def sharedStarts : Dumps where
  code := ["Disassembly of section .text:", "0000000000000004 <g>:", "   4:\tc3   \tret",
    "0000000000000000 <f>:", "   0:\t90   \tnop", "   1:\tc3   \tret",
    "0000000000000004 <h>:", "   4:\tc3   \tret", "0000000000000008 <end>:"]
  symbols := ["0000000000000000 g     F .text\t0000000000000002 end"]
  info := []
  lines := ["  1\t0\t(line_strp)\t(offset: 0x1): a.c", "  [0x1]  Copy",
    "  [0x2]  Extended opcode 2: set Address to 0x4",
    "  [0x3]  Extended opcode 1: End of Sequence"]

end LineAtlas.Snapshot
