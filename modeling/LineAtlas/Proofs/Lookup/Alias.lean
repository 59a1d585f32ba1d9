import LineAtlas.Proofs.Annotation.Entries
import LineAtlas.Proofs.SymbolTable

/-!
# Entries by other names

A name that no entry has is looked for in the symbol table, address by address in the order of the table. Where it
stands for an address at which no entry starts, the search goes on. An entry without instructions starts nowhere
and is found by its own name only.
-/

namespace LineAtlas.Snapshot

open SymbolTable

def Named (rs : List Row) (s name : String) (a : Int) : Prop :=
  ∃ r ∈ rs, r.home = s ∧ (r.address : Int) = a ∧ r.name = name

def Starts (entries : Entries) (a : Int) : Prop :=
  ∃ e ∈ entries, startOf? e.2 = some a

/-- These are the instructions of the first entry that starts at the address. -/
def StartsFirst (entries : Entries) (a : Int) (run : List Instruction) : Prop :=
  ∃ before name after, entries = before ++ (name, run) :: after ∧ startOf? run = some a ∧ ¬ Starts before a

theorem any_symbolsAt {rs : List Row} {s name : String} {a : Int} :
    (symbolsAt rs s a).any (·.name = name) = true ↔ Named rs s name a := by
  simp only [symbolsAt, Named, List.any_map, List.any_eq_true, List.mem_filter, Function.comp_apply,
    decide_eq_true_eq, and_assoc]
  rfl

theorem entryAt?_eq_some_iff {entries : Entries} {a : Int} {run : List Instruction} :
    entryAt? entries a = some run ↔ StartsFirst entries a run := by
  simp only [entryAt?, Option.map_eq_some_iff, List.find?_eq_some_iff_append, decide_eq_true_eq]
  constructor
  · rintro ⟨⟨name, run⟩, ⟨hstart, before, after, rfl, hbefore⟩, rfl⟩
    refine ⟨before, name, after, rfl, hstart, ?_⟩
    rintro ⟨e, he, hstarts⟩
    simpa [hstarts] using hbefore e he
  · rintro ⟨before, name, after, rfl, hstart, hbefore⟩
    refine ⟨(name, run), ⟨hstart, before, after, rfl, ?_⟩, rfl⟩
    intro e he
    have hnot : startOf? e.2 ≠ some a := fun hstarts => hbefore ⟨e, he, hstarts⟩
    simp [hnot]

theorem entryAt?_eq_none_iff {entries : Entries} {a : Int} :
    entryAt? entries a = none ↔ ¬ Starts entries a := by
  simp [entryAt?, Starts]

variable {x : Snapshot}

theorem instructions?_of_not_mem {rs : List Row} (hsymbols : x.symbols = ofRows rs) {s name : String}
    {entries : Entries} (hs : x.code.get? s = some entries) (hname : name ∉ Keyed.keys entries) :
    x.instructions? s name = (addressesIn rs s).findSome? fun a =>
      if (symbolsAt rs s a).any (·.name = name) then entryAt? entries a else none := by
  simp only [instructions?, hs, Option.bind_eq_bind, Option.bind_some, Keyed.get?_eq_none hname, hsymbols,
    inSection_ofRows, symbolsIn, Keyed.tabulate, List.findSome?_map]
  rfl

theorem instructions?_eq_some_iff_first {rs : List Row} (hsymbols : x.symbols = ofRows rs) {s name : String}
    {entries : Entries} (hs : x.code.get? s = some entries) (hname : name ∉ Keyed.keys entries)
    {run : List Instruction} : x.instructions? s name = some run ↔ ∃ before a after,
      addressesIn rs s = before ++ a :: after ∧ Named rs s name a ∧ StartsFirst entries a run ∧
      ∀ b ∈ before, Named rs s name b → ¬ Starts entries b := by
  rw [instructions?_of_not_mem hsymbols hs hname, List.findSome?_eq_some_iff]
  simp only [any_symbolsAt, Option.ite_none_right_eq_some, ite_eq_right_iff, entryAt?_eq_some_iff,
    entryAt?_eq_none_iff, and_assoc]

/-- A name that no entry has finds an entry just if it stands for an address at which one starts. -/
theorem isSome_instructions?_iff {rs : List Row} (hsymbols : x.symbols = ofRows rs) {s name : String}
    {entries : Entries} (hs : x.code.get? s = some entries) (hname : name ∉ Keyed.keys entries) :
    (x.instructions? s name).isSome = true ↔ ∃ a, Named rs s name a ∧ Starts entries a := by
  have hlooked : ∀ a, Named rs s name a → a ∈ addressesIn rs s := by
    rintro a ⟨r, hr, hhome, haddress, -⟩
    exact mem_addressesIn.2 ⟨r, hr, hhome, haddress⟩
  rw [instructions?_of_not_mem hsymbols hs hname, List.findSome?_isSome_iff]
  constructor
  · rintro ⟨a, -, hfound⟩
    split at hfound
    · rename_i hnamed
      refine ⟨a, any_symbolsAt.1 hnamed, ?_⟩
      by_contra hnone
      rw [entryAt?_eq_none_iff.2 hnone] at hfound
      cases hfound
    · cases hfound
  · rintro ⟨a, hnamed, hstarts⟩
    refine ⟨a, hlooked a hnamed, ?_⟩
    rw [if_pos (any_symbolsAt.2 hnamed), Option.isSome_iff_ne_none]
    exact fun hnone => entryAt?_eq_none_iff.1 hnone hstarts

/-- Where a name stands for one address only and one entry starts there, it finds that entry. -/
theorem instructions?_of_single {rs : List Row} (hsymbols : x.symbols = ofRows rs) {s name : String}
    {entries : Entries} (hs : x.code.get? s = some entries) (hname : name ∉ Keyed.keys entries) {a : Int}
    (hnamed : Named rs s name a) (honly : ∀ b, Named rs s name b → b = a) {e : String × List Instruction}
    (he : e ∈ entries) (hstarts : startOf? e.2 = some a)
    (hsingle : ∀ f ∈ entries, startOf? f.2 = some a → f = e) : x.instructions? s name = some e.2 := by
  have hsome := (isSome_instructions?_iff hsymbols hs hname).2 ⟨a, hnamed, e, he, hstarts⟩
  obtain ⟨run, hrun⟩ := Option.isSome_iff_exists.1 hsome
  obtain ⟨-, b, -, -, hb, ⟨before, n, after, rfl, hstart, -⟩, -⟩ :=
    (instructions?_eq_some_iff_first hsymbols hs hname).1 hrun
  obtain rfl := honly b hb
  have hfound := hsingle (n, run) (by simp) hstart
  rw [hrun, ← hfound]

theorem symbols_of_ofDumps {d : Dumps} {compilationDirectory path : Option String}
    (h : (ofDumps d compilationDirectory path).outcome = .ok x) : x.symbols = ofRows (rows d.symbols) := by
  simp only [ofDumps, Logged.outcome_bind_eq_ok_iff] at h
  obtain ⟨listing, -, symbols, hsymbols, info, -, lines, -, h⟩ := h
  rw [outcome_assemble, Except.map_eq_ok_iff] at h
  obtain ⟨matching, -, rfl⟩ := h
  exact state_of_read hsymbols

/-- In a section that is listed an entry goes by its name. Any other name finds an entry just if the symbol table
gives it to an address at which one with instructions starts. The one found is then the first in listing order at
the first such address in the order of the symbol table, with all of its instructions; where the name stands for one
address only and one entry starts there, it is that entry. -/
theorem instructions?_of_ofDumps {d : Dumps} {compilationDirectory path : Option String}
    (h : (ofDumps d compilationDirectory path).outcome = .ok x) {s : String} {entries : Entries}
    (hs : x.code.get? s = some entries) (name : String) :
    let rs := rows d.symbols
    (∀ run, (name, run) ∈ entries → x.instructions? s name = some run) ∧
    (name ∉ Keyed.keys entries →
      ((x.instructions? s name).isSome = true ↔ ∃ a, Named rs s name a ∧ Starts entries a) ∧
      (∀ run, x.instructions? s name = some run ↔ ∃ before a after,
        addressesIn rs s = before ++ a :: after ∧ Named rs s name a ∧ StartsFirst entries a run ∧
        ∀ b ∈ before, Named rs s name b → ¬ Starts entries b) ∧
      ∀ a, Named rs s name a → (∀ b, Named rs s name b → b = a) →
        ∀ e ∈ entries, startOf? e.2 = some a → (∀ f ∈ entries, startOf? f.2 = some a → f = e) →
          x.instructions? s name = some e.2) := by
  intro rs
  have hsymbols := symbols_of_ofDumps h
  constructor
  · intro run hrun
    have hnodup := (distinct_of_ofDumps h).entries s entries (Keyed.mem_of_get? hs)
    exact x.instructions?_of_get? hs ((Keyed.get?_eq_some_iff hnodup).2 hrun)
  · intro hname
    refine ⟨isSome_instructions?_iff hsymbols hs hname,
      fun run => instructions?_eq_some_iff_first hsymbols hs hname, ?_⟩
    intro a hnamed honly e he hstarts hsingle
    exact instructions?_of_single hsymbols hs hname hnamed honly he hstarts hsingle

/-- A name stands for two addresses. No entry with instructions starts at the first, two start at the second. -/
def twoAddresses : Dumps where
  code := ["Disassembly of section .text:", "4 <g>:", "4: c3 ret", "4 <h>:", "4: 90 nop", "8 <end>:"]
  symbols := ["8 g     F .text 1 alias", "4 g     F .text 1 alias"]
  info := []
  lines := []

theorem instructions?_of_ofDumps_twoAddresses :
    ∃ x entries, (ofDumps twoAddresses none none).outcome = .ok x ∧
      x.code.get? ".text" = some entries ∧ "alias" ∉ Keyed.keys entries ∧
      x.instructions? ".text" "alias" = some [⟨4, "c3", some "ret"⟩] ∧
      x.instructions? ".text" "end" = some [] := by
  let g : String × List Instruction := ("g", [⟨4, "c3", some "ret"⟩])
  let after : Entries := [("h", [⟨4, "90", some "nop"⟩]), ("end", [])]
  have hcode : (ofDumps twoAddresses none none).outcome.toOption.map (fun x => x.code.get? ".text") =
      some (some (g :: after)) := by
    decide +kernel
  obtain ⟨x, hx, hs⟩ := Logged.exists_outcome_eq_ok hcode
  obtain ⟨-, hother⟩ := instructions?_of_ofDumps hx hs "alias"
  have hrows : rows twoAddresses.symbols = [⟨8, ".text", 1, "alias"⟩, ⟨4, ".text", 1, "alias"⟩] := by
    decide +kernel
  rw [hrows] at hother
  have hnot : "alias" ∉ Keyed.keys (g :: after) := by
    decide
  refine ⟨x, _, hx, hs, hnot, ?_, (instructions?_of_ofDumps hx hs "end").1 [] (by simp [after])⟩
  apply ((hother hnot).2.1 g.2).2
  refine ⟨[8], 4, [], by decide +kernel, by simp [Named], ⟨[], "g", after, rfl, rfl, ?_⟩, ?_⟩
  · simp [Starts]
  · simp [Starts, g, after, startOf?]

end LineAtlas.Snapshot
