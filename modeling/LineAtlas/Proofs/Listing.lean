import LineAtlas.Listing
import LineAtlas.Proofs.Keyed
import LineAtlas.Proofs.Listing.Item
import Mathlib.Data.List.DropRight
import Mathlib.Data.List.Infix

/-!
# What a printed listing says

Every item of a listing belongs to the section of the last header before it and to the entry of the last
entry line since that header. The code table read from a listing holds the sections and entries in the
order in which they are first named, with all instructions that belong to them, and the lines not
understood are those that belong nowhere.
-/

namespace LineAtlas.Listing

namespace Item

def headerName? : Item → Option String
  | header name => some name
  | _ => none

def entryName? : Item → Option String
  | entry _ _ name => some name
  | _ => none

def instruction? : Item → Option Instruction
  | instruction _ _ address bytes _ text =>
    some ⟨address, String.ofList (byteColumn bytes), text⟩
  | _ => none

end Item

/-! ## Where items belong -/

def sectionAfter? (earlier : List Item) : Option String :=
  (earlier.filterMap Item.headerName?).getLast?

def entryAfter? (earlier : List Item) : Option String :=
  ((earlier.rtakeWhile (·.headerName?.isNone)).filterMap Item.entryName?).getLast?

def placeAfter? (earlier : List Item) : Option (String × String) := do
  return (← sectionAfter? earlier, ← entryAfter? earlier)

/-- Whether an item belongs somewhere: an entry needs a section and an instruction an entry. -/
def Item.belongs (earlier : List Item) : Item → Bool
  | .entry _ _ _ => (sectionAfter? earlier).isSome
  | .instruction _ _ _ _ _ _ => (placeAfter? earlier).isSome
  | _ => true

def inContext (items : List Item) : List (List Item × Item) :=
  items.inits.zip items

def sectionNames (items : List Item) : List String :=
  (items.filterMap Item.headerName?).eraseDups

def entryNames (items : List Item) (s : String) : List String :=
  ((inContext items).filterMap fun (earlier, item) =>
    if sectionAfter? earlier = some s then item.entryName? else none).eraseDups

def instructionsUnder (items : List Item) (s e : String) : List Instruction :=
  (inContext items).filterMap fun (earlier, item) =>
    if placeAfter? earlier = some (s, e) then item.instruction? else none

def entriesUnder (items : List Item) (s : String) : Entries :=
  Keyed.tabulate (entryNames items s) (instructionsUnder items s)

def codeTable (items : List Item) : CodeTable :=
  Keyed.tabulate (sectionNames items) (entriesUnder items)

def strayLines (items : List Item) : List String :=
  (inContext items).filterMap fun (earlier, item) =>
    if item.belongs earlier then none else some item.text

/-! ## One more item -/

theorem inContext_concat (items : List Item) (item : Item) :
    inContext (items ++ [item]) = inContext items ++ [(items, item)] := by
  unfold inContext
  induction items with
  | nil => rfl
  | cons first items ih =>
      rw [List.cons_append, List.inits_cons, List.zip_cons_cons, List.zip_map_left, ih,
        List.inits_cons, List.zip_cons_cons, List.zip_map_left, List.map_append]
      rfl

theorem sectionAfter?_concat (items : List Item) (item : Item) :
    sectionAfter? (items ++ [item]) = item.headerName?.or (sectionAfter? items) := by
  cases h : item.headerName? <;> simp [sectionAfter?, h]

theorem entryAfter?_concat (items : List Item) (item : Item) :
    entryAfter? (items ++ [item]) =
      if item.headerName?.isSome then none else item.entryName?.or (entryAfter? items) := by
  rw [entryAfter?, List.rtakeWhile_concat]
  cases h : item.headerName? with
  | some name => rfl
  | none => cases he : item.entryName? <;> simp [entryAfter?, he]

theorem sectionNames_concat (items : List Item) (item : Item) :
    sectionNames (items ++ [item]) = match item.headerName? with
      | none => sectionNames items
      | some s => if s ∈ sectionNames items then sectionNames items else sectionNames items ++ [s] := by
  rw [sectionNames, List.filterMap_append]
  cases h : item.headerName? with
  | none => simp [sectionNames, h]
  | some s =>
      simp only [List.filterMap_cons, h, List.filterMap_nil, eraseDups_concat]
      rfl

theorem entryNames_concat (items : List Item) (item : Item) (s : String) :
    entryNames (items ++ [item]) s =
      match if sectionAfter? items = some s then item.entryName? else none with
      | none => entryNames items s
      | some e => if e ∈ entryNames items s then entryNames items s else entryNames items s ++ [e] := by
  rw [entryNames, inContext_concat, List.filterMap_append]
  cases h : if sectionAfter? items = some s then item.entryName? else none with
  | none => simp [entryNames, h]
  | some e =>
      simp only [List.filterMap_cons, h, List.filterMap_nil, eraseDups_concat]
      rfl

theorem instructionsUnder_concat (items : List Item) (item : Item) (s e : String) :
    instructionsUnder (items ++ [item]) s e = instructionsUnder items s e ++
      (if placeAfter? items = some (s, e) then item.instruction? else none).toList := by
  rw [instructionsUnder, inContext_concat, List.filterMap_append]
  cases h : if placeAfter? items = some (s, e) then item.instruction? else none <;>
    simp [instructionsUnder, h]

theorem strayLines_concat (items : List Item) (item : Item) :
    strayLines (items ++ [item]) =
      strayLines items ++ if item.belongs items then [] else [item.text] := by
  rw [strayLines, inContext_concat, List.filterMap_append]
  cases h : item.belongs items <;> simp [strayLines, h]

/-! ## Sections and entries not named yet -/

theorem mem_sectionNames {items : List Item} {s : String} (h : sectionAfter? items = some s) :
    s ∈ sectionNames items :=
  List.mem_eraseDups.2 (List.mem_of_getLast? h)

theorem entryNames_eq_nil {items : List Item} {s : String} (h : s ∉ sectionNames items) :
    entryNames items s = [] := by
  induction items using List.reverseRecOn with
  | nil => rfl
  | append_singleton items item ih =>
      have hs : s ∉ sectionNames items := by
        intro hmem
        apply h
        simp only [sectionNames, List.filterMap_append, List.mem_eraseDups, List.mem_append] at hmem ⊢
        exact .inl hmem
      rw [entryNames_concat, if_neg (mt mem_sectionNames hs)]
      exact ih hs

theorem mem_entryNames_concat_iff {items : List Item} {item : Item} {s e : String} :
    e ∈ entryNames (items ++ [item]) s ↔
      e ∈ entryNames items s ∨ sectionAfter? items = some s ∧ item.entryName? = some e := by
  rw [entryNames, entryNames, inContext_concat, List.filterMap_append, List.mem_eraseDups,
    List.mem_eraseDups, List.mem_append]
  by_cases hs : sectionAfter? items = some s <;> simp [hs]

theorem placeAfter?_eq_some_iff {items : List Item} {s e : String} :
    placeAfter? items = some (s, e) ↔ sectionAfter? items = some s ∧ entryAfter? items = some e := by
  cases hs : sectionAfter? items <;> cases he : entryAfter? items <;> simp [placeAfter?, hs, he]

theorem mem_entryNames {items : List Item} {s e : String} (h : placeAfter? items = some (s, e)) :
    e ∈ entryNames items s := by
  induction items using List.reverseRecOn with
  | nil => cases h
  | append_singleton items item ih =>
      rw [placeAfter?_eq_some_iff, sectionAfter?_concat, entryAfter?_concat] at h
      cases hheader : item.headerName? with
      | some name => simp [hheader] at h
      | none =>
          simp only [hheader, Option.none_or, Option.isSome_none, Bool.false_eq_true, if_false] at h
          obtain ⟨hs, he⟩ := h
          cases hentry : item.entryName? with
          | some name =>
              rw [hentry, Option.some_or] at he
              exact mem_entryNames_concat_iff.2 (.inr ⟨hs, hentry.trans he⟩)
          | none =>
              rw [hentry, Option.none_or] at he
              exact mem_entryNames_concat_iff.2 (.inl (ih (placeAfter?_eq_some_iff.2 ⟨hs, he⟩)))

theorem instructionsUnder_eq_nil {items : List Item} {s e : String} (h : e ∉ entryNames items s) :
    instructionsUnder items s e = [] := by
  induction items using List.reverseRecOn with
  | nil => rfl
  | append_singleton items item ih =>
      have he : e ∉ entryNames items s := mt (fun hmem => mem_entryNames_concat_iff.2 (.inl hmem)) h
      rw [instructionsUnder_concat, if_neg (mt mem_entryNames he), ih he]
      rfl

theorem entriesUnder_eq_nil {items : List Item} {s : String} (h : s ∉ sectionNames items) :
    entriesUnder items s = [] := by
  rw [entriesUnder, entryNames_eq_nil h]
  rfl

theorem entriesUnder_concat_of_ne {items : List Item} {s s' : String}
    (hs : sectionAfter? items = some s) (h : s' ≠ s) (item : Item) :
    entriesUnder (items ++ [item]) s' = entriesUnder items s' := by
  have hsection : sectionAfter? items ≠ some s' := by
    rw [hs]
    exact fun heq => h (Option.some.inj heq).symm
  have hplace (e : String) : placeAfter? items ≠ some (s', e) :=
    fun heq => hsection (placeAfter?_eq_some_iff.1 heq).1
  have hentries : entryNames (items ++ [item]) s' = entryNames items s' := by
    rw [entryNames_concat, if_neg hsection]
  have hinstructions : instructionsUnder (items ++ [item]) s' = instructionsUnder items s' := by
    funext e
    rw [instructionsUnder_concat, if_neg (hplace e), Option.toList_none, List.append_nil]
  rw [entriesUnder, hentries, hinstructions, entriesUnder]

/-- What adds nothing to the section it is in leaves the entries of every section as they are. -/
theorem entriesUnder_concat {items : List Item} {item : Item}
    (hentry : sectionAfter? items = none ∨ item.entryName? = none)
    (hinstruction : placeAfter? items = none ∨ item.instruction? = none) :
    entriesUnder (items ++ [item]) = entriesUnder items := by
  have hentries (s : String) : entryNames (items ++ [item]) s = entryNames items s := by
    rw [entryNames_concat]
    rcases hentry with h | h <;> simp [h]
  have hinstructions (s e : String) :
      instructionsUnder (items ++ [item]) s e = instructionsUnder items s e := by
    rw [instructionsUnder_concat]
    rcases hinstruction with h | h <;> simp [h]
  funext s
  rw [entriesUnder, hentries, funext (hinstructions s), entriesUnder]

/-! ## Reading -/

structure Holds (l : Listing) (items : List Item) : Prop where
  code : l.code = codeTable items
  current : l.current = sectionAfter? items
  place : l.place? = placeAfter? items

theorem holds_empty : Holds empty [] :=
  ⟨rfl, rfl, rfl⟩

variable {l : Listing} {items : List Item}

theorem change_codeTable {s : String} (hs : sectionAfter? items = some s) {item : Item}
    (f : Entries → Entries) (hheader : item.headerName? = none)
    (hf : f (entriesUnder items s) = entriesUnder (items ++ [item]) s) :
    (codeTable items).change s f = codeTable (items ++ [item]) := by
  have hupdate : Function.update (entriesUnder items) s (f (entriesUnder items s)) =
      entriesUnder (items ++ [item]) := by
    funext s'
    by_cases h : s' = s
    · subst h
      rw [Function.update_self, hf]
    · rw [Function.update_of_ne h, entriesUnder_concat_of_ne hs h]
  rw [codeTable, Keyed.change_tabulate, hupdate, codeTable, sectionNames_concat, hheader]

namespace Holds

theorem step_header (h : Holds l items) (name : String) :
    ∃ l', l.step (.header name) = .ok (some l') ∧ Holds l' (items ++ [.header name]) := by
  refine ⟨_, rfl, ?_, ?_, ?_⟩
  · have hnew : name ∉ sectionNames items → entriesUnder items name = [] := entriesUnder_eq_nil
    have hentries : entriesUnder (items ++ [.header name]) = entriesUnder items :=
      entriesUnder_concat (.inr rfl) (.inr rfl)
    rw [h.code, codeTable, codeTable, hentries, sectionNames_concat]
    exact Keyed.alter_tabulate hnew
  · rw [sectionAfter?_concat]
    rfl
  · simp [placeAfter?, entryAfter?_concat, Item.headerName?, place?]

theorem step_entry (h : Holds l items) {s : String} (hs : sectionAfter? items = some s)
    (width address : Nat) (name : String) :
    ∃ l', l.step (.entry name) = .ok (some l') ∧
      Holds l' (items ++ [.entry width address name]) := by
  have hcurrent : l.current = some s := h.current.trans hs
  refine ⟨_, by rw [step, hcurrent], ?_, ?_, ?_⟩
  · have hnew : name ∉ entryNames items s → instructionsUnder items s name = [] :=
      instructionsUnder_eq_nil
    have hinstructions : instructionsUnder (items ++ [.entry width address name]) s =
        instructionsUnder items s := by
      funext e
      rw [instructionsUnder_concat]
      simp [Item.instruction?]
    have halter : (entriesUnder items s).alter name (fun run => run.getD []) =
        entriesUnder (items ++ [.entry width address name]) s := by
      rw [entriesUnder, entriesUnder, entryNames_concat, hinstructions, if_pos hs]
      exact Keyed.alter_tabulate hnew
    rw [h.code]
    exact change_codeTable hs (·.alter name (·.getD [])) rfl halter
  · rw [sectionAfter?_concat]
    exact hs.symm
  · rw [placeAfter?, sectionAfter?_concat, entryAfter?_concat]
    simp [Item.headerName?, Item.entryName?, hs, place?]

theorem step_instruction (h : Holds l items) {s e : String} (hplace : placeAfter? items = some (s, e))
    (indent width address : Nat) (bytes : List UInt8) (pad : Nat) (text : Option String) :
    ∃ l', l.step (.instruction address (String.ofList (byteColumn bytes)) text) = .ok (some l') ∧
      Holds l' (items ++ [.instruction indent width address bytes pad text]) := by
  have hs := (placeAfter?_eq_some_iff.1 hplace).1
  refine ⟨_, by rw [step, h.place, hplace], ?_, ?_, ?_⟩
  · let item := Item.instruction indent width address bytes pad text
    have hinstructions : Function.update (instructionsUnder items s) e
        (instructionsUnder items s e ++ [⟨address, String.ofList (byteColumn bytes), text⟩]) =
          instructionsUnder (items ++ [item]) s := by
      funext e'
      rw [instructionsUnder_concat, hplace]
      by_cases he : e' = e
      · subst he
        simp [item, Item.instruction?]
      · rw [Function.update_of_ne he, if_neg (by simp [Ne.symm he])]
        simp
    have hchange : (entriesUnder items s).change e
        (· ++ [⟨address, String.ofList (byteColumn bytes), text⟩]) =
          entriesUnder (items ++ [item]) s := by
      rw [entriesUnder, Keyed.change_tabulate, hinstructions, entriesUnder, entryNames_concat,
        if_pos hs]
      rfl
    rw [change, h.code]
    exact change_codeTable hs _ rfl hchange
  · rw [sectionAfter?_concat, ← h.current]
    rfl
  · rw [placeAfter?, sectionAfter?_concat, entryAfter?_concat]
    exact h.place

/-- An item that adds nothing, or that belongs nowhere, leaves the listing as it is. -/
theorem concat_of_ignored (h : Holds l items) {item : Item} (hheader : item.headerName? = none)
    (hentry : sectionAfter? items = none ∨ item.entryName? = none)
    (hinstruction : placeAfter? items = none ∨ item.instruction? = none) :
    Holds l (items ++ [item]) := by
  have hsection : sectionAfter? (items ++ [item]) = sectionAfter? items := by
    rw [sectionAfter?_concat, hheader, Option.none_or]
  refine ⟨?_, h.current.trans hsection.symm, ?_⟩
  · rw [h.code, codeTable, codeTable, entriesUnder_concat hentry hinstruction, sectionNames_concat,
      hheader]
  · rw [h.place, placeAfter?, placeAfter?, hsection, entryAfter?_concat, hheader]
    rcases hentry with hnone | hnone <;> simp [hnone]

/-- An item that belongs somewhere is added, any other is not understood. -/
theorem step (h : Holds l items) (item : Item) :
    (item.belongs items = true ∧
        ∃ l', l.step item.line = .ok (some l') ∧ Holds l' (items ++ [item])) ∨
      item.belongs items = false ∧ l.step item.line = .ok none ∧ Holds l (items ++ [item]) := by
  cases item with
  | header name => exact .inl ⟨rfl, h.step_header name⟩
  | entry width address name =>
      cases hs : sectionAfter? items with
      | some s => exact .inl ⟨by simp [Item.belongs, hs], h.step_entry hs width address name⟩
      | none =>
          refine .inr ⟨by simp [Item.belongs, hs], ?_, ?_⟩
          · rw [Item.line, Listing.step, h.current, hs]
          · exact h.concat_of_ignored rfl (.inl hs) (.inr rfl)
  | instruction indent width address bytes pad text =>
      cases hplace : placeAfter? items with
      | some found =>
          exact .inl ⟨by simp [Item.belongs, hplace],
            h.step_instruction hplace indent width address bytes pad text⟩
      | none =>
          refine .inr ⟨by simp [Item.belongs, hplace], ?_, ?_⟩
          · rw [Item.line, Listing.step, h.place, hplace]
          · exact h.concat_of_ignored rfl (.inr rfl) (.inl hplace)
  | blank gap => exact .inl ⟨rfl, l, rfl, h.concat_of_ignored rfl (.inr rfl) (.inr rfl)⟩
  | dots gap => exact .inl ⟨rfl, l, rfl, h.concat_of_ignored rfl (.inr rfl) (.inr rfl)⟩
  | banner path gap fileFormat =>
      exact .inl ⟨rfl, l, rfl, h.concat_of_ignored rfl (.inr rfl) (.inr rfl)⟩

end Holds

theorem feedLine_item {r : Reading Listing} (hholds : Holds r.state items)
    (hstray : r.unrecognized.toList = strayLines items) {item : Item} (hvalid : item.Valid) :
    ∃ r', (format.feedLine r item.text).outcome = .ok r' ∧ Holds r'.state (items ++ [item]) ∧
      r'.unrecognized.toList = strayLines (items ++ [item]) := by
  have hread : format.readLine r.state item.text =
      (r.state.step item.line).map fun next => next.map fun l => (l, []) := by
    change readLine r.state item.text = _
    rw [readLine, Item.ofText?_text hvalid]
  rw [strayLines_concat, DumpFormat.feedLine, (Item.oneLine_text hvalid).withoutLineEnd_eq, hread]
  rcases hholds.step item with ⟨hbelongs, l', hstep, hholds'⟩ | ⟨hbelongs, hstep, hholds'⟩
  · rw [hstep, hbelongs]
    refine ⟨{ r with state := l' }, rfl, hholds', ?_⟩
    rw [hstray, if_pos rfl, List.append_nil]
  · rw [hstep, hbelongs]
    refine ⟨{ r with unrecognized := r.unrecognized.push item.text }, rfl, hholds', ?_⟩
    rw [Array.toList_push, hstray]
    rfl

theorem feed_items {earlier later : List Item} {r : Reading Listing}
    (hholds : Holds r.state earlier) (hstray : r.unrecognized.toList = strayLines earlier)
    (hvalid : ∀ item ∈ later, item.Valid) :
    ∃ r', (format.feed r (later.map Item.text)).outcome = .ok r' ∧
      Holds r'.state (earlier ++ later) ∧
      r'.unrecognized.toList = strayLines (earlier ++ later) := by
  induction later generalizing earlier r with
  | nil => exact ⟨r, rfl, by rwa [List.append_nil], by rwa [List.append_nil]⟩
  | cons item later ih =>
      obtain ⟨hitem, hlater⟩ := List.forall_mem_cons.1 hvalid
      obtain ⟨r₁, hline, hholds₁, hstray₁⟩ := feedLine_item hholds hstray hitem
      obtain ⟨r₂, hfeed, hrest⟩ := ih hholds₁ hstray₁ hlater
      rw [List.append_assoc, List.singleton_append] at hrest
      refine ⟨r₂, ?_, hrest⟩
      rw [List.map_cons, DumpFormat.feed_cons, Logged.outcome_bind_eq_ok_iff]
      exact ⟨r₁, hline, hfeed⟩

/-- A listing is read back from its printed lines: its sections and the entries of each as they are first
named, under every entry all instructions printed for it, and as lines not understood those of the entries
before any header and of the instructions before any entry of their section. -/
theorem read_items (h : ∀ item ∈ items, item.Valid) :
    ∃ r, (read (items.map Item.text)).outcome = .ok r ∧
      r.state.sections = sectionNames items ∧
      (∀ s ∈ sectionNames items, (r.state.code.get? s).map Keyed.keys = some (entryNames items s)) ∧
      (∀ s, ∀ e ∈ entryNames items s,
        instructions? r.state.code s e = some (instructionsUnder items s e)) ∧
      r.unrecognized.toList = strayLines items := by
  obtain ⟨r, hfeed, hholds, hstray⟩ := feed_items (r := format.begin) holds_empty rfl h
  rw [List.nil_append] at hholds hstray
  have hsection (s : String) : r.state.code.get? s =
      if s ∈ sectionNames items then some (entriesUnder items s) else none := by
    rw [hholds.code, codeTable, Keyed.get?_tabulate]
  refine ⟨r, ?_, ?_, ?_, ?_, hstray⟩
  · rw [read, Logged.outcome_bind_eq_ok_iff]
    exact ⟨r, hfeed, rfl⟩
  · rw [sections, hholds.code, codeTable, Keyed.keys_tabulate]
  · intro s hs
    rw [hsection, if_pos hs, Option.map_some, entriesUnder, Keyed.keys_tabulate]
  · intro s e he
    have hs : s ∈ sectionNames items := by
      by_contra hs
      rw [entryNames_eq_nil hs] at he
      cases he
    rw [instructions?, hsection, if_pos hs, Option.bind_some, entriesUnder, Keyed.get?_tabulate,
      if_pos he]

/-- A listing that names a section and an entry twice. One entry has no section, and two instructions have
no entry, one of them after the second header of a section that has some. -/
def repeatedHeaders : List Item :=
  [.banner "a.out" 4 "elf64-x86-64", .blank "", .entry 8 0 "lost",
    .header ".text", .instruction 0 4 0x0 [0x90] 0 (some "nop"),
    .entry 16 0x1129 "f>:", .instruction 4 0 0x1129 [0xe8, 0x0a] 0 (some "call   5 <g>"),
    .instruction 4 0 0x112b [0x00] 2 none, .dots "\t",
    .header ".fini", .entry 16 0x2000 "_fini", .instruction 4 0 0x2000 [0xc3] 6 (some "ret"),
    .header ".text", .instruction 4 0 0x1130 [0xc3] 6 (some "ret"),
    .entry 16 0x1130 "f>:", .instruction 4 0 0x1131 [0xc9] 6 (some "leave")]

theorem read_items_repeatedHeaders : (∀ item ∈ repeatedHeaders, item.Valid) ∧
    ∃ r, (read (repeatedHeaders.map Item.text)).outcome = .ok r ∧
      r.state.sections = [".text", ".fini"] ∧
      instructions? r.state.code ".text" "f>:" =
        some [⟨0x1129, "e8 0a", some "call   5 <g>"⟩, ⟨0x112b, "00", none⟩,
          ⟨0x1131, "c9", some "leave"⟩] ∧
      r.unrecognized.toList =
        ["00000000 <lost>:", "0000:\t90 \tnop", "    1130:\tc3       \tret"] := by
  have hvalid : ∀ item ∈ repeatedHeaders, item.Valid := by decide
  obtain ⟨r, hread, hsections, -, hinstructions, hstray⟩ := read_items hvalid
  refine ⟨hvalid, r, hread, hsections.trans ?_, (hinstructions _ _ ?_).trans ?_, hstray.trans ?_⟩
  · rfl
  · decide
  · rfl
  · rfl

end LineAtlas.Listing
