import LineAtlas.Proofs.Listing.Form

/-!
# Printed lines of a listing

The lines that the dump tool prints for the headers of sections and entries and for instructions, with
the blank lines, the dots and the banner between them. Each is read back as what it was printed for,
whatever the names of sections and entries hold.
-/

namespace LineAtlas.Listing

open Text

/-- What a line is printed for. Addresses have at least `width` digits and instructions are set in by
`indent` spaces; `pad` more spaces than needed stand behind the bytes. -/
inductive Item
  | header (name : String)
  | entry (width address : Nat) (name : String)
  | instruction (indent width address : Nat) (bytes : List UInt8) (pad : Nat) (text : Option String)
  | blank (gap : String)
  | dots (gap : String)
  | banner (path : String) (gap : Nat) (fileFormat : String)
  deriving DecidableEq, Repr

/-- A text that an instruction can have: it neither begins nor ends with a blank. -/
structure IsInstructionText (text : String) : Prop where
  notEmpty : text.toList ≠ []
  oneLine : OneLine text
  noBlankBefore : text.toList.head?.any isBlank = false
  noBlankAfter : text.toList.getLast?.any isBlank = false

instance (text : String) : Decidable (IsInstructionText text) :=
  decidable_of_iff (text.toList ≠ [] ∧ OneLine text ∧ text.toList.head?.any isBlank = false ∧
      text.toList.getLast?.any isBlank = false)
    ⟨fun h => ⟨h.1, h.2.1, h.2.2.1, h.2.2.2⟩,
      fun h => ⟨h.notEmpty, h.oneLine, h.noBlankBefore, h.noBlankAfter⟩⟩

def IsIndent (gap : String) : Prop :=
  OneLine gap ∧ ∀ c ∈ gap.toList, isBlank c = true

instance (gap : String) : Decidable (IsIndent gap) :=
  haveI := List.decidableBAll (fun c => isBlank c = true) gap.toList
  instDecidableAnd

def IsBannerPath (path : String) : Prop :=
  path.toList ≠ [] ∧ ∀ c ∈ path.toList, isBlank c = false ∧ c ≠ ':'

instance (path : String) : Decidable (IsBannerPath path) :=
  haveI := List.decidableBAll (fun c => isBlank c = false ∧ c ≠ ':') path.toList
  instDecidableAnd

def spaces (n : Nat) : String :=
  String.ofList (List.replicate n ' ')

def behindBytes (pad : Nat) : Option String → String
  | none => spaces pad
  | some text => s!"{spaces (pad + 1)}\t{text}"

namespace Item

def text : Item → String
  | header name => s!"Disassembly of section {name}:"
  | entry width address name => s!"{hexPadded width address} <{name}>:"
  | instruction indent width address bytes pad text =>
    s!"{spaces indent}{hexPadded width address}:\t{String.ofList (byteColumn bytes)}" ++
      behindBytes pad text
  | blank gap => gap
  | dots gap => gap ++ "..."
  | banner path gap fileFormat => s!"{path}:{spaces (gap + 1)}file format {fileFormat}"

def Valid : Item → Prop
  | header name => OneLine name
  | entry _ _ name => OneLine name
  | instruction _ _ _ bytes _ text => bytes ≠ [] ∧ ∀ t ∈ text, IsInstructionText t
  | blank gap => IsIndent gap
  | dots gap => IsIndent gap
  | banner path _ fileFormat => IsBannerPath path ∧ OneLine fileFormat

instance (item : Item) : Decidable item.Valid :=
  match item with
  | header name | entry _ _ name => inferInstanceAs (Decidable (OneLine name))
  | instruction _ _ _ bytes _ text =>
    inferInstanceAs (Decidable (bytes ≠ [] ∧ ∀ t ∈ text, IsInstructionText t))
  | blank gap | dots gap => inferInstanceAs (Decidable (IsIndent gap))
  | banner path _ fileFormat => inferInstanceAs (Decidable (IsBannerPath path ∧ OneLine fileFormat))

def line : Item → Line
  | header name => .header name
  | entry _ _ name => .entry name
  | instruction _ _ address bytes _ text =>
    .instruction address (String.ofList (byteColumn bytes)) text
  | blank _ | dots _ => .filler
  | banner _ _ _ => .banner

example : (instruction 2 0 0x1136 [0xe8, 0x0a] 3 (some "call   5 <f>")).text =
    "  1136:\te8 0a    \tcall   5 <f>" := by
  decide

end Item

/-! ## Reading back -/

theorem body?_address {indent : List Char} (hindent : ∀ c ∈ indent, isBlank c = true)
    (width address : Nat) {gap rest : List Char} (hgap : isGap gap = true)
    (hrest : rest.head?.any isBlank = false) :
    body? (indent ++ ((hexPadded width address).toList ++ (":".toList ++ (gap ++ rest)))) =
      some (address, rest) := by
  have haddress (cs : List Char) :
      hex? ((hexPadded width address).toList ++ (":".toList ++ cs)) = some _ :=
    hex?_hexPadded width address rfl
  simp only [body?, dropBlanks_append hindent (head?_hexPadded width address _), haddress,
    skip?_append, blanks?_append hgap hrest, Option.bind_eq_bind, Option.bind_some]
  rfl

theorem instruction?_of_body {cs rest : List Char} {address : Nat} {bytes : List UInt8}
    (hbody : body? cs = some (address, byteColumn bytes ++ rest)) (hne : bytes ≠ [])
    (hends : EndsBytes rest) {text : Option String} (htext : ∀ t ∈ text, IsInstructionText t)
    (hrest : trim rest = text.elim [] String.toList) :
    instruction? cs = some (.instruction address (String.ofList (byteColumn bytes)) text) := by
  simp only [instruction?, hbody, bytePairs?_byteColumn hne hends, hrest, Option.bind_eq_bind,
    Option.bind_some]
  cases text with
  | none => rfl
  | some text =>
      have htext := htext text rfl
      have hline : oneLine? text.toList = some text := by
        rw [oneLine?, if_neg htext.oneLine.newline_not_mem, String.ofList_toList]
      rw [Option.elim_some]
      split
      · rename_i hnil
        exact absurd hnil htext.notEmpty
      · rw [hline]
        rfl

theorem isBlank_of_mem_spaces {n : Nat} : ∀ c ∈ (spaces n).toList, isBlank c = true := by
  intro c hc
  rw [spaces, String.toList_ofList] at hc
  rw [List.eq_of_mem_replicate hc]
  rfl

theorem isGap_spaces (n : Nat) : isGap (spaces (n + 1)).toList = true := by
  have hspace : isBlank ' ' = true := rfl
  simp [isGap, spaces, hspace]

theorem behindBytes_some (pad : Nat) (text : String) : (behindBytes pad (some text)).toList =
    ((spaces (pad + 1)).toList ++ ['\t']) ++ text.toList := by
  simp [behindBytes]

theorem isBlank_of_mem_gap {pad : Nat} :
    ∀ c ∈ (spaces (pad + 1)).toList ++ ['\t'], isBlank c = true :=
  List.forall_mem_append.2 ⟨isBlank_of_mem_spaces, List.forall_mem_singleton.2 rfl⟩

theorem endsBytes_behindBytes (pad : Nat) (text : Option String) :
    EndsBytes (behindBytes pad text).toList := by
  cases text with
  | none =>
      rw [← List.append_nil (behindBytes pad none).toList]
      exact endsBytes_append isBlank_of_mem_spaces (fun h => absurd rfl h)
  | some text =>
      rw [behindBytes_some]
      apply endsBytes_append isBlank_of_mem_gap
      intro _
      simp [spaces]

theorem trim_behindBytes (pad : Nat) {text : Option String}
    (htext : ∀ t ∈ text, IsInstructionText t) :
    trim (behindBytes pad text).toList = text.elim [] String.toList := by
  cases text with
  | none =>
      rw [← List.append_nil (behindBytes pad none).toList]
      exact trim_append isBlank_of_mem_spaces rfl rfl
  | some text =>
      have h := htext text rfl
      rw [behindBytes_some]
      exact trim_append isBlank_of_mem_gap h.noBlankBefore h.noBlankAfter

namespace Item

theorem ofText?_instruction (indent width address : Nat) {bytes : List UInt8} (hne : bytes ≠ [])
    (pad : Nat) {text : Option String} (htext : ∀ t ∈ text, IsInstructionText t) :
    Line.ofText? (instruction indent width address bytes pad text).text =
      some (.instruction address (String.ofList (byteColumn bytes)) text) := by
  let rest := byteColumn bytes ++ (behindBytes pad text).toList
  have hlayout : (instruction indent width address bytes pad text).text.toList =
      (spaces indent).toList ++
        ((hexPadded width address).toList ++ (":".toList ++ (['\t'] ++ rest))) := by
    unfold Item.text
    simp [rest]
  have hbody : body? ((spaces indent).toList ++
      ((hexPadded width address).toList ++ (":".toList ++ (['\t'] ++ rest)))) =
        some (address, rest) :=
    body?_address isBlank_of_mem_spaces width address rfl (head?_byteColumn hne _)
  exact ofText?_of_form (i := 0) rfl hlayout trivial (instruction?_of_body hbody hne
    (endsBytes_behindBytes pad text) htext (trim_behindBytes pad htext))

theorem ofText?_entry (width address : Nat) {name : String} (hname : OneLine name) :
    Line.ofText? (entry width address name).text = some (.entry name) := by
  let rest := " <".toList ++ (name.toList ++ ">:".toList)
  have hlayout : (entry width address name).text.toList =
      (hexPadded width address).toList ++ rest := by
    unfold Item.text
    simp [rest]
  have haddress : hex? ((hexPadded width address).toList ++ rest) = some _ :=
    hex?_hexPadded width address rfl
  have hbody : body? ((hexPadded width address).toList ++ rest) = none := by
    have hdrop := dropBlanks_eq_self (head?_hexPadded width address rest)
    simp only [body?, hdrop, haddress, Option.bind_eq_bind, Option.bind_some]
    rfl
  have htrim : trimEnd rest = rest :=
    trimEnd_append (List.append_assoc _ _ _).symm rfl
  refine ofText?_of_form (i := 2) rfl hlayout
    ⟨instruction?_eq_none hbody, relocation?_eq_none hbody⟩ ?_
  unfold entry?
  simp only [haddress, htrim, rest, skip?_append, before?_append, oneLine?,
    if_neg hname.newline_not_mem, Option.bind_eq_bind, Option.bind_some, String.ofList_toList]
  rfl

theorem ofText?_header {name : String} (hname : OneLine name) :
    Line.ofText? (header name).text = some (.header name) := by
  let line := "Disassembly of section ".toList ++ (name.toList ++ ":".toList)
  have hlayout : (header name).text.toList = line := by
    unfold Item.text
    simp [line]
  have hbody : body? line = none := body?_eq_none rfl
  have hentry : entry? line = none := entry?_eq_none rfl
  have hfiller : filler? line = none := filler?_eq_none (c := 'D') (by simp [line]) rfl (by decide)
  have htrim : trimEnd line = line :=
    trimEnd_append (List.append_assoc _ _ _).symm rfl
  refine ofText?_of_form (i := 4) rfl hlayout
    ⟨instruction?_eq_none hbody, relocation?_eq_none hbody, hentry, hfiller⟩ ?_
  simp only [header?, htrim, line, skip?_append, before?_append, oneLine?,
    if_neg hname.newline_not_mem, Option.bind_eq_bind, Option.bind_some, String.ofList_toList]
  rfl

theorem ofText?_blank {gap : String} (hgap : ∀ c ∈ gap.toList, isBlank c = true) :
    Line.ofText? (blank gap).text = some .filler := by
  have hdrop : dropBlanks gap.toList = [] := List.dropWhile_eq_nil_iff.2 hgap
  have hbody : body? gap.toList = none := by
    apply body?_eq_none
    rw [hdrop]
    rfl
  have hentry : entry? gap.toList = none := by
    apply entry?_eq_none
    rw [← List.append_nil gap.toList]
    exact head?_append_of_isBlank hgap rfl
  have htrim : trim gap.toList = [] := by
    rw [trim, hdrop]
    rfl
  refine ofText?_of_form (i := 3) rfl rfl
    ⟨instruction?_eq_none hbody, relocation?_eq_none hbody, hentry⟩ ?_
  rw [filler?, if_pos (.inl htrim)]

theorem ofText?_dots {gap : String} (hgap : ∀ c ∈ gap.toList, isBlank c = true) :
    Line.ofText? (dots gap).text = some .filler := by
  have hlayout : (dots gap).text.toList = gap.toList ++ "...".toList := String.toList_append
  have hbody : body? (gap.toList ++ "...".toList) = none := by
    apply body?_eq_none
    rw [dropBlanks_append hgap rfl]
    rfl
  have hentry : entry? (gap.toList ++ "...".toList) = none :=
    entry?_eq_none (head?_append_of_isBlank hgap rfl)
  have htrim : trim (gap.toList ++ "...".toList) = "...".toList :=
    trim_append hgap rfl rfl
  refine ofText?_of_form (i := 3) rfl hlayout
    ⟨instruction?_eq_none hbody, relocation?_eq_none hbody, hentry⟩ ?_
  rw [filler?, if_pos (.inr htrim)]

end Item

/-! ## Single lines -/

theorem IsBannerPath.oneLine {path : String} (h : IsBannerPath path) : OneLine path := by
  intro c hc
  have hblank := (h.2 c hc).1
  refine ⟨?_, ?_⟩ <;> rintro rfl <;> cases hblank

theorem oneLine_spaces (n : Nat) : OneLine (spaces n) := by
  intro c hc
  rw [spaces, String.toList_ofList] at hc
  rw [List.eq_of_mem_replicate hc]
  decide

theorem oneLine_behindBytes (pad : Nat) {text : Option String}
    (htext : ∀ t ∈ text, IsInstructionText t) : OneLine (behindBytes pad text) := by
  cases text with
  | none => exact oneLine_spaces pad
  | some text => simp +decide [behindBytes, oneLine_spaces, (htext text rfl).oneLine]

namespace Item

theorem ofText?_banner {path fileFormat : String} (gap : Nat) (hpath : IsBannerPath path)
    (hformat : OneLine fileFormat) :
    Line.ofText? (banner path gap fileFormat).text = some .banner := by
  let rest := (spaces (gap + 1)).toList ++ ("file format ".toList ++ fileFormat.toList)
  obtain ⟨hne, hpath⟩ := hpath
  have hblank : ∀ c ∈ path.toList, isBlank c = false := fun c hc => (hpath c hc).1
  have hcolon : ':' ∉ path.toList := fun hc => (hpath _ hc).2 rfl
  have hlayout : (banner path gap fileFormat).text.toList = path.toList ++ ':' :: rest := by
    unfold Item.text
    simp [rest]
  have hgap : blanks? rest = some ("file format ".toList ++ fileFormat.toList) :=
    blanks?_append (isGap_spaces gap) rfl
  have hfiller : filler? (path.toList ++ ':' :: rest) = none :=
    filler?_eq_none (c := ':') (by simp) rfl (by decide)
  refine ofText?_of_form (i := 5) rfl hlayout
    ⟨instruction?_path hblank hne hcolon hgap, relocation?_path hblank hne hcolon hgap,
      entry?_path hblank, hfiller, header?_path hblank⟩ ?_
  rw [banner?, if_pos (isBanner_path hblank hne hformat.newline_not_mem hgap)]

/-- Every printed line is read back. -/
theorem ofText?_text {item : Item} (h : item.Valid) : Line.ofText? item.text = some item.line := by
  cases item with
  | header name => exact ofText?_header h
  | entry width address name => exact ofText?_entry width address h
  | instruction indent width address bytes pad text =>
      exact ofText?_instruction indent width address h.1 pad h.2
  | blank gap => exact ofText?_blank h.2
  | dots gap => exact ofText?_dots h.2
  | banner path gap fileFormat => exact ofText?_banner gap h.1 h.2

theorem oneLine_text {item : Item} (h : item.Valid) : OneLine item.text := by
  unfold text
  cases item with
  | header name =>
      have hname : OneLine name := h
      simp +decide [hname]
  | entry width address name =>
      have hname : OneLine name := h
      simp +decide [hname]
  | instruction indent width address bytes pad text =>
      simp +decide [oneLine_spaces, oneLine_byteColumn, oneLine_behindBytes pad h.2]
  | blank gap => exact h.1
  | dots gap => simp +decide [h.1]
  | banner path gap fileFormat => simp +decide [oneLine_spaces, h.1.oneLine, h.2]

end Item

end LineAtlas.Listing
