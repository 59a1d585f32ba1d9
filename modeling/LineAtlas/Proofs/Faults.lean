import LineAtlas.Proofs.DebugInfo
import LineAtlas.Proofs.LineProgram.Numeral
import LineAtlas.Proofs.Listing.Relocation
import LineAtlas.SymbolTable
import Mathlib.Tactic.ByContra

/-!
# Faults of dumps

Reading a dump breaks off at a line that is at fault where it stands. The symbol table has no such line. In the
debug info it is one with a number of too many digits within a subprogram. In the line program it is one with
such a number or a statement before any file, and in the listing a relocation whose symbol is no replacement
template.
-/

namespace LineAtlas

open Text

/-! ## The listing -/

namespace Listing

theorem step_eq_error_iff {l : Listing} {line : Line} {f : Fault} :
    l.step line = .error f ↔ ∃ symbol, line = .relocation symbol ∧
      relocateLast symbol l.currentInstructions = .error f := by
  cases line with
  | instruction address encoded text =>
      rw [step]
      split <;> simp
  | entry name =>
      rw [step]
      split <;> simp
  | header | filler | banner => simp [step]
  | relocation symbol =>
      simp only [step, Line.relocation.injEq, exists_eq_left']
      split
      · rename_i hplace
        simp [currentInstructions, hplace, relocateLast]
      · rename_i hnil _
        simp [hnil, relocateLast]
      · exact Except.map_eq_error_iff

theorem format_readLine : format.readLine = readLine := rfl

theorem readLine_eq_error_iff {l : Listing} {text : String} {f : Fault} :
    l.readLine text = .error f ↔ ∃ symbol, Line.ofText? text = some (.relocation symbol) ∧
      relocateLast symbol l.currentInstructions = .error f := by
  rw [readLine]
  cases Line.ofText? text with
  | none => simp
  | some line =>
      simp only [Except.map_eq_error_iff, step_eq_error_iff, Option.some.injEq]

/-- A line relocates the text of the instruction before it by a symbol that makes no template: the first
one where reading stops. -/
def BreaksOff (lines : List String) (d : Template.Defect) : Prop :=
  ∃ earlier line later r symbol, lines = earlier ++ line :: later ∧
    (format.read earlier).outcome = .ok r ∧
    Line.ofText? (withoutLineEnd line) = some (.relocation symbol) ∧
    (lastText? r.state.currentInstructions).isSome = true ∧
    Template.expand [] (operandTemplate symbol) = .error d

theorem outcome_read (lines : List String) : (read lines).outcome = (format.read lines).outcome := by
  rw [read, Logged.outcome_bind]
  cases (format.read lines).outcome <;> rfl

theorem outcome_read_eq_error_iff {lines : List String} {f : Fault} :
    (read lines).outcome = .error f ↔ ∃ d, BreaksOff lines d ∧ f = .template d := by
  rw [outcome_read, DumpFormat.read, DumpFormat.feed_eq_error_iff]
  constructor
  · rintro ⟨earlier, line, later, r, hlines, hearlier, hline⟩
    rw [format_readLine] at hline
    obtain ⟨symbol, hsymbol, hlast⟩ := readLine_eq_error_iff.1 hline
    obtain ⟨htext, d, hdefect, hf⟩ := relocateLast_eq_error_iff.1 hlast
    exact ⟨d, ⟨earlier, line, later, r, symbol, hlines, hearlier, hsymbol, htext, hdefect⟩, hf⟩
  · rintro ⟨d, ⟨earlier, line, later, r, symbol, hlines, hearlier, hsymbol, htext, hdefect⟩, hf⟩
    refine ⟨earlier, line, later, r, hlines, hearlier, ?_⟩
    rw [format_readLine, readLine_eq_error_iff]
    exact ⟨symbol, hsymbol, relocateLast_eq_error_iff.2 ⟨htext, d, hdefect, hf⟩⟩

theorem backslash_mem_of_breaksOff {lines : List String} {d : Template.Defect}
    (h : BreaksOff lines d) : ∃ line ∈ lines, '\\' ∈ line.toList := by
  obtain ⟨earlier, line, later, r, symbol, rfl, -, hsymbol, -, hdefect⟩ := h
  refine ⟨line, by simp, ?_⟩
  by_contra hline
  have hsymbol : symbol.toList.Sublist line.toList := by
    have hpart := relocation?_sublist (relocation?_of_ofText? hsymbol)
    rw [withoutLineEnd, String.toList_ofList] at hpart
    exact hpart.trans (dropTrailing_sublist _ _)
  have htemplate : '\\' ∉ operandTemplate symbol := by
    have hrest : '\\' ∉ withoutOffset symbol.toList :=
      fun hmem => hline (((withoutOffset_sublist _).trans hsymbol).mem hmem)
    simp [operandTemplate, hrest]
  rw [Template.expand_of_not_mem [] htemplate] at hdefect
  cases hdefect

end Listing

/-! ## The debug info -/

namespace DebugInfo

def InSubprogram (lines : List String) : Prop :=
  ∃ before header stretch, lines = before ++ header :: stretch ∧ (∃ id, IsHeader header id "subprogram") ∧
    ∀ line ∈ stretch, ∀ id tag, ¬ IsHeader line id tag

def HasUnreadable (rawLine : String) (f : Fault) : Prop :=
  (∀ id tag, ¬ IsHeader rawLine id tag) ∧
    ∃ a, Carries (withoutLineEnd rawLine).toList a ∧ a.read = .error f

/-- A subprogram has a number that cannot be read: the first one where reading stops. -/
def BreaksOff (lines : List String) (f : Fault) : Prop :=
  ∃ earlier line later, lines = earlier ++ line :: later ∧ (∃ r, (format.read earlier).outcome = .ok r) ∧
    InSubprogram earlier ∧ HasUnreadable line f

theorem inSubprogram_concat_iff {lines : List String} {line : String} : InSubprogram (lines ++ [line]) ↔
    (∃ id, IsHeader line id "subprogram") ∨ (∀ id tag, ¬ IsHeader line id tag) ∧ InSubprogram lines :=
  Keyed.last_concat_iff (P := fun _ l => ∃ id, IsHeader l id "subprogram")
    (Q := fun l => ∀ id tag, ¬ IsHeader l id tag)

/-- Numbers are read after lines whose last header is that of a subprogram. -/
theorem inSubprogram_iff (lines : List String) : InSubprogram lines ↔
    (∃ id, (lines.foldl stepLine empty).current = some id) ∧
      (lines.foldl stepLine empty).tag = "subprogram" := by
  induction lines using List.reverseRecOn with
  | nil => simp [InSubprogram, empty]
  | append_singleton lines line ih =>
      rw [inSubprogram_concat_iff, ih, List.foldl_concat]
      simp only [← headerOf?_eq_some_iff]
      cases hheader : headerOf? line with
      | some node =>
          obtain ⟨id, tag⟩ := node
          simp [stepLine_of_header hheader]
      | none =>
          rw [stepLine_of_none hheader]
          split
          · split <;> simp
          · simp

theorem step_eq_error_iff {d : DebugInfo} {rawLine : String} {f : Fault} :
    d.step (withoutLineEnd rawLine).toList = .error f ↔
      ((∃ id, d.current = some id) ∧ d.tag = "subprogram") ∧ HasUnreadable rawLine f := by
  simp only [HasUnreadable, ← headerOf?_eq_none_iff, ← attribute?_eq_some_iff]
  rw [step, ← headerOf?]
  cases headerOf? rawLine with
  | some node => simp
  | none =>
      cases d.current with
      | none => simp
      | some id =>
          cases attribute? (withoutLineEnd rawLine).toList with
          | none => simp
          | some a =>
              by_cases htag : d.tag = "subprogram"
              · simp only [if_pos htag, Except.bind_eq_error_iff]
                simp [htag, pure, Except.pure]
              · simp [htag]

theorem outcome_read_eq_error_iff {lines : List String} {f : Fault} :
    (read lines).outcome = .error f ↔ BreaksOff lines f := by
  rw [outcome_read, DumpFormat.read, DumpFormat.feed_eq_error_iff]
  have hline {earlier : List String} {r : Reading DebugInfo} (hr : (format.read earlier).outcome = .ok r)
      (line : String) : format.readLine r.state (withoutLineEnd line) = .error f ↔
        InSubprogram earlier ∧ HasUnreadable line f := by
    have hstate : r.state = earlier.foldl stepLine empty := state_of_feed hr
    rw [inSubprogram_iff, ← hstate, ← step_eq_error_iff]
    exact Except.map_eq_error_iff
  constructor
  · rintro ⟨earlier, line, later, r, hlines, hearlier, hfault⟩
    exact ⟨earlier, line, later, hlines, ⟨r, hearlier⟩, (hline hearlier line).1 hfault⟩
  · rintro ⟨earlier, line, later, hlines, ⟨r, hearlier⟩, hfault⟩
    exact ⟨earlier, line, later, r, hlines, hearlier, (hline hearlier line).2 hfault⟩

theorem length_le_of_numberAt {cs : List Char} {n : Numeral} {kind : Numeral → Attribute Numeral}
    (hkind : kind = .declFile ∨ kind = .declLine) (h : NumberAt cs (kind n)) :
    n.digits.length ≤ cs.countP isDigit := by
  have hmarked {mark : String} {column : List Char} (hcolumn : IsNumeral column n)
      (hmark : MarkedBy mark cs column) : n.digits.length ≤ cs.countP isDigit := by
    obtain ⟨gap, -, -, hdigits, rfl⟩ := hcolumn
    obtain ⟨gap', -, rfl⟩ := hmark
    simp only [List.countP_append, List.countP_eq_length.2 hdigits]
    omega
  rcases hkind with rfl | rfl
  · cases h with
    | declFile hcolumn hmark => exact hmarked hcolumn hmark
  · cases h with
    | declLine hcolumn hmark => exact hmarked hcolumn hmark

/-- Only a line with many digits has a number that cannot be read, and the fault tells of how many. -/
theorem HasUnreadable.not_fewDigits {rawLine : String} {f : Fault} (h : HasUnreadable rawLine f) :
    ¬ FewDigits rawLine ∧ ∃ n, maxDigits < n ∧ f = .numeralTooLong n := by
  obtain ⟨-, a, hcarries, hread⟩ := h
  have hnumber : ∃ kind n, (kind = Attribute.declFile ∨ kind = Attribute.declLine) ∧ a = kind n ∧
      n.read = .error f := by
    cases a with
    | declFile n => exact ⟨_, n, .inl rfl, rfl, Except.map_eq_error_iff.1 hread⟩
    | declLine n => exact ⟨_, n, .inr rfl, rfl, Except.map_eq_error_iff.1 hread⟩
    | _ => cases hread
  obtain ⟨kind, n, hkind, rfl, hn⟩ := hnumber
  obtain ⟨hlong, rfl⟩ := Numeral.read_eq_error_iff.1 hn
  have hdigits : n.digits.length ≤ (withoutLineEnd rawLine).toList.countP isDigit := by
    rcases hcarries with hname | ⟨-, front, rest, heq, hnumber⟩
    · obtain ⟨front, rest, -, hname, -⟩ := hname
      rcases hkind with rfl | rfl <;> cases hname
    · rw [heq, List.countP_append]
      exact (length_le_of_numberAt hkind hnumber).trans (Nat.le_add_left _ _)
  exact ⟨fun hfew => absurd (hfew.length_le hdigits) (Nat.not_le.2 hlong), _, hlong, rfl⟩

theorem not_isHeader_of_not_mem {rawLine : String} (h : '<' ∉ (withoutLineEnd rawLine).toList)
    (id tag : String) : ¬ IsHeader rawLine id tag := by
  rintro ⟨front, rest, hline, ⟨_, _, _, -, -, -, -, -, -, -, rfl⟩, -⟩
  rw [hline] at h
  simp at h

theorem hasUnreadable_declLine {digits : List Char} (hdigits : ∀ c ∈ digits, isDigit c = true)
    (hlong : maxDigits < digits.length) :
    HasUnreadable ("DW_AT_decl_line: " ++ String.ofList digits) (.numeralTooLong digits.length) := by
  have hmem {c : Char} (hc : isDigit c = false) : c ∉ digits := by
    intro hin
    rw [hdigits c hin] at hc
    cases hc
  have hone : OneLine ("DW_AT_decl_line: " ++ String.ofList digits) := by
    refine oneLine_append.2 ⟨by decide, ?_⟩
    intro c hc
    rw [String.toList_ofList] at hc
    refine ⟨?_, ?_⟩ <;> rintro rfl <;> exact hmem (by decide) hc
  have hline : (withoutLineEnd ("DW_AT_decl_line: " ++ String.ofList digits)).toList =
      'D' :: ("W_AT_decl_line: ".toList ++ digits) := by
    have hcolumn : (String.ofList digits).toList = digits := String.toList_ofList
    rw [hone.withoutLineEnd_eq, String.toList_append, hcolumn]
    rfl
  have hmark : MarkedBy "DW_AT_decl_line" ('D' :: ("W_AT_decl_line: ".toList ++ digits)) (' ' :: digits) :=
    ⟨[], nofun, rfl⟩
  have hcolumn : IsNumeral (' ' :: digits) ⟨digits⟩ :=
    ⟨[' '], rfl, List.ne_nil_of_length_pos (Nat.zero_lt_of_lt hlong), hdigits, rfl⟩
  have hletter : 'D' ∉ "W_AT_decl_line: ".toList ++ digits := by
    simp [hmem (c := 'D') (by decide)]
  refine ⟨not_isHeader_of_not_mem ?_, .declLine ⟨digits⟩, ?_, ?_⟩
  · rw [hline]
    simp [hmem (c := '<') (by decide)]
  · rw [hline]
    exact .inr ⟨hmark.not_firstIn_nameAt hletter (by decide) (by decide), [], _, rfl,
      .declLine hcolumn hmark⟩
  · exact Except.map_eq_error_iff.2 (Numeral.read_eq_error_iff.2 ⟨hlong, rfl⟩)

end DebugInfo

/-! ## The four dumps -/

theorem LineProgram.outcome_read_eq_error_iff {lines : List String} {f : Fault} :
    (read lines).outcome = .error f ↔ (format.read lines).outcome = .error f := by
  rw [read, Logged.outcome_bind]
  cases (format.read lines).outcome with
  | error e => rfl
  | ok r =>
      constructor
      · intro h
        cases h
      · intro h
        cases h

/-- The line program is at fault for a statement before any file, or for a number that cannot be read. -/
theorem LineProgram.exists_of_outcome_read_eq_error {lines : List String} {f : Fault}
    (h : (read lines).outcome = .error f) : (∃ text, f = .statementBeforeFiles text) ∨
      ∃ line ∈ lines, HasUnreadable (withoutLineEnd line) f := by
  obtain ⟨earlier, line, later, r, rfl, -, hline⟩ := format.feed_eq_error_iff.1 (outcome_read_eq_error_iff.1 h)
  rcases readLine_eq_error_iff.1 hline with ⟨-, text, -, rfl⟩ | ⟨-, hnumber⟩
  · exact .inl ⟨text, rfl⟩
  · exact .inr ⟨line, by simp, hnumber⟩

theorem SymbolTable.exists_read (lines : List String) :
    ∃ r, (SymbolTable.read lines).outcome = .ok r := by
  obtain ⟨r, hr⟩ := format.exists_read_eq_ok (fun t line f h => by
    change t.readLine line = .error f at h
    rw [readLine] at h
    split at h <;> cases h) lines
  exact ⟨r, Logged.outcome_bind_eq_ok_iff.2 ⟨r, hr, rfl⟩⟩

/-- The symbol table is read whatever the lines are. Reading debug info breaks off just at a number of a
subprogram that has too many digits, and reading a line program only at a statement before any file or at such a
number, so neither breaks off at a number when no line has many digits. Reading a listing breaks off just where a
relocation has a symbol that is no replacement template, so it does not when no line has a backslash. -/
theorem read_faults (lines : List String) :
    (∃ r, (SymbolTable.read lines).outcome = .ok r) ∧
      (∀ f, (DebugInfo.read lines).outcome = .error f ↔ DebugInfo.BreaksOff lines f) ∧
      (∀ f, DebugInfo.BreaksOff lines f → ∃ n, maxDigits < n ∧ f = .numeralTooLong n) ∧
      (∀ f, (LineProgram.read lines).outcome = .error f →
        f.kind = .structural ∨ ∃ n, maxDigits < n ∧ f = .numeralTooLong n) ∧
      ((∀ line ∈ lines, FewDigits line) → (∃ r, (DebugInfo.read lines).outcome = .ok r) ∧
        ∀ f, (LineProgram.read lines).outcome = .error f → f.kind = .structural) ∧
      (∀ f, (Listing.read lines).outcome = .error f ↔
        ∃ d, Listing.BreaksOff lines d ∧ f = .template d) ∧
      ((∀ line ∈ lines, '\\' ∉ line.toList) → ∃ r, (Listing.read lines).outcome = .ok r) := by
  refine ⟨SymbolTable.exists_read lines, fun f => DebugInfo.outcome_read_eq_error_iff, ?_, ?_, ?_,
    fun f => Listing.outcome_read_eq_error_iff, ?_⟩
  · rintro f ⟨_, _, _, -, -, -, hnumber⟩
    exact hnumber.not_fewDigits.2
  · intro f h
    rcases LineProgram.exists_of_outcome_read_eq_error h with ⟨text, rfl⟩ | ⟨line, -, hnumber⟩
    · exact .inl rfl
    · exact .inr hnumber.not_fewDigits.2
  · intro hfew
    refine ⟨?_, ?_⟩
    · cases hread : (DebugInfo.read lines).outcome with
      | ok r => exact ⟨r, rfl⟩
      | error f =>
          obtain ⟨_, line, _, rfl, -, -, hnumber⟩ := DebugInfo.outcome_read_eq_error_iff.1 hread
          exact absurd (hfew line (by simp)) hnumber.not_fewDigits.1
    · intro f h
      rcases LineProgram.exists_of_outcome_read_eq_error h with ⟨text, rfl⟩ | ⟨line, hline, hnumber⟩
      · rfl
      · exact absurd (hfew line hline) hnumber.not_fewDigits.1
  · intro h
    cases hread : (Listing.read lines).outcome with
    | ok r => exact ⟨r, rfl⟩
    | error f =>
        obtain ⟨d, hbreaks, -⟩ := Listing.outcome_read_eq_error_iff.1 hread
        obtain ⟨line, hmem, hbackslash⟩ := Listing.backslash_mem_of_breaksOff hbreaks
        exact absurd hbackslash (h line hmem)

def badRelocation : List String :=
  ["Disassembly of section .text:", "0000000000000000 <f>:", "  0:\te8 00 \tcall 9 <t>",
    "1: R_A \\q"]

/-- A subprogram with a line number of one digit too many. -/
def longLineNumber : List String :=
  ["<1>: (DW_TAG_subprogram)",
    "DW_AT_decl_line: " ++ String.ofList (List.replicate (maxDigits + 1) '1')]

theorem breaksOff_longLineNumber :
    DebugInfo.BreaksOff longLineNumber (.numeralTooLong (maxDigits + 1)) := by
  have hdigits : ∀ c ∈ List.replicate (maxDigits + 1) '1', isDigit c = true := by
    intro c hc
    rw [List.eq_of_mem_replicate hc]
    rfl
  have hlong := DebugInfo.hasUnreadable_declLine hdigits (by simp)
  rw [List.length_replicate] at hlong
  have hheader : DebugInfo.IsHeader "<1>: (DW_TAG_subprogram)" "1" "subprogram" :=
    DebugInfo.headerOf?_eq_some_iff.1 (by decide +kernel)
  exact ⟨["<1>: (DW_TAG_subprogram)"], _, [], rfl, ⟨_, rfl⟩, ⟨[], _, [], rfl, ⟨"1", hheader⟩, nofun⟩, hlong⟩

theorem read_faults_badRelocation :
    (∃ r, (SymbolTable.read badRelocation).outcome = .ok r) ∧
      (DebugInfo.read longLineNumber).outcome = .error (.numeralTooLong (maxDigits + 1)) ∧
      (Listing.read badRelocation).outcome = .error (.template .malformed) := by
  have hearlier : (Listing.format.read (badRelocation.take 3)).outcome.toOption.map
      (fun r => (Listing.lastText? r.state.currentInstructions).isSome) = some true := by
    decide +kernel
  have hsymbol : Listing.Line.ofText? (withoutLineEnd "1: R_A \\q") = some (.relocation "\\q") := by
    decide +kernel
  have htemplate : Listing.operandTemplate "\\q" = ['<', '\\', 'q', '>'] := by
    decide +kernel
  have hdefect : Template.expand [] (Listing.operandTemplate "\\q") = .error .malformed := by
    rw [htemplate]
    simp [Template.expand, Template.plain?, Template.control?, Except.map]
  obtain ⟨r, hread, htext⟩ := Logged.exists_outcome_eq_ok hearlier
  have hbreaks : Listing.BreaksOff badRelocation .malformed :=
    ⟨badRelocation.take 3, "1: R_A \\q", [], r, "\\q", rfl, hread, hsymbol, htext, hdefect⟩
  obtain ⟨hsymbols, -, -, -, -, hlisting, -⟩ := read_faults badRelocation
  obtain ⟨-, hinfo, -⟩ := read_faults longLineNumber
  exact ⟨hsymbols, (hinfo _).2 breaksOff_longLineNumber, (hlisting _).2 ⟨_, hbreaks, rfl⟩⟩

end LineAtlas
