import LineAtlas.Proofs.Faults
import LineAtlas.Proofs.Keyed
import LineAtlas.Proofs.Listing.Item

/-!
# Operands of relocated instructions

A relocation puts a name in the place of the operand of the instruction before it and changes nothing
else. The name is that of the last word of its symbol: what the symbol holds before a blank is taken to
belong to the kind of the relocation. Only a symbol without blanks is taken as a whole.
-/

namespace LineAtlas.Listing

open Text

/-! ## Symbols -/

def EndsInWord (text word : List Char) : Prop :=
  (∀ c ∈ word, isBlank c = false) ∧
    (text = word ∨ ∃ front c, isBlank c = true ∧ text = front ++ c :: word)

theorem isBlank_eq_false_of_any {text : List Char} (h : text.any isBlank = false) :
    ∀ c ∈ text, isBlank c = false := by
  simpa using h

theorem EndsInWord.eq {text word : List Char} (h : EndsInWord text word)
    (hblank : ∀ c ∈ text, isBlank c = false) : word = text := by
  rcases h.2 with rfl | ⟨front, c, hc, rfl⟩
  · rfl
  · have hnot := hblank c (by simp)
    rw [hnot] at hc
    cases hc

theorem EndsInWord.sublist {text word : List Char} (h : EndsInWord text word) : word.Sublist text := by
  rcases h.2 with rfl | ⟨front, c, -, rfl⟩
  · exact .refl _
  · exact (List.sublist_cons_self c word).trans (List.sublist_append_right front _)

theorem exists_endsInWord (text : List Char) : ∃ word, EndsInWord text word := by
  induction text with
  | nil => exact ⟨[], by simp [EndsInWord]⟩
  | cons c text ih =>
      obtain ⟨word, hword, rfl | ⟨front, d, hd, rfl⟩⟩ := ih
      · cases hc : isBlank c with
        | true => exact ⟨text, hword, .inr ⟨[], c, hc, rfl⟩⟩
        | false => exact ⟨c :: text, List.forall_mem_cons.2 ⟨hc, hword⟩, .inl rfl⟩
      · exact ⟨word, hword, .inr ⟨c :: front, d, hd, rfl⟩⟩

/-- The last word is found from the end, whatever stands before a blank. -/
theorem takeWhile_reverse_of_endsInWord {text word : List Char} (h : EndsInWord text word)
    {c : Char} (hc : isBlank c = true) (before : List Char) :
    ((before ++ c :: text).reverse.takeWhile fun c => !isBlank c).reverse = word := by
  obtain ⟨hword, htext⟩ := h
  obtain ⟨front, d, hd, hsplit⟩ : ∃ front d, isBlank d = true ∧
      before ++ c :: text = front ++ d :: word := by
    rcases htext with rfl | ⟨front, d, hd, rfl⟩
    · exact ⟨before, c, hc, rfl⟩
    · exact ⟨before ++ c :: front, d, hd, by simp⟩
  have hkept : ∀ c ∈ word.reverse, (!isBlank c) = true := by
    intro c hc
    simp [hword c (List.mem_reverse.1 hc)]
  rw [hsplit, List.reverse_append, List.reverse_cons, List.append_assoc,
    List.takeWhile_append_of_pos hkept]
  simp [hd]

theorem EndsInWord.unique {text word word' : List Char} (h : EndsInWord text word)
    (h' : EndsInWord text word') : word = word' := by
  have hspace : isBlank ' ' = true := rfl
  rw [← takeWhile_reverse_of_endsInWord h hspace [], takeWhile_reverse_of_endsInWord h' hspace []]

def IsOffset (cs : List Char) : Prop :=
  ∃ sign digits, (sign = '+' ∨ sign = '-') ∧ digits ≠ [] ∧ (∀ c ∈ digits, isHexDigit c = true) ∧
    cs = sign :: '0' :: 'x' :: digits

/-- The symbol is the name, with or without one offset behind it; the name of a symbol that ends with an
offset is what stands before that. -/
def HasName (symbol name : List Char) : Prop :=
  (∃ offset, IsOffset offset ∧ symbol = name ++ offset) ∨
    symbol = name ∧ ∀ front offset, IsOffset offset → symbol ≠ front ++ offset

theorem withoutOffset_append {name offset : List Char} (h : IsOffset offset) :
    withoutOffset (name ++ offset) = name := by
  obtain ⟨sign, digits, hsign, hne, hdigits, rfl⟩ := h
  have hreverse : (name ++ sign :: '0' :: 'x' :: digits).reverse =
      digits.reverse ++ 'x' :: '0' :: sign :: name.reverse := by
    simp
  have hhex : ∀ c ∈ digits.reverse, isHexDigit c = true := fun c hc =>
    hdigits c (List.mem_reverse.1 hc)
  have hx : isHexDigit 'x' = false := rfl
  simp only [withoutOffset, hreverse, List.takeWhile_append_of_pos hhex,
    List.dropWhile_append_of_pos hhex, List.takeWhile_cons, List.dropWhile_cons, hx]
  rcases hsign with rfl | rfl <;> simp [hne]

theorem withoutOffset_cases (symbol : List Char) :
    (∃ offset, IsOffset offset ∧ symbol = withoutOffset symbol ++ offset) ∨
      withoutOffset symbol = symbol := by
  have hsplit := List.takeWhile_append_dropWhile (p := isHexDigit) (l := symbol.reverse)
  have hhex : ∀ c ∈ symbol.reverse.takeWhile isHexDigit, isHexDigit c = true := fun c hc =>
    List.mem_takeWhile_imp hc
  simp only [withoutOffset]
  generalize symbol.reverse.takeWhile isHexDigit = digits at hsplit hhex ⊢
  split
  · rename_i sign rest hrest
    split
    · rename_i hoffset
      rw [Bool.and_eq_true, Bool.or_eq_true, beq_iff_eq, beq_iff_eq, Bool.not_eq_true',
        List.isEmpty_eq_false_iff] at hoffset
      refine .inl ⟨sign :: '0' :: 'x' :: digits.reverse, ?_, ?_⟩
      · exact ⟨sign, _, hoffset.2.symm, by simpa using hoffset.1,
          fun c hc => hhex c (List.mem_reverse.1 hc), rfl⟩
      · rw [hrest] at hsplit
        rw [← List.reverse_reverse symbol, ← hsplit]
        simp
    · exact .inr rfl
  · exact .inr rfl

theorem hasName_withoutOffset (symbol : List Char) : HasName symbol (withoutOffset symbol) := by
  rcases withoutOffset_cases symbol with hoffset | hsame
  · exact .inl hoffset
  · by_cases h : ∃ front offset, IsOffset offset ∧ symbol = front ++ offset
    · obtain ⟨front, offset, hoffset, rfl⟩ := h
      exact .inl ⟨offset, hoffset, by rw [withoutOffset_append hoffset]⟩
    · refine .inr ⟨hsame.symm, ?_⟩
      intro front offset hoffset heq
      exact h ⟨front, offset, hoffset, heq⟩

theorem HasName.withoutOffset_eq {symbol name : List Char} (h : HasName symbol name) :
    withoutOffset symbol = name := by
  rcases h with ⟨offset, hoffset, rfl⟩ | ⟨rfl, hnone⟩
  · exact withoutOffset_append hoffset
  · rcases withoutOffset_cases symbol with ⟨offset, hoffset, heq⟩ | hsame
    · exact absurd heq (hnone _ _ hoffset)
    · exact hsame

/-! ## Printed relocations -/

def relocationLine (indent : String) (width address : Nat) (kind symbol : String) : String :=
  s!"{indent}{hexPadded width address}: {kind}\t{symbol}"

def IsRelocationKind (kind : String) : Prop :=
  ∃ rest, kind.toList = 'R' :: '_' :: rest ∧ rest ≠ [] ∧ ∀ c ∈ rest, isBlank c = false

structure IsRelocationSymbol (symbol : String) : Prop where
  notEmpty : symbol.toList ≠ []
  oneLine : '\n' ∉ symbol.toList
  plain : '\\' ∉ symbol.toList
  noBlankAfter : symbol.toList.getLast?.any isBlank = false

theorem IsRelocationSymbol.exists_concat {symbol : String} (h : IsRelocationSymbol symbol) :
    ∃ front c, symbol.toList = front ++ [c] ∧ isBlank c = false := by
  rcases List.eq_nil_or_concat' symbol.toList with hnil | ⟨front, c, hconcat⟩
  · exact absurd hnil h.notEmpty
  · refine ⟨front, c, hconcat, ?_⟩
    simpa [hconcat] using h.noBlankAfter

theorem relocationSymbol?_of_endsInWord {rest symbol word : List Char} (hne : rest ≠ [])
    (hrest : ∀ c ∈ rest, isBlank c = false) (hline : '\n' ∉ symbol)
    (h : EndsInWord symbol word) :
    relocationSymbol? (rest ++ '\t' :: symbol) = some (String.ofList word) := by
  have hbreak : '\n' ∉ rest ++ '\t' :: symbol := by
    intro hmem
    rcases List.mem_append.1 hmem with hmem | hmem
    · exact absurd (hrest _ hmem) (by decide)
    · rcases List.mem_cons.1 hmem with hmem | hmem
      · exact absurd hmem (by decide)
      · exact hline hmem
  -- Of the kind, more than nothing is left in front of the word.
  obtain ⟨c, rest, rfl⟩ := List.exists_cons_of_ne_nil hne
  have hc : isBlank c = false := hrest c List.mem_cons_self
  have hkind : (trimEnd ((c :: rest ++ '\t' :: symbol).take
      ((c :: rest ++ '\t' :: symbol).length - word.length))).isEmpty = false := by
    have hlength := h.sublist.length_le
    obtain ⟨n, hn⟩ : ∃ n, (c :: rest ++ '\t' :: symbol).length - word.length = n + 1 := by
      simp only [List.cons_append, List.length_cons, List.length_append]
      exact ⟨rest.length + symbol.length + 1 - word.length, by omega⟩
    rw [hn, List.cons_append, List.take_succ_cons, trimEnd, ← List.nil_append (c :: _),
      dropTrailing_append_cons hc]
    rfl
  rw [relocationSymbol?, if_neg hbreak]
  simp only [takeWhile_reverse_of_endsInWord h (by decide : isBlank '\t' = true), hkind,
    Bool.false_eq_true, if_false]

theorem IsRelocationKind.head? {kind : String} (h : IsRelocationKind kind) (rest : List Char) :
    (kind.toList ++ rest).head?.any isBlank = false := by
  obtain ⟨cs, hkind, -, -⟩ := h
  rw [hkind]
  rfl

/-- A printed relocation is read back with the last word of its symbol. -/
theorem ofText?_relocationLine {indent kind symbol : String} {word : List Char}
    (hindent : ∀ c ∈ indent.toList, isBlank c = true) (hkind : IsRelocationKind kind)
    (hsymbol : IsRelocationSymbol symbol) (hword : EndsInWord symbol.toList word)
    (width address : Nat) : Line.ofText? (relocationLine indent width address kind symbol) =
      some (.relocation (String.ofList word)) := by
  let rest := kind.toList ++ '\t' :: symbol.toList
  have hlayout : (relocationLine indent width address kind symbol).toList = indent.toList ++
      ((hexPadded width address).toList ++ (":".toList ++ ([' '] ++ rest))) := by
    simp [relocationLine, rest]
  have hbody : body? (indent.toList ++
      ((hexPadded width address).toList ++ (":".toList ++ ([' '] ++ rest)))) =
        some (address, rest) :=
    body?_address hindent width address rfl (hkind.head? _)
  obtain ⟨cs, hcs, hne, hblank⟩ := hkind
  have hrest : rest = 'R' :: '_' :: (cs ++ '\t' :: symbol.toList) := by
    simp only [rest, hcs, List.cons_append]
  refine ofText?_of_form (i := 1) rfl hlayout ?_ ?_
  · -- The kind begins with no digit, so no byte stands behind the address.
    have hnone : bytePairs? rest = none := bytePairs?_eq_none (by rw [hrest]; rfl)
    simp only [forms, List.take_succ_cons, List.take_zero, List.Forall, instruction?, hbody, hnone,
      Option.bind_eq_bind, Option.bind_some, Option.bind_none]
  · obtain ⟨front, c, hlast, hc⟩ := hsymbol.exists_concat
    have hend : rest = (kind.toList ++ '\t' :: front) ++ [c] := by
      simp [rest, hlast]
    have htrim : trimEnd rest = rest := trimEnd_append hend hc
    have hskip : skip? "R_" rest = some (cs ++ '\t' :: symbol.toList) := by
      rw [hrest]
      rfl
    simp only [relocation?, hbody, htrim, hskip,
      relocationSymbol?_of_endsInWord hne hblank hsymbol.oneLine hword, Option.bind_eq_bind,
      Option.bind_some]
    rfl

/-- A printed relocation ends with its symbol, and nothing is cut off behind that. -/
theorem withoutLineEnd_relocationLine {symbol : String} (h : IsRelocationSymbol symbol)
    (indent : String) (width address : Nat) (kind : String) :
    withoutLineEnd (relocationLine indent width address kind symbol) =
      relocationLine indent width address kind symbol := by
  obtain ⟨front, c, hlast, hc⟩ := h.exists_concat
  obtain ⟨before, hline⟩ : ∃ before,
      (relocationLine indent width address kind symbol).toList = before ++ [c] :=
    ⟨indent.toList ++ (hexPadded width address).toList ++ ": ".toList ++ kind.toList ++
      '\t' :: front, by simp [relocationLine, hlast]⟩
  have hkept : (c == '\r' || c == '\n') = false := by
    have hreturn : c ≠ '\r' := by
      rintro rfl
      cases hc
    have hnewline : c ≠ '\n' := by
      rintro rfl
      cases hc
    simp [hreturn, hnewline]
  rw [withoutLineEnd, hline, dropTrailing_append_singleton, hkept, ← hline]
  simp

/-! ## Operands -/

/-- No operand begins in the text: behind every bracket that opens, a line ends. -/
def NoOperandIn (text : List Char) : Prop :=
  ∀ front back, text = front ++ '<' :: back → '\n' ∈ back

theorem NoOperandIn.of_not_mem {text : List Char} (h : '<' ∉ text) : NoOperandIn text := by
  rintro front back rfl
  exact absurd (by simp) h

theorem NoOperandIn.tail {c : Char} {text : List Char} (h : NoOperandIn (c :: text)) :
    NoOperandIn text := fun front back heq => h (c :: front) back (by rw [heq, List.cons_append])

theorem isOperand_close {c : Char} (cs : List Char) :
    isOperand (c :: (cs ++ ['>'])) = (c == '<' && !cs.contains '\n') := by
  have htrim : trimEnd (c :: (cs ++ ['>'])) = c :: (cs ++ ['>']) := by
    rw [← List.cons_append]
    exact trimEnd_append rfl rfl
  have hlast : (c :: (cs ++ ['>'])).getLast? = some '>' := by
    rw [← List.cons_append, List.getLast?_concat]
  rw [isOperand, htrim, hlast]
  by_cases hc : c = '<'
  · subst hc
    simp
  · have hhead : (c == '<') = false := beq_eq_false_iff_ne.2 hc
    simp [hhead]

theorem splitOperand?_brackets {before inside : List Char} (hbefore : NoOperandIn before)
    (hinside : '\n' ∉ inside) : splitOperand? (before ++ '<' :: (inside ++ ['>'])) =
      some (before, '<' :: (inside ++ ['>'])) := by
  induction before with
  | nil =>
      have hat : isOperand ('<' :: (inside ++ ['>'])) = true := by
        simp [isOperand_close, hinside]
      rw [List.nil_append, splitOperand?, if_pos hat]
  | cons c before ih =>
      have hnot : isOperand (c :: (before ++ '<' :: inside ++ ['>'])) = false := by
        rw [isOperand_close]
        by_cases hc : c = '<'
        · have hline := hbefore [] before (by rw [hc, List.nil_append])
          simp [hline]
        · simp [hc]
      rw [List.append_assoc, List.cons_append] at hnot
      rw [List.cons_append, splitOperand?, hnot, ih hbefore.tail]
      rfl

theorem splitOperand?_eq_none {body : List Char} (h : NoOperandIn (body ++ ['>'])) :
    splitOperand? (body ++ ['>']) = none := by
  induction body with
  | nil => rfl
  | cons c body ih =>
      have hnot : isOperand (c :: (body ++ ['>'])) = false := by
        rw [isOperand_close]
        by_cases hc : c = '<'
        · have hline := h [] (body ++ ['>']) (by rw [hc, List.nil_append, List.cons_append])
          simpa using fun _ => hline
        · simp [hc]
      rw [List.cons_append] at h
      rw [List.cons_append, splitOperand?, hnot, ih h.tail]
      rfl

/-- The text of an instruction relocated by a name: the name in the place of the operand, if there is
one. -/
def Renamed (name text text' : List Char) : Prop :=
  (∀ before inside, text = before ++ '<' :: (inside ++ ['>']) → NoOperandIn before →
    '\n' ∉ inside → text' = before ++ '<' :: (name ++ ['>'])) ∧
  ∀ body, text = body ++ ['>'] → NoOperandIn text → text' = text

/-- A name without a backslash is put in the place of the operand as it is. -/
theorem exists_relocate {name : List Char} (hname : '\\' ∉ name) (text : List Char) :
    ∃ text', relocate name text = .ok text' ∧ Renamed name text text' := by
  have htemplate : '\\' ∉ '<' :: name ++ ['>'] := by
    simp [hname]
  cases hsplit : splitOperand? text with
  | none =>
      refine ⟨text, ?_, ?_, fun _ _ _ => rfl⟩
      · simp only [relocate, hsplit, Template.expand_of_not_mem [] htemplate]
        rfl
      · rintro before inside rfl hbefore hinside
        rw [splitOperand?_brackets hbefore hinside] at hsplit
        cases hsplit
  | some found =>
      obtain ⟨front, operand⟩ := found
      refine ⟨front ++ ('<' :: name ++ ['>']), ?_, ?_, ?_⟩
      · simp only [relocate, hsplit, Template.expand_of_not_mem operand htemplate]
        rfl
      · rintro before inside rfl hbefore hinside
        rw [splitOperand?_brackets hbefore hinside] at hsplit
        cases hsplit
        rfl
      · rintro body rfl hnone
        rw [splitOperand?_eq_none hnone] at hsplit
        cases hsplit

/-! ## The last instruction -/

theorem relocateLast_concat {symbol : String} {i : Instruction} {text : String} {text' : List Char}
    (htext : i.text = some text)
    (h : relocate (withoutOffset symbol.toList) text.toList = .ok text') (front : List Instruction) :
    relocateLast symbol (front ++ [i]) =
      .ok (front ++ [{ i with text := some (String.ofList text') }]) := by
  induction front with
  | nil => simp only [List.nil_append, relocateLast, htext, h]
  | cons j front ih =>
      rw [List.cons_append, relocateLast, ih]
      · rfl
      · simp

theorem currentInstructions_eq {l : Listing} {s e : String} {run : List Instruction}
    (hplace : l.place? = some (s, e)) (hrun : instructions? l.code s e = some run) :
    l.currentInstructions = run := by
  rw [currentInstructions, hplace]
  simp only [hrun, Option.getD_some]

theorem instructions?_change (l : Listing) (s e : String) (f : List Instruction → List Instruction)
    (s' e' : String) : instructions? (l.change s e f).code s' e' =
      if s' = s ∧ e' = e then (instructions? l.code s' e').map f else instructions? l.code s' e' := by
  simp only [instructions?, change, Keyed.get?_change]
  by_cases hs : s' = s
  · cases l.code.get? s' with
    | none => simp
    | some entries =>
        simp only [if_pos hs, Option.map_some, Option.bind_some, Keyed.get?_change]
        by_cases he : e' = e <;> simp [hs, he]
  · simp [hs]

/-- One listing has the same sections and entries as another, in the same order, and is at the same place
of them. -/
structure SameOutline (l l' : Listing) : Prop where
  sections : l'.sections = l.sections
  entries : ∀ s, (l'.code.get? s).map Keyed.keys = (l.code.get? s).map Keyed.keys
  current : l'.current = l.current
  currentEntry : l'.currentEntry = l.currentEntry

theorem sameOutline_change (l : Listing) (s e : String)
    (f : List Instruction → List Instruction) : SameOutline l (l.change s e f) := by
  refine ⟨Keyed.keys_change _ _ _, ?_, rfl, rfl⟩
  intro s'
  rw [change, Keyed.get?_change]
  split
  · cases l.code.get? s' with
    | none => rfl
    | some entries => simp [Keyed.keys_change]
  · rfl

theorem step_relocation {l : Listing} {s e symbol : String} {run run' : List Instruction}
    (hplace : l.place? = some (s, e)) (hrun : instructions? l.code s e = some run) (hne : run ≠ [])
    (h : relocateLast symbol run = .ok run') :
    l.step (.relocation symbol) = .ok (some (l.change s e fun _ => run')) := by
  have hcurrent := currentInstructions_eq hplace hrun
  cases run with
  | nil => exact absurd rfl hne
  | cons i run =>
      simp only [step, hplace, hcurrent, h]
      rfl

/-- A relocation renames the operand of the last instruction by the last word of its symbol, less an
offset; that is the whole symbol if it has no blanks. It changes neither the address nor the bytes of that
instruction, nor any other instruction, nor the sections and entries and the place in them. -/
theorem relocation_renames_operand {r : Reading Listing} {s e indent kind symbol text : String}
    {front : List Instruction} {i : Instruction} (hplace : r.state.place? = some (s, e))
    (hrun : instructions? r.state.code s e = some (front ++ [i])) (htext : i.text = some text)
    (hindent : ∀ c ∈ indent.toList, isBlank c = true) (hkind : IsRelocationKind kind)
    (hsymbol : IsRelocationSymbol symbol) (width address : Nat) :
    ∃ r' word name text',
      format.feedLine r (relocationLine indent width address kind symbol) = ⟨[], .ok r'⟩ ∧
      EndsInWord symbol.toList word ∧
      ((∀ c ∈ symbol.toList, isBlank c = false) → word = symbol.toList) ∧
      HasName word name ∧ Renamed name text.toList text' ∧
      r'.unrecognized = r.unrecognized ∧ SameOutline r.state r'.state ∧
      ∀ s' e', instructions? r'.state.code s' e' =
        if s' = s ∧ e' = e then some (front ++ [{ i with text := some (String.ofList text') }])
        else instructions? r.state.code s' e' := by
  obtain ⟨word, hword⟩ := exists_endsInWord symbol.toList
  have hplain : '\\' ∉ withoutOffset word := by
    intro hmem
    exact hsymbol.plain (((withoutOffset_sublist word).trans hword.sublist).subset hmem)
  obtain ⟨text', hrelocate, hrenamed⟩ := exists_relocate hplain text.toList
  have hlast : relocateLast (String.ofList word) (front ++ [i]) =
      .ok (front ++ [{ i with text := some (String.ofList text') }]) :=
    relocateLast_concat htext (by rwa [String.toList_ofList]) front
  have hstep := step_relocation hplace hrun (by simp) hlast
  have hread := ofText?_relocationLine hindent hkind hsymbol hword width address
  have hline : format.readLine r.state (relocationLine indent width address kind symbol) =
      (r.state.step (.relocation (String.ofList word))).map fun next => next.map fun l => (l, []) := by
    rw [format_readLine, readLine, hread]
  rw [DumpFormat.feedLine, withoutLineEnd_relocationLine hsymbol, hline, hstep]
  refine ⟨_, word, withoutOffset word, text', rfl, hword, hword.eq, hasName_withoutOffset word,
    hrenamed, rfl, sameOutline_change r.state s e _, ?_⟩
  intro s' e'
  rw [instructions?_change]
  split
  · rename_i hsame
    rw [hsame.1, hsame.2, hrun, Option.map_some]
  · rfl

/-- A listing whose last instruction calls a function that is not linked yet. -/
def callingItself : Reading Listing where
  state :=
    { code := [(".text", [("f", [⟨0x0, "e8 00 00 00 00", some "call   5 <f+0x5>"⟩])])]
      current := some ".text"
      currentEntry := some "f" }
  unrecognized := #[]

/-- Of a name that is printed with its parameter types, only the end is left. -/
theorem relocation_renames_operand_operatorNew :
    callingItself.state.place? = some (".text", "f") ∧
      IsRelocationKind "R_X86_64_PLT32" ∧
      IsRelocationSymbol "operator new(unsigned long)-0x4" ∧
      ∃ r', format.feedLine callingItself "\t\t\t1: R_X86_64_PLT32\toperator new(unsigned long)-0x4" =
          ⟨[], .ok r'⟩ ∧
        instructions? r'.state.code ".text" "f" =
          some [⟨0x0, "e8 00 00 00 00", some "call   5 <long)>"⟩] := by
  have hkind : IsRelocationKind "R_X86_64_PLT32" :=
    ⟨"X86_64_PLT32".toList, rfl, by decide, isBlank_eq_false_of_any rfl⟩
  have hsymbol : IsRelocationSymbol "operator new(unsigned long)-0x4" :=
    ⟨by decide, by decide, by decide, rfl⟩
  obtain ⟨r', word, name, text', hfeed, hword, -, hname, hrenamed, -, -, hcode⟩ :=
    @relocation_renames_operand callingItself ".text" "f" "\t\t\t" _ _ _ [] _ rfl rfl rfl
      (List.all_eq_true.1 rfl) hkind hsymbol 0 0x1
  have hlast : word = "long)-0x4".toList :=
    hword.unique ⟨isBlank_eq_false_of_any rfl, .inr ⟨"operator new(unsigned".toList, ' ', rfl, rfl⟩⟩
  have hlong : name = "long)".toList := by
    rw [← hname.withoutOffset_eq, hlast]
    rfl
  have htext : text' = "call   5 <long)>".toList := by
    rw [hrenamed.1 "call   5 ".toList "f+0x5".toList rfl (.of_not_mem (by decide)) (by decide), hlong]
    rfl
  refine ⟨rfl, hkind, hsymbol, r', hfeed, ?_⟩
  rw [hcode, if_pos ⟨rfl, rfl⟩, htext]
  rfl

end LineAtlas.Listing
