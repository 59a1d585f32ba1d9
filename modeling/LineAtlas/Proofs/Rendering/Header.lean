import LineAtlas.Proofs.Text.Scan
import LineAtlas.Rendering

/-!
# Headers of a listing

The header before an entry tells an address and the name of the entry, and both can be read off it again,
whatever the name holds and with addresses below zero. An instruction has a colon right behind its address,
so its line is never taken for a header, nor for the empty line above one.
-/

namespace LineAtlas.Rendering

open Text

def signedHex? (cs : List Char) : Option (Int × List Char) :=
  match skip? "-" cs with
  | some rest => (hex? rest).map fun (n, rest) => (-n, rest)
  | none => (hex? cs).map fun (n, rest) => (n, rest)

/-- The address and the entry that a header tells; `none` for a line that is no header. -/
def readHeader? (line : String) : Option (Int × String) := do
  let (address, cs) ← signedHex? line.toList
  let entry ← before? ">:" (← skip? " <" cs)
  return (address, String.ofList entry)

def isHeading (line : String) : Bool :=
  line.isEmpty || (readHeader? line).isSome

/-! ## Addresses -/

theorem zeroFilledHex_eq_hexPadded (width : Nat) (n : Int) :
    zeroFilledHex "" width n = minus n ++ hexPadded (width - (minus n).length) n.natAbs := by
  apply String.toList_injective
  simp [zeroFilledHex, fill, hexPadded, hexText, List.leftpad, Nat.sub_sub]

theorem hexInt_eq_hexPadded (n : Int) : hexInt n = minus n ++ hexPadded 0 n.natAbs := by
  simp [hexInt, hexText, hexPadded, List.leftpad]

theorem signedHex?_hexPadded (width : Nat) (n : Int) {rest : List Char}
    (h : rest.head?.any isHexDigit = false) :
    signedHex? ((minus n).toList ++ ((hexPadded width n.natAbs).toList ++ rest)) = some (n, rest) := by
  by_cases hn : n < 0
  · have hvalue : -(n.natAbs : Int) = n := by omega
    rw [minus, if_pos hn, signedHex?, skip?_append]
    simp only [hex?_hexPadded width n.natAbs h, Option.map_some, hvalue]
  · have hvalue : (n.natAbs : Int) = n := by omega
    have hdigit : ∀ c, isHexDigit c = true → ('-' == c) = false := by
      intro c hc
      rw [beq_eq_false_iff_ne]
      rintro rfl
      exact absurd hc (by decide)
    have hsign : skip? "-" ((hexPadded width n.natAbs).toList ++ rest) = none :=
      after?_eq_none (head?_hexPadded_of_isHexDigit hdigit width n.natAbs rest)
    rw [minus, if_neg hn, String.toList_empty, List.nil_append, signedHex?, hsign]
    simp only [hex?_hexPadded width n.natAbs h, Option.map_some, hvalue]

/-! ## Headers -/

theorem readHeader?_empty : readHeader? "" = none := rfl

theorem readHeader?_header (a : AnnotatedInstruction) :
    readHeader? (header a) = some (a.instruction.address, a.entry) := by
  let n := a.instruction.address
  let width := 16 - (minus n).length
  let behind := " <".toList ++ (a.entry.toList ++ ">:".toList)
  have hheader : (header a).toList =
      (minus n).toList ++ ((hexPadded width n.natAbs).toList ++ behind) := by
    rw [header, zeroFilledHex_eq_hexPadded]
    simp [n, width, behind, -String.reduceToList]
  have haddress : signedHex? ((minus n).toList ++ ((hexPadded width n.natAbs).toList ++ behind)) =
      some (n, behind) := signedHex?_hexPadded width n rfl
  simp only [readHeader?, hheader, haddress, behind, skip?_append, before?_append,
    String.ofList_toList, Option.bind_eq_bind, Option.bind_some]
  rfl

example : readHeader? "-00000000000001f <operator>>(int)>:" = some (-31, "operator>>(int)") := by
  decide +kernel

/-! ## Lines of instructions -/

/-- Behind the address stands a colon, and trimming leaves it there. -/
theorem toList_instruction (a : AnnotatedInstruction) : ∃ rest, (instruction a).toList =
    (alignRight 8 (hexInt a.instruction.address)).toList ++ (':' :: rest) := by
  let i := a.instruction
  let address := alignRight 8 (hexInt i.address)
  let columns := "  " ++ (alignLeft 24 i.encoded ++ (" " ++ i.text.getD ""))
  have htrimmed (behind : String) : (trimmed (address ++ (":" ++ behind))).toList =
      address.toList ++ (':' :: trimEnd behind.toList) := by
    rw [trimmed, String.toList_ofList, String.toList_append, String.toList_append]
    exact dropTrailing_append_cons (by decide) address.toList behind.toList
  have hline : address ++ ":  " ++ alignLeft 24 i.encoded ++ " " ++ i.text.getD "" =
      address ++ (":" ++ columns) := by
    have hcolon : ":  " = ":" ++ "  " := rfl
    simp only [hcolon, columns, String.append_assoc]
  let rendered := positions a.positions
  by_cases hpositions : rendered = ""
  · have hinstruction : instruction a = trimmed (address ++ (":" ++ columns)) := by
      rw [← hline]
      exact congrArg trimmed (if_pos hpositions)
    exact ⟨_, hinstruction ▸ htrimmed columns⟩
  · have hinstruction : instruction a = trimmed (address ++ (":" ++ (columns ++
        (fill ' ' 72 (address ++ (":" ++ columns)) ++ (" ; " ++ rendered))))) := by
      refine Eq.trans (congrArg trimmed (if_neg hpositions)) ?_
      rw [hline, alignLeft]
      simp only [String.append_assoc, rendered]
    exact ⟨_, hinstruction ▸ htrimmed _⟩

theorem instruction_ne_empty (a : AnnotatedInstruction) : instruction a ≠ "" := by
  obtain ⟨rest, hrest⟩ := toList_instruction a
  intro hempty
  rw [hempty, String.toList_empty] at hrest
  exact List.append_ne_nil_of_right_ne_nil _ (List.cons_ne_nil _ _) hrest.symm

/-- A short address is set in by spaces, with which no header begins; a long one is read, and what stands
behind it is the colon. -/
theorem readHeader?_instruction (a : AnnotatedInstruction) : readHeader? (instruction a) = none := by
  obtain ⟨rest, hrest⟩ := toList_instruction a
  have hread : signedHex? (instruction a).toList = none ∨
      signedHex? (instruction a).toList = some (a.instruction.address, ':' :: rest) := by
    rw [hrest, alignRight, hexInt_eq_hexPadded, fill, String.toList_append, String.toList_ofList,
      String.toList_append]
    cases 8 - (minus a.instruction.address ++ hexPadded 0 a.instruction.address.natAbs).length with
    | zero =>
        rw [List.replicate_zero, List.nil_append, List.append_assoc]
        exact .inr (signedHex?_hexPadded 0 a.instruction.address rfl)
    | succ k => exact .inl rfl
  rcases hread with hread | hread
  · rw [readHeader?, hread]
    rfl
  · rw [readHeader?, hread]
    rfl

theorem isHeading_header (a : AnnotatedInstruction) : isHeading (header a) = true := by
  rw [isHeading, readHeader?_header, Option.isSome_some, Bool.or_true]

theorem isHeading_instruction (a : AnnotatedInstruction) : isHeading (instruction a) = false := by
  simp [isHeading, readHeader?_instruction, instruction_ne_empty]

end LineAtlas.Rendering
