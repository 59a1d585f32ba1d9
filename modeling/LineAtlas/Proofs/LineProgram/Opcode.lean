import LineAtlas.LineProgram.Statement
import LineAtlas.Proofs.Text.Scan

/-!
# Printed statements

The sentences in which the dump tool prints the statements of the line program, with all numbers that
stand in them. Several begin alike; each is read back as the statement it was printed for, and none is
taken by a form that is tried before its own.
-/

namespace LineAtlas.LineProgram

open Text

/-- A statement with everything that is printed with it: the numbers of opcodes, increments beside the
values they lead to, and views. -/
inductive Opcode
  | setColumn (column : Nat)
  | setAddress (address : Nat)
  | advanceLine (increment : Int) (line : Nat)
  | special (number advance address : Nat) (increment : Int) (line : Nat) (view : Option Nat)
  | copy (view : Option Nat)
  | setIsStmt (flag : Nat)
  | advancePc (constant : Bool) (increment : Int) (address : Nat)
  | setDiscriminator (number discriminator : Nat)
  | setFile (index : Nat)
  | endSequence (number : Nat)
  deriving DecidableEq, Repr

namespace Opcode

def viewText : Option Nat → String
  | none => ""
  | some view => s!" (view {view})"

def text : Opcode → String
  | setColumn column => s!"Set column to {column}"
  | setAddress address => s!"Extended opcode 2: set Address to 0x{hexText address}"
  | advanceLine increment line => s!"Advance Line by {increment} to {line}"
  | special number advance address increment line view =>
    s!"Special opcode {number}: advance Address by {advance} to 0x{hexText address}" ++
      s!" and Line by {increment} to {line}" ++ viewText view
  | copy view => "Copy" ++ viewText view
  | setIsStmt flag => s!"Set is_stmt to {flag}"
  | advancePc constant increment address =>
    (if constant then "Advance PC by constant " else "Advance PC by ") ++
      s!"{increment} to 0x{hexText address}"
  | setDiscriminator number discriminator =>
    s!"Extended opcode {number}: set Discriminator to {discriminator}"
  | setFile index => s!"Set File Name to entry {index} in the File Name Table"
  | endSequence number => s!"Extended opcode {number}: End of Sequence"

def statement : Opcode → Statement Nat
  | setColumn column => .setColumn column
  | setAddress address => .setAddress address
  | advanceLine _ line => .setLine line
  | special _ _ address _ line _ => .special address line
  | copy _ => .copy
  | setIsStmt flag => .setIsStmt (flag != 0)
  | advancePc _ _ address => .setAddress address
  | setDiscriminator _ discriminator => .setDiscriminator discriminator
  | setFile index => .setFile index (toString index)
  | endSequence _ => .endSequence

def written : Opcode → Statement Numeral
  | setColumn column => .setColumn (.ofNat column)
  | setAddress address => .setAddress address
  | advanceLine _ line => .setLine (.ofNat line)
  | special _ _ address _ line _ => .special address (.ofNat line)
  | copy _ => .copy
  | setIsStmt flag => .setIsStmt (flag != 0)
  | advancePc _ _ address => .setAddress address
  | setDiscriminator _ discriminator => .setDiscriminator (.ofNat discriminator)
  | setFile index => .setFile (.ofNat index) (toString index)
  | endSequence _ => .endSequence

def numbers : Opcode → List Nat
  | setColumn column => [column]
  | advanceLine _ line => [line]
  | special _ _ _ _ line _ => [line]
  | setDiscriminator _ discriminator => [discriminator]
  | setFile index => [index]
  | _ => []

theorem read_written_eq_ok {op : Opcode} (h : ∀ n ∈ op.numbers, n < 10 ^ maxDigits) :
    op.written.read = .ok op.statement := by
  have hread : ∀ n ∈ op.numbers, (Numeral.ofNat n).read = .ok n :=
    fun n hn => Numeral.read_ofNat_eq_ok (h n hn)
  cases op <;> simp_all [numbers, written, Statement.read, statement, Except.map]

theorem read_written_eq_error {op : Opcode} {n : Nat} (hn : n ∈ op.numbers) (h : 10 ^ maxDigits ≤ n) :
    op.written.read = .error (.numeralTooLong (Nat.toDigits 10 n).length) := by
  have hread := Numeral.read_ofNat_eq_error h
  cases op <;> simp_all [numbers, written, Statement.read, Except.map]

theorem oneLine_viewText (view : Option Nat) : OneLine (viewText view) := by
  cases view with
  | none => decide
  | some view => simp +decide [viewText]

theorem oneLine_text (op : Opcode) : OneLine op.text := by
  unfold text
  cases op with
  | advancePc constant increment address => cases constant <;> simp +decide
  | _ => simp +decide [oneLine_viewText]

theorem head?_text (op : Opcode) : op.text.toList.head?.any isBlank = false := by
  unfold text
  cases op with
  | advancePc constant increment address => cases constant <;> simp +decide
  | _ => simp +decide

theorem toList_viewText (view : Nat) : (viewText (some view)).toList =
    " (view ".toList ++ (Nat.toDigits 10 view ++ (")".toList ++ [])) := by
  simp [viewText]

theorem head?_viewText (view : Option Nat) : (viewText view).toList.head?.any isDigit = false := by
  cases view with
  | none => rfl
  | some view =>
      rw [toList_viewText]
      rfl

theorem viewEnd?_viewText (view : Option Nat) :
    Statement.viewEnd? (viewText view).toList = some () := by
  cases view with
  | none => rfl
  | some view =>
      have hview (cs : List Char) : digits? (Nat.toDigits 10 view ++ (")".toList ++ cs)) = some _ :=
        digits?_toDigits view rfl
      rw [toList_viewText]
      simp only [Statement.viewEnd?, skip?_append, hview, Option.bind_eq_bind, Option.bind_some]
      rfl

/-! ## Reading back -/

def forms : List (List Char → Option (Statement Numeral)) :=
  [Statement.setColumn?, Statement.setAddress?, Statement.setLine?, Statement.special?,
    Statement.copy?, Statement.setIsStmt?, Statement.advanceAddress? "Advance PC by ",
    Statement.advanceAddress? "Advance PC by constant ", Statement.setDiscriminator?,
    Statement.setFile?, Statement.endSequence?]

theorem ofText?_of_form {i : Nat} {form : List Char → Option (Statement Numeral)} {s : Statement Numeral}
    {text : String} {cs : List Char} (hat : forms[i]? = some form) (htext : text.toList = cs)
    (hbefore : (forms.take i).Forall (· cs = none)) (hform : form cs = some s) :
    Statement.ofText? text = some s := by
  subst htext
  exact findSome?_eq_some_of_getElem? hat hbefore hform

theorem ofText?_setColumn (column : Nat) :
    Statement.ofText? (setColumn column).text = some (.setColumn (.ofNat column)) := by
  have htext : (setColumn column).text.toList =
      "Set column to ".toList ++ (Nat.toDigits 10 column ++ []) := by
    unfold text
    simp [-String.reduceToList]
  have hcolumn : numeral? (Nat.toDigits 10 column ++ []) = some (.ofNat column, []) :=
    numeral?_toDigits column rfl
  refine ofText?_of_form (i := 0) rfl htext trivial ?_
  simp only [Statement.setColumn?, skip?_append, hcolumn, Option.bind_eq_bind, Option.bind_some]
  rfl

theorem ofText?_setAddress (address : Nat) :
    Statement.ofText? (setAddress address).text = some (.setAddress address) := by
  have htext : (setAddress address).text.toList =
      "Extended opcode 2: set Address to 0x".toList ++ (Nat.toDigits 16 address ++ []) := by
    unfold text
    simp [hexText, -String.reduceToList]
  have haddress : hex? (Nat.toDigits 16 address ++ []) = some (address, []) :=
    hex?_toDigits address rfl
  refine ofText?_of_form (i := 1) rfl htext (skip?_bind_eq_none (by decide)) ?_
  simp only [Statement.setAddress?, skip?_append, haddress, Option.bind_eq_bind, Option.bind_some]
  rfl

theorem ofText?_advanceLine (increment : Int) (line : Nat) :
    Statement.ofText? (advanceLine increment line).text = some (.setLine (.ofNat line)) := by
  have htext : (advanceLine increment line).text.toList = "Advance Line by ".toList ++
      (increment.repr.toList ++ (" to ".toList ++ (Nat.toDigits 10 line ++ []))) := by
    unfold text
    simp [-String.reduceToList]
  have hincrement : signedDecimal? (increment.repr.toList ++
      (" to ".toList ++ (Nat.toDigits 10 line ++ []))) = some _ := signedDecimal?_repr increment rfl
  have hline : numeral? (Nat.toDigits 10 line ++ []) = some (.ofNat line, []) := numeral?_toDigits line rfl
  refine ofText?_of_form (i := 2) rfl htext ?_ ?_
  · refine ⟨?_, ?_⟩ <;> exact skip?_bind_eq_none (by decide)
  · simp only [Statement.setLine?, skip?_append, hincrement, hline, Option.bind_eq_bind,
      Option.bind_some]
    rfl

theorem ofText?_special (number advance address : Nat) (increment : Int) (line : Nat)
    (view : Option Nat) :
    Statement.ofText? (special number advance address increment line view).text =
      some (.special address (.ofNat line)) := by
  have htext : (special number advance address increment line view).text.toList =
      "Special opcode ".toList ++ (Nat.toDigits 10 number ++ (": advance Address by ".toList ++
        (Nat.toDigits 10 advance ++ (" to 0x".toList ++ (Nat.toDigits 16 address ++
          (" and Line by ".toList ++ (increment.repr.toList ++ (" to ".toList ++
            (Nat.toDigits 10 line ++ (viewText view).toList))))))))) := by
    unfold text
    simp [hexText, -String.reduceToList]
  have hnumber (cs : List Char) :
      digits? (Nat.toDigits 10 number ++ (": advance Address by ".toList ++ cs)) = some _ :=
    digits?_toDigits number rfl
  have hadvance (cs : List Char) :
      digits? (Nat.toDigits 10 advance ++ (" to 0x".toList ++ cs)) = some _ :=
    digits?_toDigits advance rfl
  have haddress (cs : List Char) :
      hex? (Nat.toDigits 16 address ++ (" and Line by ".toList ++ cs)) = some _ :=
    hex?_toDigits address rfl
  have hincrement (cs : List Char) :
      signedDecimal? (increment.repr.toList ++ (" to ".toList ++ cs)) = some _ :=
    signedDecimal?_repr increment rfl
  have hline : numeral? (Nat.toDigits 10 line ++ (viewText view).toList) = some _ :=
    numeral?_toDigits line (head?_viewText view)
  refine ofText?_of_form (i := 3) rfl htext ?_ ?_
  · refine ⟨?_, ?_, ?_⟩ <;> exact skip?_bind_eq_none (by decide)
  · simp only [Statement.special?, skip?_append, hnumber, hadvance, haddress, hincrement, hline,
      viewEnd?_viewText, Option.bind_eq_bind, Option.bind_some]
    rfl

theorem ofText?_copy (view : Option Nat) : Statement.ofText? (copy view).text = some .copy := by
  have htext : (copy view).text.toList = "Copy".toList ++ (viewText view).toList := by
    unfold text
    simp [-String.reduceToList]
  refine ofText?_of_form (i := 4) rfl htext ?_ ?_
  · refine ⟨?_, ?_, ?_, ?_⟩ <;> exact skip?_bind_eq_none (by decide)
  · simp only [Statement.copy?, skip?_append, viewEnd?_viewText, Option.bind_eq_bind,
      Option.bind_some]
    rfl

theorem ofText?_setIsStmt (flag : Nat) :
    Statement.ofText? (setIsStmt flag).text = some (.setIsStmt (flag != 0)) := by
  have htext : (setIsStmt flag).text.toList =
      "Set is_stmt to ".toList ++ (Nat.toDigits 10 flag ++ []) := by
    unfold text
    simp [-String.reduceToList]
  have hflag : digits? (Nat.toDigits 10 flag ++ []) = some _ := digits?_toDigits flag rfl
  have hzero : (Nat.toDigits 10 flag != ['0']) = (flag != 0) := by
    rw [Bool.eq_iff_iff, bne_iff_ne, bne_iff_ne, ne_eq, ne_eq, not_iff_not]
    constructor
    · intro hdigits
      rw [← decimalValue_toDigits flag, hdigits]
      rfl
    · rintro rfl
      rfl
  refine ofText?_of_form (i := 5) rfl htext ?_ ?_
  · refine ⟨?_, ?_, ?_, ?_, ?_⟩ <;> exact skip?_bind_eq_none (by decide)
  · simp only [Statement.setIsStmt?, skip?_append, hflag, hzero, Option.bind_eq_bind,
      Option.bind_some]
    rfl

theorem ofText?_advancePc (constant : Bool) (increment : Int) (address : Nat) :
    Statement.ofText? (advancePc constant increment address).text = some (.setAddress address) := by
  let numbers := increment.repr.toList ++ (" to 0x".toList ++ (Nat.toDigits 16 address ++ []))
  have hform (lead : String) :
      Statement.advanceAddress? lead (lead.toList ++ numbers) = some (.setAddress address) := by
    have hincrement : signedDecimal? numbers = some _ := signedDecimal?_repr increment rfl
    have haddress : hex? (Nat.toDigits 16 address ++ []) = some _ := hex?_toDigits address rfl
    simp only [Statement.advanceAddress?, skip?_append, hincrement, haddress, Option.bind_eq_bind,
      Option.bind_some]
    rfl
  cases constant with
  | false =>
      have htext : (advancePc false increment address).text.toList =
          "Advance PC by ".toList ++ numbers := by
        unfold text
        simp [hexText, numbers, -String.reduceToList]
      refine ofText?_of_form (i := 6) rfl htext ?_ (hform "Advance PC by ")
      refine ⟨?_, ?_, ?_, ?_, ?_, ?_⟩ <;> exact skip?_bind_eq_none (by decide)
  | true =>
      have htext : (advancePc true increment address).text.toList =
          "Advance PC by constant ".toList ++ numbers := by
        unfold text
        simp [hexText, numbers, -String.reduceToList]
      refine ofText?_of_form (i := 7) rfl htext ?_ (hform "Advance PC by constant ")
      refine ⟨?_, ?_, ?_, ?_, ?_, ?_, ?_⟩
      -- The shorter lead is there as well, but no number follows it.
      case refine_7 => rfl
      all_goals exact skip?_bind_eq_none (by decide)

theorem extended?_append (number : Nat) (cs : List Char) :
    Statement.extended? ("Extended opcode ".toList ++ (Nat.toDigits 10 number ++ (": ".toList ++ cs))) =
      some cs := by
  have hnumber : digits? (Nat.toDigits 10 number ++ (": ".toList ++ cs)) = some _ :=
    digits?_toDigits number rfl
  simp only [Statement.extended?, skip?_append, hnumber, Option.bind_eq_bind, Option.bind_some]

/-- The statement that sets the address takes no other extended one, whatever its number. -/
theorem setAddress?_extended (number : Nat) {cs : List Char}
    (h : skip? "set Address to 0x" cs = none) : Statement.setAddress?
      ("Extended opcode ".toList ++ (Nat.toDigits 10 number ++ (": ".toList ++ cs))) = none := by
  cases hskip : skip? "Extended opcode 2: set Address to 0x"
      ("Extended opcode ".toList ++ (Nat.toDigits 10 number ++ (": ".toList ++ cs))) with
  | none =>
      rw [Statement.setAddress?, hskip]
      rfl
  | some rest =>
      have hlit : "Extended opcode 2: set Address to 0x".toList =
          "Extended opcode ".toList ++ (['2'] ++ (": ".toList ++ "set Address to 0x".toList)) := by
        simp
      have heq := after?_eq_some_iff.1 hskip
      simp only [hlit, List.append_assoc, List.append_cancel_left_eq] at heq
      -- Both sides begin with all the digits that they have.
      have hdigits := congrArg digits? heq
      rw [digits?_toDigits number rfl, digits?,
        run?_append (List.forall_mem_singleton.2 rfl) (List.cons_ne_nil _ _) rfl,
        Option.some.injEq, Prod.mk.injEq, List.append_cancel_left_eq] at hdigits
      rw [hdigits.2, skip?_append] at h
      cases h

theorem ofText?_setDiscriminator (number discriminator : Nat) :
    Statement.ofText? (setDiscriminator number discriminator).text =
      some (.setDiscriminator (.ofNat discriminator)) := by
  have htext : (setDiscriminator number discriminator).text.toList = "Extended opcode ".toList ++
      (Nat.toDigits 10 number ++ (": ".toList ++
        ("set Discriminator to ".toList ++ (Nat.toDigits 10 discriminator ++ [])))) := by
    unfold text
    simp
  have hdiscriminator : numeral? (Nat.toDigits 10 discriminator ++ []) = some _ :=
    numeral?_toDigits discriminator rfl
  refine ofText?_of_form (i := 8) rfl htext ?_ ?_
  · refine ⟨?_, setAddress?_extended number ?_, ?_, ?_, ?_, ?_, ?_, ?_⟩
    case refine_2 => exact after?_append_eq_none (by decide)
    all_goals exact skip?_bind_eq_none (by decide)
  · simp only [Statement.setDiscriminator?, extended?_append, skip?_append, hdiscriminator,
      Option.bind_eq_bind, Option.bind_some]
    rfl

theorem setDiscriminator?_eq_none {cs : List Char}
    (h : (Statement.extended? cs).bind (skip? "set Discriminator to ") = none) :
    Statement.setDiscriminator? cs = none := by
  cases hcs : Statement.extended? cs with
  | none =>
      rw [Statement.setDiscriminator?, hcs]
      rfl
  | some rest =>
      rw [hcs, Option.bind_some] at h
      simp only [Statement.setDiscriminator?, hcs, h, Option.bind_eq_bind, Option.bind_some,
        Option.bind_none]

theorem ofText?_setFile (index : Nat) :
    Statement.ofText? (setFile index).text = some (.setFile (.ofNat index) (toString index)) := by
  have htext : (setFile index).text.toList = "Set File Name to entry ".toList ++
      (Nat.toDigits 10 index ++ (" in the File Name Table".toList ++ [])) := by
    unfold text
    simp [-String.reduceToList]
  have hindex (cs : List Char) :
      numeral? (Nat.toDigits 10 index ++ (" in the File Name Table".toList ++ cs)) = some _ :=
    numeral?_toDigits index rfl
  have hextended (cs : List Char) :
      Statement.extended? ("Set File Name to entry ".toList ++ cs) = none :=
    skip?_bind_eq_none (by decide)
  refine ofText?_of_form (i := 9) rfl htext ?_ ?_
  · refine ⟨?_, ?_, ?_, ?_, ?_, ?_, ?_, ?_, setDiscriminator?_eq_none ?_⟩
    case refine_9 => rw [hextended, Option.bind_none]
    all_goals exact skip?_bind_eq_none (by decide)
  · simp only [Statement.setFile?, skip?_append, hindex, Option.bind_eq_bind,
      Option.bind_some]
    rfl

theorem ofText?_endSequence (number : Nat) :
    Statement.ofText? (endSequence number).text = some .endSequence := by
  have htext : (endSequence number).text.toList = "Extended opcode ".toList ++
      (Nat.toDigits 10 number ++ (": ".toList ++ ("End of Sequence".toList ++ []))) := by
    unfold text
    simp
  refine ofText?_of_form (i := 10) rfl htext ?_ ?_
  · refine ⟨?_, setAddress?_extended number ?_, ?_, ?_, ?_, ?_, ?_, ?_,
      setDiscriminator?_eq_none ?_, ?_⟩
    case refine_2 => exact after?_append_eq_none (by decide)
    case refine_9 =>
      rw [extended?_append]
      exact after?_append_eq_none (by decide)
    all_goals exact skip?_bind_eq_none (by decide)
  · simp only [Statement.endSequence?, extended?_append, skip?_append, Option.bind_eq_bind,
      Option.bind_some]
    rfl

/-- Every printed statement is read back. -/
theorem ofText?_text (op : Opcode) : Statement.ofText? op.text = some op.written := by
  cases op with
  | setColumn column => exact ofText?_setColumn column
  | setAddress address => exact ofText?_setAddress address
  | advanceLine increment line => exact ofText?_advanceLine increment line
  | special number advance address increment line view =>
      exact ofText?_special number advance address increment line view
  | copy view => exact ofText?_copy view
  | setIsStmt flag => exact ofText?_setIsStmt flag
  | advancePc constant increment address => exact ofText?_advancePc constant increment address
  | setDiscriminator number discriminator => exact ofText?_setDiscriminator number discriminator
  | setFile index => exact ofText?_setFile index
  | endSequence number => exact ofText?_endSequence number

end Opcode

end LineAtlas.LineProgram
