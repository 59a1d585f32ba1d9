import LineAtlas.Text.Numeral
import Mathlib.Data.List.Basic
import Mathlib.Data.List.Induction
import Mathlib.Data.Nat.Digits.Defs

/-!
# Scanning printed text

What the scanners find in text that was printed: a literal where it was printed and nowhere else, and
numbers of any size, as long as no further digit follows. Of those a decimal one is read with its value unless
it has too many digits.
-/

namespace LineAtlas.Text

@[simp]
theorem toString_text (s : String) : toString s = s := rfl

def hexPadded (width n : Nat) : String :=
  String.ofList ((Nat.toDigits 16 n).leftpad width '0')

/-! ## Runs -/

theorem run?_append {p : Char → Bool} {ds rest : List Char} (hds : ∀ c ∈ ds, p c = true)
    (hne : ds ≠ []) (hrest : rest.head?.any p = false) : run? p (ds ++ rest) = some (ds, rest) := by
  have hstop : rest.takeWhile p = [] ∧ rest.dropWhile p = rest := by
    cases rest with
    | nil => exact ⟨rfl, rfl⟩
    | cons c cs =>
        have hc : p c = false := hrest
        simp [hc]
  rw [run?, List.takeWhile_append_of_pos hds, List.dropWhile_append_of_pos hds, hstop.1, hstop.2,
    List.append_nil]
  cases ds with
  | nil => exact absurd rfl hne
  | cons d ds => rfl

theorem run?_eq_none {p : Char → Bool} {cs : List Char} (h : cs.head?.any p = false) :
    run? p cs = none := by
  cases cs with
  | nil => rfl
  | cons c cs =>
      have hc : p c = false := h
      simp [run?, hc]

theorem after?_eq_none {l : Char} {lit cs : List Char} (h : cs.head?.any (l == ·) = false) :
    after? (l :: lit) cs = none := by
  cases cs with
  | nil => rfl
  | cons c cs =>
      have hc : ¬ l = c := by simpa using h
      rw [after?, if_neg hc]

def differ : List Char → List Char → Bool
  | a :: as, b :: bs => a != b || differ as bs
  | _, _ => false

theorem after?_append_eq_none {lit front rest : List Char} (h : differ lit front = true) :
    after? lit (front ++ rest) = none := by
  fun_induction differ lit front with
  | case1 a as b bs ih =>
      rw [List.cons_append, after?]
      by_cases hab : a = b
      · rw [if_pos hab]
        exact ih (by simpa [hab] using h)
      · exact if_neg hab
  | case2 => cases h

/-- A scanner that begins with a literal does not take a text that begins otherwise. -/
theorem skip?_bind_eq_none {lit front rest : List Char} {k : List Char → Option α}
    (h : differ lit front = true) :
    (skip? (String.ofList lit) ((String.ofList front).toList ++ rest) >>= k) = none := by
  rw [skip?, String.toList_ofList, String.toList_ofList, after?_append_eq_none h]
  rfl

theorem skip?_append (lit : String) (rest : List Char) : skip? lit (lit.toList ++ rest) = some rest :=
  after?_append lit.toList rest

def isGap (cs : List Char) : Bool :=
  !cs.isEmpty && cs.all isBlank

theorem blanks?_append {gap rest : List Char} (hgap : isGap gap = true)
    (hrest : rest.head?.any isBlank = false) : blanks? (gap ++ rest) = some rest := by
  rw [isGap, Bool.and_eq_true, Bool.not_eq_true', List.isEmpty_eq_false_iff, List.all_eq_true] at hgap
  rw [blanks?, run?_append hgap.2 hgap.1 hrest, Option.map_some]

theorem dropBlanks_append {gap rest : List Char} (hgap : ∀ c ∈ gap, isBlank c = true)
    (hrest : rest.head?.any isBlank = false) : dropBlanks (gap ++ rest) = rest := by
  rw [dropBlanks, List.dropWhile_append_of_pos hgap]
  cases rest with
  | nil => rfl
  | cons c cs =>
      have hc : isBlank c = false := hrest
      simp [hc]

theorem dropBlanks_eq_self {cs : List Char} (h : cs.head?.any isBlank = false) : dropBlanks cs = cs :=
  dropBlanks_append (List.forall_mem_nil _) h

theorem before?_append (lit : String) (cs : List Char) :
    before? lit (cs ++ lit.toList) = some cs := by
  rw [before?, List.reverse_append, after?_append, Option.map_some, List.reverse_reverse]

/-- Nothing is cut off behind a character that is kept. -/
theorem dropTrailing_append_cons {p : Char → Bool} {c : Char} (hc : p c = false)
    (front back : List Char) :
    dropTrailing p (front ++ c :: back) = front ++ c :: dropTrailing p back := by
  induction front with
  | nil =>
      rw [List.nil_append, List.nil_append, dropTrailing]
      cases dropTrailing p back with
      | nil => simp [hc]
      | cons d ds => rfl
  | cons d front ih =>
      rw [List.cons_append, dropTrailing, ih]
      cases front <;> rfl

/-! ## Trimming -/

theorem trimEnd_eq_self {cs : List Char} (h : cs.getLast?.any isBlank = false) : trimEnd cs = cs := by
  induction cs using List.reverseRecOn with
  | nil => rfl
  | append_singleton front c ih =>
      apply trimEnd_eq_self_of_getLast
      simpa using h

theorem trim_append {gap text : List Char} (hgap : ∀ c ∈ gap, isBlank c = true)
    (hbefore : text.head?.any isBlank = false) (hafter : text.getLast?.any isBlank = false) :
    trim (gap ++ text) = text := by
  rw [trim, dropBlanks_append hgap hbefore, trimEnd_eq_self hafter]

theorem mem_trim {cs : List Char} {c : Char} (hc : isBlank c = false) (h : c ∈ cs) : c ∈ trim cs := by
  have hdrop : c ∈ dropBlanks cs := by
    induction cs with
    | nil => exact h
    | cons d cs ih =>
        rw [dropBlanks, List.dropWhile_cons]
        split
        · rename_i hd
          apply ih
          rcases List.mem_cons.1 h with rfl | h
          · rw [hc] at hd
            cases hd
          · exact h
        · exact h
  obtain ⟨front, back, hcs⟩ := List.append_of_mem hdrop
  rw [trim, hcs, trimEnd, dropTrailing_append_cons hc]
  exact List.mem_append_right _ List.mem_cons_self

theorem trimEnd_append {cs front back : List Char} (h : cs = front ++ back)
    (hlast : back.getLast?.elim true isBlank = false) : trimEnd cs = cs := by
  subst h
  apply trimEnd_eq_self
  rw [List.getLast?_append]
  cases hback : back.getLast? with
  | none =>
      rw [hback] at hlast
      cases hlast
  | some c =>
      rw [hback] at hlast
      exact hlast

/-! ## Parts of a line -/

theorem dropTrailing_sublist (p : Char → Bool) (cs : List Char) : (dropTrailing p cs).Sublist cs := by
  induction cs with
  | nil => exact .refl _
  | cons c cs ih =>
      rw [dropTrailing]
      split
      · split
        · exact List.nil_sublist _
        · exact (List.nil_sublist _).cons_cons c
      · exact ih.cons_cons c

theorem run?_eq_some {p : Char → Bool} {cs ds rest : List Char} (h : run? p cs = some (ds, rest)) :
    cs = ds ++ rest ∧ ds ≠ [] ∧ (∀ c ∈ ds, p c = true) ∧ rest.head?.any p = false := by
  rw [run?] at h
  split at h
  · cases h
  · rename_i hne
    cases h
    refine ⟨List.takeWhile_append_dropWhile.symm, hne, List.all_eq_true.1 List.all_takeWhile, ?_⟩
    have hstop := List.head?_dropWhile_not p cs
    cases hhead : (cs.dropWhile p).head? with
    | none => rfl
    | some c =>
        rw [hhead] at hstop
        exact hstop

theorem run?_sublist {p : Char → Bool} {cs ds rest : List Char} (h : run? p cs = some (ds, rest)) :
    rest.Sublist cs := by
  rw [(run?_eq_some h).1]
  exact List.sublist_append_right _ _

theorem blanks?_eq_some {cs rest : List Char} (h : blanks? cs = some rest) :
    ∃ gap, isGap gap = true ∧ rest.head?.any isBlank = false ∧ cs = gap ++ rest := by
  obtain ⟨⟨gap, rest'⟩, hrun, rfl⟩ := Option.map_eq_some_iff.1 h
  obtain ⟨hcs, hne, hall, hrest⟩ := run?_eq_some hrun
  refine ⟨gap, ?_, hrest, hcs⟩
  rw [isGap, Bool.and_eq_true, Bool.not_eq_true', List.isEmpty_eq_false_iff, List.all_eq_true]
  exact ⟨hne, hall⟩

theorem skip?_sublist {lit : String} {cs rest : List Char} (h : skip? lit cs = some rest) :
    rest.Sublist cs := by
  rw [after?_eq_some_iff.1 h]
  exact List.sublist_append_right _ _

theorem hex?_sublist {cs rest : List Char} {n : Nat} (h : hex? cs = some (n, rest)) :
    rest.Sublist cs := by
  obtain ⟨⟨ds, rest'⟩, hdigits, heq⟩ := Option.map_eq_some_iff.1 h
  cases heq
  exact run?_sublist hdigits

theorem signedDecimal?_sublist {cs rest : List Char} (h : signedDecimal? cs = some rest) :
    rest.Sublist cs := by
  obtain ⟨⟨ds, rest'⟩, hdigits, rfl⟩ := Option.map_eq_some_iff.1 h
  refine (run?_sublist hdigits).trans ?_
  cases hsign : skip? "-" cs with
  | none => exact .refl cs
  | some unsigned => exact skip?_sublist hsign

/-- A number has no more digits than the text it is taken from. -/
theorem length_le_of_numeral? {cs rest : List Char} {n : Numeral} (h : numeral? cs = some (n, rest)) :
    n.digits.length ≤ cs.countP isDigit := by
  obtain ⟨⟨ds, rest'⟩, hdigits, heq⟩ := Option.map_eq_some_iff.1 h
  cases heq
  obtain ⟨rfl, -, hall, -⟩ := run?_eq_some hdigits
  rw [List.countP_append, List.countP_eq_length.2 hall]
  exact Nat.le_add_right _ _

theorem oneLine?_eq_some {cs : List Char} {s : String} (h : oneLine? cs = some s) :
    s.toList = cs ∧ '\n' ∉ cs := by
  rw [oneLine?] at h
  split at h
  · cases h
  · rename_i hnewline
    cases h
    exact ⟨String.toList_ofList, hnewline⟩

/-! ## Numbers -/

theorem digitValue?_digitChar : ∀ k < 10, digitValue? (Nat.digitChar k) = some k := by
  decide

theorem isHexDigit_digitChar : ∀ k < 16, isHexDigit (Nat.digitChar k) = true := by
  decide

theorem hexDigitValue_digitChar : ∀ k < 16, hexDigitValue (Nat.digitChar k) = k := by
  decide

/-- The digits of a number are those of its remainders. -/
theorem forall_mem_toDigits {b : Nat} (hb : 1 < b) {P : Char → Prop}
    (h : ∀ k < b, P (Nat.digitChar k)) (n : Nat) : ∀ c ∈ Nat.toDigits b n, P c := by
  induction n using Nat.strongRecOn with
  | ind n ih =>
      rw [Nat.toDigits_eq_if hb]
      split
      · rename_i hlt
        simpa using h n hlt
      · rename_i hle
        have hrest := ih (n / b) (Nat.div_lt_self (by omega) hb)
        have hlast := h (n % b) (Nat.mod_lt n (by omega))
        simpa [or_imp, forall_and] using And.intro hrest hlast

theorem head?_toDigits {p : Char → Bool} (hp : ∀ k < 10, p (Nat.digitChar k) = false) (n : Nat)
    (rest : List Char) : (Nat.toDigits 10 n ++ rest).head?.any p = false := by
  have hall : ∀ c ∈ Nat.toDigits 10 n, p c = false := forall_mem_toDigits (by decide) hp n
  cases hn : Nat.toDigits 10 n with
  | nil => exact absurd hn Nat.toDigits_ne_nil
  | cons d ds =>
      rw [hn] at hall
      exact hall d List.mem_cons_self

theorem isDigit_of_mem_toDigits (n : Nat) : ∀ c ∈ Nat.toDigits 10 n, isDigit c = true := by
  refine forall_mem_toDigits (by decide) ?_ n
  intro k hk
  rw [isDigit, digitValue?_digitChar k hk, Option.isSome_some]

theorem isHexDigit_of_mem_toDigits (n : Nat) : ∀ c ∈ Nat.toDigits 16 n, isHexDigit c = true :=
  forall_mem_toDigits (by decide) isHexDigit_digitChar n

/-- A reading of digits from the left gives a number back from its digits. -/
theorem foldl_toDigits {b : Nat} (hb : 1 < b) {value : Char → Nat}
    (hvalue : ∀ k < b, value (Nat.digitChar k) = k) (n : Nat) :
    (Nat.toDigits b n).foldl (fun m c => b * m + value c) 0 = n := by
  induction n using Nat.strongRecOn with
  | ind n ih =>
      rw [Nat.toDigits_eq_if hb]
      split
      · rename_i hlt
        simp [hvalue n hlt]
      · rename_i hle
        have hrest := ih (n / b) (Nat.div_lt_self (by omega) hb)
        rw [List.foldl_append, hrest, List.foldl_cons, List.foldl_nil,
          hvalue (n % b) (Nat.mod_lt n (by omega))]
        exact Nat.div_add_mod n b

theorem decimalValue_toDigits (n : Nat) : decimalValue (Nat.toDigits 10 n) = n := by
  refine foldl_toDigits (by decide) ?_ n
  intro k hk
  rw [digitValue?_digitChar k hk, Option.getD_some]

theorem hexValue_toDigits (n : Nat) : hexValue (Nat.toDigits 16 n) = n :=
  foldl_toDigits (by decide) hexDigitValue_digitChar n

theorem digits?_toDigits (n : Nat) {rest : List Char} (h : rest.head?.any isDigit = false) :
    digits? (Nat.toDigits 10 n ++ rest) = some (Nat.toDigits 10 n, rest) :=
  run?_append (isDigit_of_mem_toDigits n) Nat.toDigits_ne_nil h

theorem lt_pow_length_toDigits {b : Nat} (hb : 1 < b) (n : Nat) :
    n < b ^ (Nat.toDigits b n).length := by
  induction n using Nat.strongRecOn with
  | ind n ih =>
      rw [Nat.toDigits_eq_if hb]
      split
      · rename_i hlt
        simpa using hlt
      · rename_i hle
        have hrest := ih (n / b) (Nat.div_lt_self (by omega) hb)
        rw [List.length_append, List.length_singleton, Nat.pow_succ]
        exact (Nat.div_lt_iff_lt_mul (by omega)).1 hrest

/-- A number has at most so many digits as it has when it is printed. -/
theorem length_toDigits_le_iff {b k : Nat} (hb : 1 < b) (hk : 0 < k) {n : Nat} :
    (Nat.toDigits b n).length ≤ k ↔ n < b ^ k := by
  constructor
  · intro hlength
    exact (lt_pow_length_toDigits hb n).trans_le (Nat.pow_le_pow_right (by omega) hlength)
  · exact Nat.toDigits_length b n k hk

namespace Numeral

def ofNat (n : Nat) : Numeral :=
  ⟨Nat.toDigits 10 n⟩

@[simp]
theorem value_ofNat (n : Nat) : (ofNat n).value = n :=
  decimalValue_toDigits n

theorem read_ofNat_eq_ok {n : Nat} (h : n < 10 ^ maxDigits) : (ofNat n).read = .ok n :=
  read_eq_ok_iff.2 ⟨(length_toDigits_le_iff (by decide) (by decide)).2 h, value_ofNat n⟩

theorem read_ofNat_eq_error {n : Nat} (h : 10 ^ maxDigits ≤ n) :
    (ofNat n).read = .error (.numeralTooLong (Nat.toDigits 10 n).length) := by
  refine read_eq_error_iff.2 ⟨?_, rfl⟩
  rw [← Nat.not_le]
  exact fun hlength => Nat.not_lt.2 h ((length_toDigits_le_iff (by decide) (by decide)).1 hlength)

end Numeral

theorem numeral?_toDigits (n : Nat) {rest : List Char} (h : rest.head?.any isDigit = false) :
    numeral? (Nat.toDigits 10 n ++ rest) = some (.ofNat n, rest) := by
  simp only [numeral?, digits?_toDigits n h, Option.map_some, Numeral.ofNat]

theorem hex?_toDigits (n : Nat) {rest : List Char} (h : rest.head?.any isHexDigit = false) :
    hex? (Nat.toDigits 16 n ++ rest) = some (n, rest) := by
  simp only [hex?, hexDigits?, run?_append (isHexDigit_of_mem_toDigits n) Nat.toDigits_ne_nil h,
    Option.map_some, hexValue_toDigits]

theorem isHexDigit_of_mem_hexPadded (width n : Nat) :
    ∀ c ∈ (hexPadded width n).toList, isHexDigit c = true := by
  intro c hc
  rw [hexPadded, String.toList_ofList, List.leftpad, List.mem_append, List.mem_replicate] at hc
  rcases hc with ⟨-, rfl⟩ | hc
  · rfl
  · exact isHexDigit_of_mem_toDigits n c hc

theorem hexPadded_ne_nil (width n : Nat) : (hexPadded width n).toList ≠ [] := by
  simp [hexPadded, List.leftpad, Nat.toDigits_ne_nil]

theorem hexValue_hexPadded (width n : Nat) : hexValue (hexPadded width n).toList = n := by
  have hzeros (k : Nat) (ds : List Char) : hexValue (List.replicate k '0' ++ ds) = hexValue ds := by
    induction k with
    | zero => rfl
    | succ k ih => exact ih
  rw [hexPadded, String.toList_ofList, List.leftpad, hzeros, hexValue_toDigits]

theorem hexDigits?_hexPadded (width n : Nat) {rest : List Char}
    (h : rest.head?.any isHexDigit = false) :
    hexDigits? ((hexPadded width n).toList ++ rest) = some ((hexPadded width n).toList, rest) := by
  exact run?_append (isHexDigit_of_mem_hexPadded width n) (hexPadded_ne_nil width n) h

theorem hex?_hexPadded (width n : Nat) {rest : List Char}
    (h : rest.head?.any isHexDigit = false) :
    hex? ((hexPadded width n).toList ++ rest) = some (n, rest) := by
  simp only [hex?, hexDigits?_hexPadded width n h, Option.map_some, hexValue_hexPadded]

theorem isBlank_of_isHexDigit {c : Char} (h : isHexDigit c = true) : isBlank c = false := by
  simp only [isHexDigit, Bool.or_eq_true, Bool.and_eq_true, decide_eq_true_eq] at h
  simp only [isBlank, Bool.or_eq_false_iff, Bool.and_eq_false_iff, decide_eq_false_iff_not,
    beq_eq_false_iff_ne]
  omega

theorem isHexDigit_of_isBlank {c : Char} (h : isBlank c = true) : isHexDigit c = false := by
  by_contra hc
  rw [Bool.not_eq_false] at hc
  rw [isBlank_of_isHexDigit hc] at h
  cases h

/-- No blank is a digit of any script. -/
theorem isBlank_of_isDigit {c : Char} (h : isDigit c = true) : isBlank c = false := by
  have hzeros : ∀ first ∈ decimalZeros, first + 10 ≤ 0x1680 ∨ 0x1680 < first ∧ first + 10 ≤ 0x2000 ∨
      0x205F < first ∧ first + 10 ≤ 0x3000 ∨ 0x3000 < first := by
    decide
  have hcode : 0x30 ≤ c.toNat ∧ c.toNat ≤ 0x39 ∨
      0x660 ≤ c.toNat ∧ ∃ first ∈ decimalZeros, first ≤ c.toNat ∧ c.toNat < first + 10 := by
    simp only [isDigit, digitValue?] at h
    split at h
    · split at h
      · rename_i hascii
        exact .inl hascii
      · cases h
    · rename_i hlarge
      rw [Option.isSome_map, List.find?_isSome] at h
      obtain ⟨first, hfirst, hin⟩ := h
      rw [Bool.and_eq_true, decide_eq_true_eq, decide_eq_true_eq] at hin
      exact .inr ⟨Nat.le_of_not_lt hlarge, first, hfirst, hin⟩
  simp only [isBlank, Bool.or_eq_false_iff, Bool.and_eq_false_iff, decide_eq_false_iff_not,
    beq_eq_false_iff_ne]
  rcases hcode with hcode | ⟨hlarge, first, hfirst, hcode⟩
  · omega
  · have := hzeros first hfirst
    omega

theorem head?_append_of_isBlank {gap rest : List Char} (hgap : ∀ c ∈ gap, isBlank c = true)
    (hrest : rest.head?.any isHexDigit = false) : (gap ++ rest).head?.any isHexDigit = false := by
  cases gap with
  | nil => exact hrest
  | cons c gap => exact isHexDigit_of_isBlank (hgap c List.mem_cons_self)

theorem head?_hexPadded_of_isHexDigit {p : Char → Bool} (hp : ∀ c, isHexDigit c = true → p c = false)
    (width n : Nat) (rest : List Char) : ((hexPadded width n).toList ++ rest).head?.any p = false := by
  have hall := isHexDigit_of_mem_hexPadded width n
  cases hn : (hexPadded width n).toList with
  | nil => exact absurd hn (hexPadded_ne_nil width n)
  | cons d ds =>
      rw [hn] at hall
      exact hp d (hall d List.mem_cons_self)

theorem head?_hexPadded (width n : Nat) (rest : List Char) :
    ((hexPadded width n).toList ++ rest).head?.any isBlank = false :=
  head?_hexPadded_of_isHexDigit (fun _ => isBlank_of_isHexDigit) width n rest

theorem signedDecimal?_repr (d : Int) {rest : List Char} (h : rest.head?.any isDigit = false) :
    signedDecimal? (d.repr.toList ++ rest) = some rest := by
  cases d with
  | ofNat n =>
      have hminus : skip? "-" (Nat.toDigits 10 n ++ rest) = none :=
        after?_eq_none (head?_toDigits (by decide) n rest)
      rw [Int.repr, Nat.toList_repr, signedDecimal?, hminus, Option.getD_none, digits?_toDigits n h,
        Option.map_some]
  | negSucc n =>
      have hminus : skip? "-" ((Int.negSucc n).repr.toList ++ rest) =
          some (Nat.toDigits 10 (n + 1) ++ rest) := by
        rw [Int.repr, String.toList_append, Nat.toList_repr, List.append_assoc]
        rfl
      rw [signedDecimal?, hminus, Option.getD_some, digits?_toDigits (n + 1) h, Option.map_some]

/-! ## Single lines -/

def OneLine (s : String) : Prop :=
  ∀ c ∈ s.toList, c ≠ '\n' ∧ c ≠ '\r'

instance (s : String) : Decidable (OneLine s) :=
  List.decidableBAll (fun c => c ≠ '\n' ∧ c ≠ '\r') s.toList

theorem OneLine.newline_not_mem {s : String} (h : OneLine s) : '\n' ∉ s.toList :=
  fun hmem => (h _ hmem).1 rfl

@[simp]
theorem oneLine_append {s t : String} : OneLine (s ++ t) ↔ OneLine s ∧ OneLine t := by
  simp only [OneLine, String.toList_append, List.forall_mem_append]

/-- Digits of any base up to 16 end no line. -/
theorem oneLine_ofList_of_isHexDigit {cs : List Char} (h : ∀ c ∈ cs, isHexDigit c = true) :
    OneLine (String.ofList cs) := by
  intro c hc
  rw [String.toList_ofList] at hc
  have hdigit := h c hc
  refine ⟨?_, ?_⟩ <;> rintro rfl <;> exact absurd hdigit (by decide)

@[simp]
theorem oneLine_repr (n : Nat) : OneLine n.repr := by
  have hdigits : ∀ k < 10, isHexDigit (Nat.digitChar k) = true := by decide
  rw [← String.ofList_toList (s := n.repr), Nat.toList_repr]
  exact oneLine_ofList_of_isHexDigit (forall_mem_toDigits (by decide) hdigits n)

@[simp]
theorem oneLine_int (d : Int) : OneLine d.repr := by
  cases d with
  | ofNat n => exact oneLine_repr n
  | negSucc n => exact oneLine_append.2 ⟨by decide, oneLine_repr (n + 1)⟩

@[simp]
theorem oneLine_hexText (n : Nat) : OneLine (hexText n) :=
  oneLine_ofList_of_isHexDigit (isHexDigit_of_mem_toDigits n)

@[simp]
theorem oneLine_hexPadded (width n : Nat) : OneLine (hexPadded width n) := by
  rw [← String.ofList_toList (s := hexPadded width n)]
  exact oneLine_ofList_of_isHexDigit (isHexDigit_of_mem_hexPadded width n)

/-- Nothing is cut off a single line. -/
theorem OneLine.withoutLineEnd_eq {s : String} (h : OneLine s) : withoutLineEnd s = s := by
  have hkeep : ∀ cs : List Char, (∀ c ∈ cs, c ≠ '\n' ∧ c ≠ '\r') →
      dropTrailing (fun c => c == '\r' || c == '\n') cs = cs := by
    intro cs hcs
    induction cs with
    | nil => rfl
    | cons c cs ih =>
        obtain ⟨hc, hrest⟩ := List.forall_mem_cons.1 hcs
        rw [dropTrailing, ih hrest]
        cases cs with
        | nil => simp [hc]
        | cons d cs => rfl
  rw [withoutLineEnd, hkeep s.toList h, String.ofList_toList]

/-- Nothing is cut off a text that ends with a single line after some character that stays. -/
theorem OneLine.withoutLineEnd_append {s back : String} (h : OneLine back) {front : List Char} {c : Char}
    (hc : c ≠ '\n' ∧ c ≠ '\r') (hs : s.toList = front ++ c :: back.toList) : withoutLineEnd s = s := by
  have hback : dropTrailing (fun c => c == '\r' || c == '\n') back.toList = back.toList := by
    have hcut := congrArg String.toList h.withoutLineEnd_eq
    rwa [withoutLineEnd, String.toList_ofList] at hcut
  rw [withoutLineEnd, hs, dropTrailing_append_cons (by simp [hc]), hback, ← hs, String.ofList_toList]

/-! ## Forms -/

/-- Of several forms that are tried in turn, one reads what no form before it takes. -/
theorem findSome?_eq_some_of_getElem? {forms : List (List Char → Option α)} {i : Nat}
    {form : List Char → Option α} {cs : List Char} {a : α} (hat : forms[i]? = some form)
    (hbefore : (forms.take i).Forall (· cs = none)) (hform : form cs = some a) :
    forms.findSome? (· cs) = some a := by
  obtain ⟨hlt, hat⟩ := List.getElem?_eq_some_iff.1 hat
  have hforms : forms = forms.take i ++ form :: forms.drop (i + 1) := by
    rw [← hat, List.getElem_cons_drop, List.take_append_drop]
  have hnone : (forms.take i).findSome? (· cs) = none :=
    List.findSome?_eq_none_iff.2 (List.forall_iff_forall_mem.1 hbefore)
  rw [hforms, List.findSome?_append, hnone, Option.none_or, List.findSome?_cons_of_isSome, hform]
  rw [hform, Option.isSome_some]

/-- The line has no more digits than a number may have. -/
def FewDigits (rawLine : String) : Prop :=
  rawLine.toList.countP isDigit ≤ maxDigits

theorem FewDigits.length_le {rawLine : String} (h : FewDigits rawLine) {n : Numeral}
    (hn : n.digits.length ≤ (withoutLineEnd rawLine).toList.countP isDigit) :
    n.digits.length ≤ maxDigits := by
  have hwhole : (withoutLineEnd rawLine).toList.countP isDigit ≤ rawLine.toList.countP isDigit := by
    rw [withoutLineEnd, String.toList_ofList]
    exact (dropTrailing_sublist _ _).countP_le
  exact hn.trans (hwhole.trans h)

end LineAtlas.Text
