import LineAtlas.Listing.Line
import LineAtlas.Proofs.Text.Scan

/-!
# The column of bytes

The bytes of an instruction are printed as pairs of digits with single spaces between them. The column
read back ends before the first gap that no byte follows.
-/

namespace LineAtlas.Listing

open Text

def byteDigits (b : UInt8) : List Char :=
  [Nat.digitChar (b.toNat / 16), Nat.digitChar (b.toNat % 16)]

def byteColumn : List UInt8 → List Char
  | [] => []
  | [b] => byteDigits b
  | b :: bs => byteDigits b ++ ' ' :: byteColumn bs

/-- The column of bytes ends before this text: it begins with a blank, and no byte follows a single
space. -/
def EndsBytes (rest : List Char) : Prop :=
  atWordEnd rest = true ∧ ∀ more, rest = ' ' :: more → bytePairs? more = none

theorem isHexDigit_byteDigits (b : UInt8) : isHexDigit (Nat.digitChar (b.toNat / 16)) = true ∧
    isHexDigit (Nat.digitChar (b.toNat % 16)) = true := by
  have hb := b.toNat_lt
  exact ⟨isHexDigit_digitChar _ (by omega), isHexDigit_digitChar _ (by omega)⟩

theorem bytePairs?_last (b : UInt8) {rest : List Char} (h : EndsBytes rest) :
    bytePairs? (byteDigits b ++ rest) = some (byteDigits b, rest) := by
  obtain ⟨hhigh, hlow⟩ := isHexDigit_byteDigits b
  obtain ⟨hend, hnone⟩ := h
  rw [byteDigits, List.cons_append, List.cons_append, List.nil_append]
  cases rest with
  | nil => simp [bytePairs?, hhigh, hlow, hend]
  | cons c more =>
      by_cases hc : c = ' '
      · subst hc
        simp [bytePairs?, hhigh, hlow, hend, hnone more rfl]
      · simp [bytePairs?, hhigh, hlow, hend, hc]

theorem bytePairs?_byteColumn {bytes : List UInt8} (hne : bytes ≠ []) {rest : List Char}
    (h : EndsBytes rest) :
    bytePairs? (byteColumn bytes ++ rest) = some (byteColumn bytes, rest) := by
  induction bytes with
  | nil => exact absurd rfl hne
  | cons b bs ih =>
      cases bs with
      | nil => exact bytePairs?_last b h
      | cons b' bs =>
          obtain ⟨hhigh, hlow⟩ := isHexDigit_byteDigits b
          have hrest := ih (List.cons_ne_nil _ _)
          have hspace (cs : List Char) : atWordEnd (' ' :: cs) = true := rfl
          have hcolumn : byteColumn (b :: b' :: bs) = byteDigits b ++ ' ' :: byteColumn (b' :: bs) :=
            rfl
          rw [hcolumn, byteDigits, List.append_assoc]
          simp [bytePairs?, hhigh, hlow, hspace, hrest]

theorem head?_byteColumn {bytes : List UInt8} (hne : bytes ≠ []) (rest : List Char) :
    (byteColumn bytes ++ rest).head?.any isBlank = false := by
  cases bytes with
  | nil => exact absurd rfl hne
  | cons b bs =>
      have hblank := isBlank_of_isHexDigit (isHexDigit_byteDigits b).1
      cases bs <;> exact hblank

theorem bytePairs?_eq_none {cs : List Char} (h : cs.head?.any isHexDigit = false) :
    bytePairs? cs = none := by
  cases cs with
  | nil => rfl
  | cons c cs =>
      have hc : isHexDigit c = false := h
      cases cs with
      | nil => rfl
      | cons d cs =>
          rw [bytePairs?.eq_def]
          simp [hc]

/-- A gap ends the bytes, and a text may stand behind one of two blanks or more. -/
theorem endsBytes_append {gap text : List Char} (hgap : ∀ c ∈ gap, isBlank c = true)
    (htext : text ≠ [] → 2 ≤ gap.length) : EndsBytes (gap ++ text) := by
  cases gap with
  | nil =>
      have hnil : text = [] := by
        by_contra hne
        exact absurd (htext hne) (by decide)
      subst hnil
      exact ⟨rfl, fun more h => by cases h⟩
  | cons c gap =>
      obtain ⟨hc, hgap⟩ := List.forall_mem_cons.1 hgap
      refine ⟨hc, ?_⟩
      intro more hmore
      obtain ⟨-, rfl⟩ := List.cons.inj hmore
      apply bytePairs?_eq_none
      cases gap with
      | nil =>
          cases text with
          | nil => rfl
          | cons d text => exact absurd (htext (List.cons_ne_nil _ _)) (by simp)
      | cons d gap => exact isHexDigit_of_isBlank (hgap d List.mem_cons_self)

theorem oneLine_byteColumn (bytes : List UInt8) : OneLine (String.ofList (byteColumn bytes)) := by
  have hdigits (b : UInt8) : ∀ c ∈ byteDigits b, c ≠ '\n' ∧ c ≠ '\r' := by
    have hhex : ∀ c ∈ byteDigits b, isHexDigit c = true := by
      simp [byteDigits, isHexDigit_byteDigits]
    have hline := oneLine_ofList_of_isHexDigit hhex
    rwa [OneLine, String.toList_ofList] at hline
  rw [OneLine, String.toList_ofList]
  induction bytes with
  | nil => simp [byteColumn]
  | cons b bs ih =>
      cases bs with
      | nil => exact hdigits b
      | cons b' bs =>
          intro c hc
          rcases List.mem_append.1 hc with hc | hc
          · exact hdigits b c hc
          · rcases List.mem_cons.1 hc with rfl | hc
            · decide
            · exact ih c hc

end LineAtlas.Listing
