import LineAtlas.Proofs.Listing.Bytes
import Mathlib.Data.List.TakeWhile

/-!
# Forms of a line

The forms of a line are tried in order, so a line of one form must have none of the earlier ones. What
tells the forms apart is what a line begins with, and for the banner, whose path may begin as an address
does, what follows the first colon.
-/

namespace LineAtlas.Listing

open Text

def forms : List (List Char → Option Line) :=
  [instruction?, relocation?, entry?, filler?, header?, banner?]

theorem ofText?_of_form {i : Nat} {form : List Char → Option Line} {line : Line} {text : String}
    {cs : List Char} (hat : forms[i]? = some form) (htext : text.toList = cs)
    (hbefore : (forms.take i).Forall (· cs = none)) (hform : form cs = some line) :
    Line.ofText? text = some line := by
  subst htext
  exact findSome?_eq_some_of_getElem? hat hbefore hform

/-! ## What a form needs -/

theorem instruction?_eq_none {cs : List Char} (h : body? cs = none) : instruction? cs = none := by
  rw [instruction?, h]
  rfl

theorem relocation?_eq_none {cs : List Char} (h : body? cs = none) : relocation? cs = none := by
  rw [relocation?, h]
  rfl

/-- What begins with no digit, blanks apart, is no line of an entry. -/
theorem body?_eq_none {cs : List Char} (h : (dropBlanks cs).head?.any isHexDigit = false) :
    body? cs = none := by
  rw [body?, hex?, hexDigits?, run?_eq_none h]
  rfl

theorem entry?_eq_none {cs : List Char} (h : cs.head?.any isHexDigit = false) : entry? cs = none := by
  unfold entry?
  rw [hex?, hexDigits?, run?_eq_none h]
  rfl

/-- A line with a character that is no blank and no dot is not filler. -/
theorem filler?_eq_none {cs : List Char} {c : Char} (h : c ∈ cs) (hblank : isBlank c = false)
    (hdot : c ≠ '.') : filler? cs = none := by
  have hmem := mem_trim hblank h
  rw [filler?, if_neg]
  rintro (hnil | hdots)
  · rw [hnil] at hmem
    cases hmem
  · rw [hdots] at hmem
    simp [hdot] at hmem

/-! ## Banners -/

theorem dropWhile_of_hex? {cs rest : List Char} {n : Nat} (h : hex? cs = some (n, rest)) :
    rest = cs.dropWhile isHexDigit := by
  rw [hex?, hexDigits?, run?] at h
  split at h
  · cases h
  · cases h
    rfl

/-- What follows a path behind which a colon stands, if digits at its front are all before the colon. -/
theorem eq_of_skip?_dropWhile {p : Char → Bool} (hp : p ':' = false) {path rest found : List Char}
    (hpath : ':' ∉ path)
    (h : skip? ":" ((path ++ ':' :: rest).dropWhile p) = some found) : found = rest := by
  induction path with
  | nil =>
      simp only [List.nil_append, List.dropWhile_cons, hp, Bool.false_eq_true, if_false] at h
      have heq : ':' :: rest = [':'] ++ found := after?_eq_some_iff.1 h
      exact (List.cons.inj heq).2.symm
  | cons c path ih =>
      rw [List.mem_cons, not_or] at hpath
      rw [List.cons_append, List.dropWhile_cons] at h
      split at h
      · exact ih hpath.2 h
      · have heq : c :: (path ++ ':' :: rest) = [':'] ++ found := after?_eq_some_iff.1 h
        exact absurd (List.cons.inj heq).1.symm hpath.1

theorem head?_dropWhile {p : Char → Bool} (hp : p ':' = false) {path : List Char}
    (hpath : ∀ c ∈ path, isBlank c = false) (rest : List Char) :
    ∃ c cs, (path ++ ':' :: rest).dropWhile p = c :: cs ∧ isBlank c = false := by
  induction path with
  | nil => exact ⟨':', rest, by simp [hp], rfl⟩
  | cons c path ih =>
      obtain ⟨hc, hpath⟩ := List.forall_mem_cons.1 hpath
      rw [List.cons_append, List.dropWhile_cons]
      split
      · exact ih hpath
      · exact ⟨c, _, rfl, hc⟩

theorem head?_path {path : List Char} (hne : path ≠ []) (hpath : ∀ c ∈ path, isBlank c = false)
    (rest : List Char) : (path ++ rest).head?.any isBlank = false := by
  cases path with
  | nil => exact absurd rfl hne
  | cons c path => exact hpath c List.mem_cons_self

/-- The words after the path are neither bytes nor a kind of relocation. -/
theorem bytePairs?_bannerWords (cs : List Char) : bytePairs? ("file format ".toList ++ cs) = none := by
  have hwords : "file format ".toList ++ cs = 'f' :: 'i' :: ("le format ".toList ++ cs) := by
    simp
  have hi : isHexDigit 'i' = false := rfl
  rw [hwords, bytePairs?.eq_def]
  simp [hi]

theorem skip?_bannerWords (cs : List Char) :
    skip? "R_" (trimEnd ("file format ".toList ++ cs)) = none := by
  have hwords : "file format ".toList ++ cs = [] ++ 'f' :: ("ile format ".toList ++ cs) := by
    simp
  rw [hwords, trimEnd, dropTrailing_append_cons rfl]
  exact after?_eq_none rfl

theorem skip?_trimEnd_eq_none {c : Char} {cs : List Char} (hc : isBlank c = false) :
    skip? " <" (trimEnd (c :: cs)) = none := by
  have hspace : ¬ ' ' = c := by
    rintro rfl
    cases hc
  rw [trimEnd, ← List.nil_append (c :: cs), dropTrailing_append_cons hc]
  exact after?_eq_none (beq_eq_false_iff_ne.2 hspace)

/-- No text with a blank before any colon is the beginning of a path and a colon. -/
theorem differ_path {lit path : List Char} (hblank : ' ' ∈ lit) (hcolon : ':' ∉ lit)
    (hpath : ∀ c ∈ path, isBlank c = false) : differ lit (path ++ [':']) = true := by
  induction lit generalizing path with
  | nil => cases hblank
  | cons l lit ih =>
      rw [List.mem_cons, not_or] at hcolon
      cases path with
      | nil => simp [differ, Ne.symm hcolon.1]
      | cons c path =>
          obtain ⟨hc, hpath⟩ := List.forall_mem_cons.1 hpath
          by_cases hlc : l = c
          · have hspace : ¬ ' ' = l := by
              rintro rfl
              rw [← hlc] at hc
              cases hc
            have hrest := ih (List.mem_of_ne_of_mem hspace hblank) hcolon.2 hpath
            simp [differ, hlc, hrest]
          · simp [differ, hlc]

theorem bannerFrom_append {path rest : List Char} (hpath : ∀ c ∈ path, isBlank c = false)
    (hrest : formatFollows rest = true) {inWord : Bool} (hword : path = [] → inWord = true) :
    bannerFrom inWord (path ++ ':' :: rest) = true := by
  induction path generalizing inWord with
  | nil => simp [bannerFrom, hword rfl, hrest]
  | cons c path ih =>
      obtain ⟨hc, hpath⟩ := List.forall_mem_cons.1 hpath
      have hbreak : (c != '\n') = true := by
        rw [bne_iff_ne]
        rintro rfl
        cases hc
      have hrest : bannerFrom true (path ++ ':' :: rest) = true := ih hpath (fun _ => rfl)
      rw [List.cons_append, bannerFrom, hc, hbreak, Bool.not_false, hrest]
      simp

section

variable {path rest fileFormat : List Char} (hblank : ∀ c ∈ path, isBlank c = false)
include hblank

theorem isBanner_path (hne : path ≠ []) (hformat : '\n' ∉ fileFormat)
    (hgap : blanks? rest = some ("file format ".toList ++ fileFormat)) :
    isBanner (path ++ ':' :: rest) = true := by
  apply bannerFrom_append hblank
  · simp only [formatFollows, hgap, Option.bind_some, skip?_append, oneLine?, if_neg hformat,
      Option.isSome_some]
  · exact fun hnil => absurd hnil hne

theorem entry?_path : entry? (path ++ ':' :: rest) = none := by
  cases h : hex? (path ++ ':' :: rest) with
  | none =>
      unfold entry?
      rw [h]
      rfl
  | some found =>
      obtain ⟨n, cs⟩ := found
      have hcs := dropWhile_of_hex? h
      obtain ⟨c, cs', hdrop, hc⟩ := head?_dropWhile (by decide : isHexDigit ':' = false) hblank rest
      rw [hdrop] at hcs
      unfold entry?
      simp only [h, hcs, skip?_trimEnd_eq_none hc, Option.bind_eq_bind, Option.bind_some,
        Option.bind_none]

theorem header?_path : header? (path ++ ':' :: rest) = none := by
  have htrim : trimEnd (path ++ ':' :: rest) = (path ++ [':']) ++ trimEnd rest := by
    rw [trimEnd, dropTrailing_append_cons rfl, List.append_assoc]
    rfl
  have hdiffer := differ_path (by decide : ' ' ∈ "Disassembly of section ".toList) (by decide) hblank
  rw [header?, htrim, skip?, after?_append_eq_none hdiffer]
  rfl

variable (hne : path ≠ []) (hcolon : ':' ∉ path)
  (hgap : blanks? rest = some ("file format ".toList ++ fileFormat))
include hne hcolon hgap

/-- A banner that begins as a line of an entry does has only its words behind the colon. -/
theorem eq_of_body?_path {address : Nat} {found : List Char}
    (h : body? (path ++ ':' :: rest) = some (address, found)) :
    found = "file format ".toList ++ fileFormat := by
  simp only [body?, dropBlanks_eq_self (head?_path hne hblank _), Option.bind_eq_bind,
    Option.bind_eq_some_iff] at h
  obtain ⟨⟨n, cs⟩, hhex, cs', hskip, cs'', hblanks, h⟩ := h
  rw [dropWhile_of_hex? hhex] at hskip
  rw [eq_of_skip?_dropWhile rfl hcolon hskip, hgap] at hblanks
  cases hblanks
  cases h
  rfl

theorem instruction?_path : instruction? (path ++ ':' :: rest) = none := by
  cases h : body? (path ++ ':' :: rest) with
  | none => exact instruction?_eq_none h
  | some found =>
      obtain ⟨address, cs⟩ := found
      obtain rfl := eq_of_body?_path hblank hne hcolon hgap h
      simp only [instruction?, h, bytePairs?_bannerWords, Option.bind_eq_bind, Option.bind_some,
        Option.bind_none]

theorem relocation?_path : relocation? (path ++ ':' :: rest) = none := by
  cases h : body? (path ++ ':' :: rest) with
  | none => exact relocation?_eq_none h
  | some found =>
      obtain ⟨address, cs⟩ := found
      obtain rfl := eq_of_body?_path hblank hne hcolon hgap h
      simp only [relocation?, h, skip?_bannerWords, Option.bind_eq_bind, Option.bind_some,
        Option.bind_none]

end

end LineAtlas.Listing
