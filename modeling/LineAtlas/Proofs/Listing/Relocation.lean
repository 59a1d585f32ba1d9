import LineAtlas.Listing
import LineAtlas.Proofs.Text.Scan
import LineAtlas.Proofs.Traversal

/-!
# Relocations

A relocation names a symbol that is part of its line, and puts it in the place of the operand of the
instruction before it. The symbol is read as a replacement template there, and its defects are those of
the relocation.
-/

namespace LineAtlas

open Text

/-- The defect of a template does not depend on the text it is put in the place of. -/
theorem Text.Template.expand_eq_error_iff (found : List Char) {template : List Char} {d : Defect} :
    expand found template = .error d ↔ expand [] template = .error d := by
  fun_induction expand found template with
  | case1 | case2 => simp [expand]
  | case3 cs hname =>
      rw [expand.eq_3]
      split <;> simp_all
  | case4 cs name rest hname _ d' hdefect =>
      rw [expand.eq_3]
      split <;> simp_all
  | case5 cs name rest hname _ hdefect ih =>
      rw [expand.eq_3]
      split <;> simp_all [Except.map_eq_error_iff]
  | case6 cs _ ih => rw [expand.eq_4, Except.map_eq_error_iff, Except.map_eq_error_iff, ih]
  | case7 c cs hg h0 text hplain ih =>
      rw [expand.eq_5 _ _ _ hg h0, hplain]
      simp only [Except.map_eq_error_iff, ih]
  | case8 c cs hg h0 hplain hdigit r hoctal _ ih =>
      rw [expand.eq_5 _ _ _ hg h0, hplain]
      simp only [hdigit, if_true]
      split <;> simp_all [Except.map_eq_error_iff]
  | case9 c cs hg h0 hplain hdigit hoctal =>
      rw [expand.eq_5 _ _ _ hg h0, hplain]
      simp only [hdigit, if_true]
      split <;> simp_all
  | case10 c cs hg h0 hplain hdigit => simp_all [expand]
  | case11 c cs hlast hg h0 hescape ih =>
      rw [expand.eq_6 _ _ _ hlast hg h0 hescape, Except.map_eq_error_iff, Except.map_eq_error_iff, ih]

namespace Listing

/-! ## The symbol of a line -/

theorem body?_sublist {cs rest : List Char} {address : Nat} (h : body? cs = some (address, rest)) :
    rest.Sublist cs := by
  simp only [body?, hex?, blanks?, Option.bind_eq_bind, Option.bind_eq_some_iff,
    Option.map_eq_some_iff] at h
  obtain ⟨_, ⟨⟨ds, cs₁⟩, hdigits, rfl⟩, cs₂, hcolon, cs₃, ⟨⟨gap, cs₄⟩, hgap, rfl⟩, h⟩ := h
  cases h
  have hcolon : cs₂.Sublist cs₁ := skip?_sublist hcolon
  exact (run?_sublist hgap).trans (hcolon.trans
    ((run?_sublist hdigits).trans (List.dropWhile_sublist _)))

theorem relocationSymbol?_sublist {body : List Char} {symbol : String}
    (h : relocationSymbol? body = some symbol) : symbol.toList.Sublist body := by
  rw [relocationSymbol?] at h
  split at h
  · simp only at h
    split at h
    · cases h
    · rw [(oneLine?_eq_some h).1]
      exact (List.dropWhile_sublist _).trans (List.drop_sublist _ _)
  · simp only at h
    split at h
    · cases h
    · cases h
      rw [String.toList_ofList, ← List.reverse_reverse body, List.reverse_sublist,
        List.reverse_reverse]
      exact List.takeWhile_sublist _

/-- The symbol that a line relocates by is part of the line. -/
theorem relocation?_sublist {cs : List Char} {symbol : String}
    (h : relocation? cs = some (.relocation symbol)) : symbol.toList.Sublist cs := by
  simp only [relocation?, Option.bind_eq_bind, Option.bind_eq_some_iff] at h
  obtain ⟨⟨address, rest⟩, hbody, body, hkind, symbol', hsymbol, h⟩ := h
  cases h
  exact (relocationSymbol?_sublist hsymbol).trans ((skip?_sublist hkind).trans
    ((dropTrailing_sublist _ _).trans (body?_sublist hbody)))

theorem relocation?_of_ofText? {line symbol : String}
    (h : Line.ofText? line = some (.relocation symbol)) :
    relocation? line.toList = some (.relocation symbol) := by
  obtain ⟨form, hmem, hform⟩ := List.exists_of_findSome?_eq_some h
  simp only [List.mem_cons, List.not_mem_nil, or_false] at hmem
  rcases hmem with rfl | rfl | rfl | rfl | rfl | rfl
  · simp only [instruction?, Option.bind_eq_bind, Option.bind_eq_some_iff] at hform
    obtain ⟨_, -, _, -, hform⟩ := hform
    split at hform <;> simp [Option.bind_eq_some_iff] at hform
  · exact hform
  · unfold entry? at hform
    simp [Option.bind_eq_some_iff] at hform
  · simp [filler?] at hform
  · simp [header?, Option.bind_eq_some_iff] at hform
  · simp [banner?] at hform

theorem withoutOffset_sublist (symbol : List Char) : (withoutOffset symbol).Sublist symbol := by
  rw [withoutOffset]
  split
  · rename_i sign rest hdrop
    split
    · have hrest : rest.Sublist symbol.reverse := by
        have hcons : rest.Sublist (symbol.reverse.dropWhile isHexDigit) := by
          rw [hdrop]
          exact (List.sublist_append_right ['x', '0', sign] rest)
        exact hcons.trans (List.dropWhile_sublist _)
      exact List.reverse_reverse symbol ▸ hrest.reverse
    · exact .refl _
  · exact .refl _

/-! ## Defective symbols -/

def operandTemplate (symbol : String) : List Char :=
  '<' :: withoutOffset symbol.toList ++ ['>']

def lastText? (run : List Instruction) : Option String :=
  run.getLast?.bind Instruction.text

theorem relocate_eq_error_iff {symbol text : List Char} {d : Template.Defect} :
    relocate symbol text = .error d ↔ Template.expand [] ('<' :: symbol ++ ['>']) = .error d := by
  simp only [relocate]
  split
  · exact Except.map_eq_error_iff
  · rw [Except.map_eq_error_iff, Template.expand_eq_error_iff]

theorem relocateLast_eq_error_iff {symbol : String} {run : List Instruction} {f : Fault} :
    relocateLast symbol run = .error f ↔ (lastText? run).isSome = true ∧
      ∃ d, Template.expand [] (operandTemplate symbol) = .error d ∧ f = .template d := by
  induction run with
  | nil => simp [relocateLast, lastText?]
  | cons i run ih =>
      cases run with
      | nil =>
          obtain ⟨address, encoded, text⟩ := i
          cases text with
          | none => simp [relocateLast, lastText?]
          | some text =>
              have hdefect (d : Template.Defect) :
                  Template.expand [] (operandTemplate symbol) = .error d ↔
                    relocate (withoutOffset symbol.toList) text.toList = .error d :=
                relocate_eq_error_iff.symm
              simp only [relocateLast, lastText?, hdefect]
              cases relocate (withoutOffset symbol.toList) text.toList with
              | error d => simp [eq_comm]
              | ok text => simp
      | cons j run =>
          rw [relocateLast, Except.map_eq_error_iff, ih]
          · simp [lastText?]
          · simp

end Listing

end LineAtlas
