import LineAtlas.Text.Identifier
import LineAtlas.Text.Integer

/-!
# Replacement templates

A template is the text put in the place of a match. A backslash in it starts an escape: a control
character, an octal code, or the number of the group of the match to insert. Patterns here have no
groups but the match itself, number 0, so every other number is malformed and every name unknown.
-/

namespace LineAtlas.Text.Template

def control? : Char → Option Char
  | 'a' => some '\x07'
  | 'b' => some '\x08'
  | 'f' => some '\x0c'
  | 'n' => some '\n'
  | 'r' => some '\r'
  | 't' => some '\t'
  | 'v' => some '\x0b'
  | '\\' => some '\\'
  | _ => none

/-- What a backslash and a character stand for by themselves: a control character, or just these two. A
digit counts with what follows it, and no other letter has a meaning. -/
def plain? (c : Char) : Option (List Char) :=
  match control? c with
  | some d => some [d]
  | none => if c.isDigit || c.isAlpha then none else some ['\\', c]

def octalTail (cs : List Char) : Char × List Char :=
  match cs with
  | [] => (Char.ofNat 0, [])
  | a :: cs =>
    match octalValue? a, cs with
    | none, _ => (Char.ofNat 0, a :: cs)
    | some x, [] => (Char.ofNat x, [])
    | some x, b :: rest =>
      match octalValue? b with
      | none => (Char.ofNat x, b :: rest)
      | some y => (Char.ofNat (8 * x + y), rest)

theorem length_octalTail_le (cs : List Char) : (octalTail cs).2.length ≤ cs.length := by
  unfold octalTail
  split
  · simp
  · split
    · simp
    · simp
    · split <;> simp only [List.length_cons] <;> omega

/-- Three octal digits of which the first was `a`; codes above 255 are malformed. -/
def octal? (a : Char) (cs : List Char) : Option (Char × List Char) :=
  match cs with
  | b :: c :: rest => do
    let code := 64 * (← octalValue? a) + 8 * (← octalValue? b) + (← octalValue? c)
    if code ≤ 255 then some (Char.ofNat code, rest) else none
  | _ => none

theorem length_lt_of_octal? {a : Char} {cs : List Char} {r : Char × List Char}
    (h : octal? a cs = some r) : r.2.length < cs.length := by
  unfold octal? at h
  split at h
  · simp only [Option.bind_eq_bind, Option.bind_eq_some_iff] at h
    obtain ⟨x, -, y, -, z, -, h⟩ := h
    split at h <;> simp at h
    subst h
    simp only [List.length_cons]
    omega
  · simp at h

def groupName? (cs : List Char) : Option (List Char × List Char) :=
  match cs with
  | '<' :: cs =>
    match cs.dropWhile (· != '>') with
    | _ :: rest => some (cs.takeWhile (· != '>'), rest)
    | [] => none
  | _ => none

theorem length_lt_of_groupName? {cs name rest : List Char} (h : groupName? cs = some (name, rest)) :
    rest.length < cs.length := by
  unfold groupName? at h
  split at h
  · split at h
    · rename_i cs _ _ tail htail
      have hle := (List.dropWhile_sublist (l := cs) (· != '>')).length_le
      simp only [Option.some.injEq, Prod.mk.injEq] at h
      obtain ⟨-, rfl⟩ := h
      simp only [htail, List.length_cons] at hle ⊢
      omega
    · simp at h
  · simp at h

/-- Why a template stands for no text. A well formed name that no group has is told apart. -/
inductive Defect
  | malformed
  | unknownGroup (name : String)
  deriving DecidableEq, Repr

def groupDefect? (name : List Char) : Option Defect :=
  if isIdentifier name then some (.unknownGroup (String.ofList name))
  else if Integer.read? name = some 0 then none
  else some .malformed

/-- The text that `template` stands for where `found` was matched. The first defect counts. -/
def expand (found : List Char) (template : List Char) : Except Defect (List Char) :=
  match template with
  | [] => .ok []
  | '\\' :: [] => .error .malformed
  | '\\' :: 'g' :: cs =>
    match h : groupName? cs with
    | none => .error .malformed
    | some (name, rest) =>
      have := length_lt_of_groupName? h
      match groupDefect? name with
      | some d => .error d
      | none => (expand found rest).map (found ++ ·)
  | '\\' :: '0' :: cs =>
    have := length_octalTail_le cs
    (expand found (octalTail cs).2).map ((octalTail cs).1 :: ·)
  | '\\' :: c :: cs =>
    match plain? c with
    | some text => (expand found cs).map (text ++ ·)
    | none =>
      if c.isDigit then
        match h : octal? c cs with
        | some r =>
          have := length_lt_of_octal? h
          (expand found r.2).map (r.1 :: ·)
        | none => .error .malformed
      else .error .malformed
  | c :: cs => (expand found cs).map (c :: ·)
termination_by template.length

/-- A template without a backslash stands for itself. -/
theorem expand_of_not_mem (found : List Char) {template : List Char} (h : '\\' ∉ template) :
    expand found template = .ok template := by
  induction template with
  | nil => simp [expand]
  | cons c cs ih =>
    simp only [List.mem_cons, not_or] at h
    have hc : c ≠ '\\' := Ne.symm h.1
    rw [expand.eq_def]
    split <;> simp_all [Except.map]

end LineAtlas.Text.Template
