import LineAtlas.Proofs.Text.Scan

/-!
# Searching a line

What is searched for is found at the first place where it stands, and a mark is looked for from the end. A mark
whose first character does not come again in it, nor in what follows it, has one place only.
-/

namespace LineAtlas.Text

variable {α : Type}

/-- After `front` stands `a`, and nothing of the kind stands at a place before. -/
def FirstAt (P : List Char → α → Prop) (cs front : List Char) (a : α) : Prop :=
  ∃ rest, cs = front ++ rest ∧ P rest a ∧
    ∀ front' rest', cs = front' ++ rest' → front'.length < front.length → ∀ b, ¬ P rest' b

def FirstIn (P : List Char → α → Prop) (cs : List Char) (a : α) : Prop :=
  ∃ front, FirstAt P cs front a

section

variable {P : List Char → α → Prop}

theorem firstAt_nil_iff {cs : List Char} {a : α} : FirstAt P cs [] a ↔ P cs a := by
  simp [FirstAt]

theorem firstAt_cons_iff {c d : Char} {cs front : List Char} {a : α} :
    FirstAt P (c :: cs) (d :: front) a ↔ d = c ∧ (∀ b, ¬ P (c :: cs) b) ∧ FirstAt P cs front a := by
  constructor
  · rintro ⟨rest, hcs, ha, hbefore⟩
    obtain ⟨rfl, rfl⟩ := List.cons.inj hcs
    refine ⟨rfl, hbefore [] _ rfl (by simp), rest, rfl, ha, ?_⟩
    intro front' rest' hrest hlt
    exact hbefore (c :: front') rest' (by rw [hrest]; rfl) (by simpa using hlt)
  · rintro ⟨rfl, hhere, rest, rfl, ha, hbefore⟩
    refine ⟨rest, rfl, ha, ?_⟩
    intro front' rest' hrest hlt
    cases front' with
    | nil =>
        rw [← show d :: (front ++ rest) = rest' from hrest]
        exact hhere
    | cons c front' =>
        obtain ⟨-, hrest'⟩ := List.cons.inj hrest
        exact hbefore front' rest' hrest' (by simpa using hlt)

theorem firstIn_nil_iff {a : α} : FirstIn P [] a ↔ P [] a := by
  constructor
  · rintro ⟨front, rest, hcs, ha, -⟩
    obtain ⟨rfl, rfl⟩ := List.append_eq_nil_iff.1 hcs.symm
    exact ha
  · exact fun ha => ⟨[], firstAt_nil_iff.2 ha⟩

theorem firstIn_cons_iff {c : Char} {cs : List Char} {a : α} :
    FirstIn P (c :: cs) a ↔ P (c :: cs) a ∨ (∀ b, ¬ P (c :: cs) b) ∧ FirstIn P cs a := by
  constructor
  · rintro ⟨front, hfront⟩
    cases front with
    | nil => exact .inl (firstAt_nil_iff.1 hfront)
    | cons d front =>
        obtain ⟨-, hhere, hfront⟩ := firstAt_cons_iff.1 hfront
        exact .inr ⟨hhere, front, hfront⟩
  · rintro (ha | ⟨hhere, front, hfront⟩)
    · exact ⟨[], firstAt_nil_iff.2 ha⟩
    · exact ⟨c :: front, firstAt_cons_iff.2 ⟨rfl, hhere, hfront⟩⟩

variable {f : List Char → Option α} (hf : ∀ cs a, f cs = some a ↔ P cs a)
include hf

theorem eq_none_iff_of_some_iff (cs : List Char) : f cs = none ↔ ∀ a, ¬ P cs a := by
  simp only [← hf, Option.eq_none_iff_forall_ne_some]

/-- A search answers with the first that is found. -/
theorem search?_eq_some_iff {cs : List Char} {a : α} : search? f cs = some a ↔ FirstIn P cs a := by
  induction cs with
  | nil => rw [search?, hf, firstIn_nil_iff]
  | cons c cs ih =>
      rw [firstIn_cons_iff, search?, ← hf, ← eq_none_iff_of_some_iff hf, ← ih]
      cases f (c :: cs) <;> simp

end

/-! ## Places of a mark -/

/-- Everything of the kind begins with a character that does not come again in it. -/
def Marked (c : Char) (P : List Char → α → Prop) : Prop :=
  ∀ rest a, P rest a → ∃ tail, rest = c :: tail ∧ c ∉ tail

theorem eq_of_suffix_of_not_mem {c : Char} {front front' tail tail' : List Char} (htail : c ∉ tail)
    (htail' : c ∉ tail') (h : front ++ c :: tail = front' ++ c :: tail') : tail = tail' := by
  rcases List.append_eq_append_iff.1 h with ⟨mid, -, hmid⟩ | ⟨mid, -, hmid⟩
  · cases mid with
    | nil => exact (List.cons.inj hmid).2
    | cons d mid =>
        obtain ⟨-, rfl⟩ := List.cons.inj hmid
        simp at htail
  · cases mid with
    | nil => exact (List.cons.inj hmid).2.symm
    | cons d mid =>
        obtain ⟨-, rfl⟩ := List.cons.inj hmid
        simp at htail'

theorem Marked.eq {β : Type} {c : Char} {P : List Char → α → Prop} {Q : List Char → β → Prop} (hP : Marked c P)
    (hQ : Marked c Q) {front front' rest rest' : List Char} {a : α} {b : β} (ha : P rest a) (hb : Q rest' b)
    (h : front ++ rest = front' ++ rest') : rest = rest' := by
  obtain ⟨tail, rfl, htail⟩ := hP rest a ha
  obtain ⟨tail', rfl, htail'⟩ := hQ rest' b hb
  rw [eq_of_suffix_of_not_mem htail htail' h]

/-- What has one place only is the first at its place. -/
theorem Marked.firstIn_iff {c : Char} {P : List Char → α → Prop} (hP : Marked c P) {cs : List Char} {a : α} :
    FirstIn P cs a ↔ ∃ front rest, cs = front ++ rest ∧ P rest a := by
  constructor
  · rintro ⟨front, rest, hcs, ha, -⟩
    exact ⟨front, rest, hcs, ha⟩
  · rintro ⟨front, rest, rfl, ha⟩
    refine ⟨front, rest, rfl, ha, ?_⟩
    intro front' rest' hrest hlt b hb
    obtain rfl := hP.eq hP ha hb hrest
    have hlength := congrArg List.length hrest
    simp only [List.length_append] at hlength
    omega

/-! ## Parts of a line -/

theorem run?_eq_some_iff {p : Char → Bool} {cs ds rest : List Char} : run? p cs = some (ds, rest) ↔
    cs = ds ++ rest ∧ ds ≠ [] ∧ (∀ c ∈ ds, p c = true) ∧ rest.head?.any p = false := by
  constructor
  · exact run?_eq_some
  · rintro ⟨rfl, hne, hall, hrest⟩
    exact run?_append hall hne hrest

theorem before?_eq_some_iff {lit : String} {cs front : List Char} :
    before? lit cs = some front ↔ cs = front ++ lit.toList := by
  constructor
  · intro h
    obtain ⟨back, hback, rfl⟩ := Option.map_eq_some_iff.1 h
    rw [← List.reverse_reverse cs, after?_eq_some_iff.1 hback]
    simp
  · rintro rfl
    exact before?_append lit front

theorem oneLine?_eq_some_iff {cs : List Char} {s : String} :
    oneLine? cs = some s ↔ '\n' ∉ cs ∧ s = String.ofList cs := by
  rw [oneLine?]
  split
  · rename_i h
    simp [h]
  · rename_i h
    simp [h, eq_comm]

/-- Blanks at the front are dropped no further than to a character that is none. -/
theorem dropBlanks_append_cons {c : Char} (hc : isBlank c = false) (front back : List Char) :
    dropBlanks (front ++ c :: back) = dropBlanks front ++ c :: back := by
  induction front with
  | nil => simp [dropBlanks, hc]
  | cons d front ih =>
      simp only [dropBlanks] at ih
      cases hd : isBlank d <;> simp [dropBlanks, hd, ih]

theorem exists_dropBlanks (cs : List Char) :
    ∃ gap, (∀ c ∈ gap, isBlank c = true) ∧ cs = gap ++ dropBlanks cs :=
  ⟨cs.takeWhile isBlank, List.all_eq_true.1 List.all_takeWhile, List.takeWhile_append_dropWhile.symm⟩

/-! ## The last place of a mark -/

theorem after?_eq_none_iff {lit cs : List Char} : after? lit cs = none ↔ ¬ lit <+: cs := by
  simp only [Option.eq_none_iff_forall_ne_some, ne_eq, after?_eq_some_iff, List.IsPrefix, not_exists]
  exact forall_congr' fun rest => not_congr eq_comm

theorem afterLast?_eq_none_iff {l : Char} {lit cs : List Char} :
    afterLast? (l :: lit) cs = none ↔ ¬ (l :: lit) <:+: cs := by
  induction cs with
  | nil => simp [afterLast?, after?]
  | cons c cs ih =>
      rw [afterLast?, List.infix_cons_iff]
      cases hlast : afterLast? (l :: lit) cs with
      | some rest =>
          have hwithin : (l :: lit) <:+: cs := by
            by_contra hnot
            rw [ih.2 hnot] at hlast
            cases hlast
          simp [hwithin]
      | none => simp [ih.1 hlast, after?_eq_none_iff]

theorem infix_of_append {l : Char} {lit front rest : List Char} (hl : l ∉ front)
    (h : (l :: lit) <:+: front ++ rest) : (l :: lit) <:+: rest := by
  induction front with
  | nil => exact h
  | cons c front ih =>
      obtain ⟨hne, hfront⟩ := not_or.1 (mt List.mem_cons.2 hl)
      rcases List.infix_cons_iff.1 h with hstart | hwithin
      · exact absurd (List.cons_prefix_cons.1 hstart).1 hne
      · exact ih hfront hwithin

/-- The first character of the mark does not come again in it, so no later place overlaps. -/
theorem afterLast?_eq_some_iff {l : Char} {lit cs rest : List Char} (hl : l ∉ lit) :
    afterLast? (l :: lit) cs = some rest ↔
      (∃ front, cs = front ++ (l :: lit ++ rest)) ∧ ¬ (l :: lit) <:+: rest := by
  induction cs with
  | nil => simp [afterLast?, after?]
  | cons c cs ih =>
      rw [afterLast?]
      cases hlast : afterLast? (l :: lit) cs with
      | some found =>
          rw [hlast] at ih
          rw [ih]
          constructor
          · rintro ⟨⟨front, rfl⟩, hrest⟩
            exact ⟨⟨c :: front, rfl⟩, hrest⟩
          · rintro ⟨⟨front, hcs⟩, hrest⟩
            refine ⟨?_, hrest⟩
            cases front with
            | nil =>
                have hcs : cs = lit ++ rest := (List.cons.inj hcs).2
                have hnone : ¬ (l :: lit) <:+: cs := fun hwithin => hrest (infix_of_append hl (hcs ▸ hwithin))
                rw [afterLast?_eq_none_iff.2 hnone] at hlast
                cases hlast
            | cons d front => exact ⟨front, (List.cons.inj hcs).2⟩
      | none =>
          have hnone := afterLast?_eq_none_iff.1 hlast
          simp only [after?_eq_some_iff]
          constructor
          · intro hcs
            obtain ⟨-, rfl⟩ := List.cons.inj hcs
            exact ⟨⟨[], hcs⟩, fun hwithin => hnone (hwithin.trans (List.suffix_append _ _).isInfix)⟩
          · rintro ⟨⟨front, hcs⟩, -⟩
            cases front with
            | nil => exact hcs
            | cons d front =>
                obtain ⟨-, rfl⟩ := List.cons.inj hcs
                exact absurd ((List.prefix_append _ _).isInfix.trans (List.suffix_append _ _).isInfix) hnone

end LineAtlas.Text
