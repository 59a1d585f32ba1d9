/-!
# Tables in order of first appearance

A table is a list of pairs. A key keeps the place at which it first appeared, whatever is stored under it
later, so a table can be shown in the order of the dump it was read from.
-/

namespace LineAtlas

abbrev Keyed (κ α : Type) := List (κ × α)

namespace Keyed

variable {κ α : Type} [DecidableEq κ]

def get? (t : Keyed κ α) (k : κ) : Option α :=
  match t with
  | [] => none
  | (k', a) :: rest => if k' = k then some a else get? rest k

/-- Replaces what is stored under `k` by `f` of it; a new key goes to the end. -/
def alter (t : Keyed κ α) (k : κ) (f : Option α → α) : Keyed κ α :=
  match t with
  | [] => [(k, f none)]
  | (k', a) :: rest => if k' = k then (k', f (some a)) :: rest else (k', a) :: alter rest k f

def put (t : Keyed κ α) (k : κ) (a : α) : Keyed κ α :=
  alter t k fun _ => a

def change (t : Keyed κ α) (k : κ) (f : α → α) : Keyed κ α :=
  t.map fun (k', a) => if k' = k then (k', f a) else (k', a)

def keys (t : Keyed κ α) : List κ :=
  t.map Prod.fst

/-- Applies `f` to all that is stored, in order, up to its first fault. -/
def traverse (f : α → Except ε β) (t : Keyed κ α) : Except ε (Keyed κ β) :=
  t.mapM fun (k, a) => do return (k, ← f a)

@[simp]
theorem get?_nil (k : κ) : get? ([] : Keyed κ α) k = none := rfl

theorem mem_of_get? {t : Keyed κ α} {k : κ} {a : α} (h : get? t k = some a) : (k, a) ∈ t := by
  induction t with
  | nil => cases h
  | cons p rest ih =>
    obtain ⟨j, b⟩ := p
    rw [get?] at h
    split at h
    · rename_i hj
      cases h
      simp [hj]
    · exact List.mem_cons_of_mem _ (ih h)

/-- In a table that has no key twice, what is found under a key is what is stored with it. -/
theorem get?_eq_some_iff {t : Keyed κ α} (h : (keys t).Nodup) {k : κ} {a : α} :
    get? t k = some a ↔ (k, a) ∈ t := by
  refine ⟨mem_of_get?, ?_⟩
  induction t with
  | nil => simp
  | cons p rest ih =>
    obtain ⟨j, b⟩ := p
    obtain ⟨hj, hrest⟩ := List.nodup_cons.1 h
    intro hmem
    rw [get?]
    rcases List.mem_cons.1 hmem with heq | hmem
    · cases heq
      exact if_pos rfl
    · have hne : ¬ j = k := fun e => hj (e ▸ List.mem_map.2 ⟨(k, a), hmem, rfl⟩)
      rw [if_neg hne]
      exact ih hrest hmem

theorem get?_map (t : Keyed κ α) (f : α → β) (k : κ) :
    get? (t.map fun p => (p.1, f p.2)) k = (get? t k).map f := by
  induction t with
  | nil => rfl
  | cons p rest ih =>
    obtain ⟨j, a⟩ := p
    by_cases hj : j = k <;> simp [get?, hj, ih]

theorem get?_alter (t : Keyed κ α) (k k' : κ) (f : Option α → α) :
    get? (alter t k f) k' = if k' = k then some (f (get? t k)) else get? t k' := by
  induction t with
  | nil => simp only [alter, get?, eq_comm (a := k)]
  | cons p rest ih =>
    obtain ⟨j, a⟩ := p
    by_cases hj : j = k
    · by_cases h : k' = k
      · simp [alter, get?, hj, h]
      · have : ¬ k = k' := fun e => h e.symm
        simp [alter, get?, hj, h, this]
    · by_cases h : k' = k
      · subst h; simp [alter, get?, hj, ih]
      · simp [alter, get?, hj, ih, h]

theorem keys_alter (t : Keyed κ α) (k : κ) (f : Option α → α) :
    keys (alter t k f) = if k ∈ keys t then keys t else keys t ++ [k] := by
  induction t with
  | nil => simp [alter, keys]
  | cons p rest ih =>
    obtain ⟨j, a⟩ := p
    by_cases hj : j = k
    · simp [alter, keys, hj]
    · have hk : ¬ k = j := fun e => hj e.symm
      simp only [keys] at ih
      by_cases hm : k ∈ rest.map Prod.fst <;> simp_all [alter, keys]

end Keyed

end LineAtlas
