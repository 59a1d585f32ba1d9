import LineAtlas.Keyed
import Mathlib.Data.List.Induction
import Mathlib.Data.List.Nodup
import Mathlib.Logic.Function.Basic

/-!
# Tables given by their keys

A table with the given keys in which a function tells what is stored under each. A new key goes to the
end, and what is stored changes where the function changes.
-/

namespace LineAtlas

variable {κ α : Type} [DecidableEq κ]

/-- The keys in order of first appearance, after one more. -/
theorem eraseDups_concat (ks : List κ) (k : κ) :
    (ks ++ [k]).eraseDups = if k ∈ ks.eraseDups then ks.eraseDups else ks.eraseDups ++ [k] := by
  rw [List.eraseDups_append]
  by_cases hk : k ∈ ks
  · have hnone : [k].removeAll ks = [] := by
      simp [List.removeAll, hk]
    rw [if_pos (List.mem_eraseDups.2 hk), hnone, List.eraseDups_nil, List.append_nil]
  · have hone : [k].removeAll ks = [k] := by
      simp [List.removeAll, hk]
    rw [if_neg (mt List.mem_eraseDups.1 hk), hone, List.eraseDups_cons, List.filter_nil,
      List.eraseDups_nil]

theorem eraseDups_filter (f : κ → Bool) (ks : List κ) :
    (ks.filter f).eraseDups = ks.eraseDups.filter f := by
  induction ks generalizing f with
  | nil => simp
  | cons k ks ih =>
      rw [List.eraseDups_cons, ih]
      cases hf : f k with
      | true =>
          rw [List.filter_cons_of_pos hf, List.filter_cons_of_pos hf, List.eraseDups_cons,
            List.filter_filter, ih, List.filter_filter]
          simp only [Bool.and_comm]
      | false =>
          rw [List.filter_cons_of_neg (by simp [hf]), List.filter_cons_of_neg (by simp [hf]), ih,
            List.filter_filter]
          apply List.filter_congr
          intro j _
          by_cases hj : j = k <;> simp [hj, hf]

theorem nodup_eraseDups (ks : List κ) : ks.eraseDups.Nodup := by
  induction ks with
  | nil => simp
  | cons k ks ih =>
      rw [List.eraseDups_cons, eraseDups_filter, List.nodup_cons]
      exact ⟨by simp, ih.filter _⟩

/-- Sorting leads to the only order in which numbers increase. -/
theorem mergeSort_eq_of_perm {xs ys : List Int} (h : xs.Perm ys) (hys : ys.Pairwise (· < ·)) :
    xs.mergeSort (· ≤ ·) = ys := by
  have hsorted : (xs.mergeSort (· ≤ ·)).Pairwise fun a b => decide (a ≤ b) = true :=
    List.pairwise_mergeSort (by simpa using fun a b c => Int.le_trans)
      (by simpa using fun a b => Int.le_total a b) xs
  have hincrease : ys.Pairwise (· ≤ ·) := hys.imp fun hlt => Int.le_of_lt hlt
  apply ((List.mergeSort_perm _ _).trans h).eq_of_pairwise _ _ hincrease
  · exact fun a b _ _ hab hba => Int.le_antisymm hab hba
  · exact hsorted.imp fun hle => of_decide_eq_true hle

namespace Keyed

theorem get?_eq_none {t : Keyed κ α} {k : κ} (h : k ∉ keys t) : get? t k = none := by
  by_contra hsome
  obtain ⟨a, ha⟩ := Option.ne_none_iff_exists'.1 hsome
  exact h (List.mem_map.2 ⟨(k, a), mem_of_get? ha, rfl⟩)

/-- The keys of a table are looked up one after the other. -/
theorem mapM_get? {t rows : Keyed κ α} (h : ∀ row ∈ rows, get? t row.1 = some row.2) :
    (keys rows).mapM (fun k => (get? t k).map fun a => (k, a)) = some rows := by
  induction rows with
  | nil => rfl
  | cons row rows ih =>
      obtain ⟨hrow, hrows⟩ := List.forall_mem_cons.1 h
      rw [keys] at ih
      rw [keys, List.map_cons, List.mapM_cons, hrow, ih hrows]
      rfl

def tabulate (ks : List κ) (f : κ → α) : Keyed κ α :=
  ks.map fun k => (k, f k)

omit [DecidableEq κ] in
theorem keys_tabulate (ks : List κ) (f : κ → α) : keys (tabulate ks f) = ks := by
  simp [keys, tabulate, Function.comp_def]

theorem get?_tabulate (ks : List κ) (f : κ → α) (k : κ) :
    get? (tabulate ks f) k = if k ∈ ks then some (f k) else none := by
  induction ks with
  | nil => rfl
  | cons j ks ih =>
      rw [tabulate] at ih
      rw [tabulate, List.map_cons, get?, ih]
      by_cases hj : j = k
      · simp [hj]
      · simp [hj, Ne.symm hj]

/-- The same where the function leaves some of the keys out. -/
theorem get?_filterMap_keys (ks : List κ) (f : κ → Option α) {k : κ} (hk : k ∈ ks) :
    get? (ks.filterMap fun k => (f k).map fun a => (k, a)) k = f k := by
  have hout (ks : List κ) (hnone : f k = none) :
      get? (ks.filterMap fun k => (f k).map fun a => (k, a)) k = none := by
    induction ks with
    | nil => rfl
    | cons j ks ih =>
        cases hj : f j with
        | none => simpa [hj] using ih
        | some a =>
            have hne : ¬ j = k := by
              rintro rfl
              simp [hnone] at hj
            simpa [hj, get?, hne] using ih
  induction ks with
  | nil => cases hk
  | cons j ks ih =>
      by_cases hj : j = k
      · subst hj
        cases hf : f j with
        | none => exact hout (j :: ks) hf
        | some a => simp [hf, get?]
      · have hrest := ih ((List.mem_cons.1 hk).resolve_left (Ne.symm hj))
        cases hf : f j with
        | none => simpa [hf] using hrest
        | some a => simpa [hf, get?, hj] using hrest

/-- A key is given what the function tells of it, in its place or at the end. -/
theorem alter_tabulate {ks : List κ} {f : κ → α} {k : κ} {d : α} (hnew : k ∉ ks → f k = d) :
    alter (tabulate ks f) k (·.getD d) = tabulate (if k ∈ ks then ks else ks ++ [k]) f := by
  induction ks with
  | nil =>
      have hd : f k = d := hnew (by simp)
      simp [alter, tabulate, hd]
  | cons j ks ih =>
      rw [tabulate] at ih
      rw [tabulate, List.map_cons, alter]
      by_cases hj : j = k
      · simp [hj, tabulate]
      · have hk : ¬ k = j := Ne.symm hj
        have hrest := ih (fun hmem => hnew (by simp [hk, hmem]))
        rw [if_neg hj, hrest]
        by_cases hmem : k ∈ ks <;> simp [hk, hmem, tabulate]

theorem put_tabulate (ks : List κ) (f : κ → α) (k : κ) :
    put (tabulate ks f) k (f k) = tabulate (if k ∈ ks then ks else ks ++ [k]) f := by
  rw [put]
  induction ks with
  | nil => rfl
  | cons j ks ih =>
      rw [tabulate] at ih
      rw [tabulate, List.map_cons, alter]
      by_cases hj : j = k
      · simp [hj, tabulate]
      · rw [if_neg hj, ih]
        by_cases hk : k ∈ ks <;> simp [hk, Ne.symm hj, tabulate]

/-- Only what is stored under the key changes, in its place or at the end. -/
theorem alter_tabulate_of_nodup {ks : List κ} {f f' : κ → α} {k : κ} {g : Option α → α} (hks : ks.Nodup)
    (hk : f' k = g (if k ∈ ks then some (f k) else none)) (hother : ∀ j, j ≠ k → f' j = f j) :
    alter (tabulate ks f) k g = tabulate (if k ∈ ks then ks else ks ++ [k]) f' := by
  have hsame {ks : List κ} (hout : k ∉ ks) : tabulate ks f = tabulate ks f' := by
    apply List.map_congr_left
    intro j hj
    rw [hother j fun heq => hout (heq ▸ hj)]
  induction ks with
  | nil => simp [alter, tabulate, hk]
  | cons j ks ih =>
      obtain ⟨hj, hrest⟩ := List.nodup_cons.1 hks
      rw [tabulate, List.map_cons, alter]
      by_cases heq : j = k
      · subst heq
        have htail := hsame hj
        simp_all [tabulate]
      · have hne : k ≠ j := Ne.symm heq
        have htail := ih hrest (by simpa [hne] using hk)
        rw [tabulate] at htail
        rw [if_neg heq, htail]
        by_cases hmem : k ∈ ks <;> simp [hmem, hne, tabulate, hother j heq]

theorem put_of_not_mem {t : Keyed κ α} {k : κ} (h : k ∉ keys t) (a : α) : put t k a = t ++ [(k, a)] := by
  rw [put]
  induction t with
  | nil => rfl
  | cons p rest ih =>
      obtain ⟨j, b⟩ := p
      obtain ⟨hk, hrest⟩ := not_or.1 (mt List.mem_cons.2 h)
      rw [alter, if_neg (Ne.symm hk), ih hrest]
      rfl

theorem nodup_keys_alter {t : Keyed κ α} (h : (keys t).Nodup) (k : κ) (f : Option α → α) :
    (keys (alter t k f)).Nodup := by
  rw [keys_alter]
  split
  · exact h
  · rename_i hnew
    exact List.nodup_append.2 ⟨h, List.nodup_singleton _, by grind⟩

theorem keys_change (t : Keyed κ α) (k : κ) (f : α → α) : keys (change t k f) = keys t := by
  rw [keys, keys, change, List.map_map]
  apply List.map_congr_left
  rintro ⟨j, a⟩ _
  by_cases hj : j = k <;> simp [hj]

theorem get?_change (t : Keyed κ α) (k k' : κ) (f : α → α) :
    get? (change t k f) k' = if k' = k then (get? t k').map f else get? t k' := by
  induction t with
  | nil => simp [change]
  | cons p rest ih =>
      obtain ⟨j, a⟩ := p
      rw [change] at ih
      rw [change, List.map_cons]
      by_cases hj : j = k
      · by_cases hk : k' = k
        · simp [get?, hj, hk]
        · simp [get?, hj, hk, Ne.symm hk, ih]
      · by_cases hk : j = k'
        · have hne : ¬ k' = k := fun e => hj (hk.trans e)
          simp [get?, hk, hne]
        · simp [get?, hj, hk, ih]

theorem mem_change {t : Keyed κ α} {k j : κ} {f : α → α} {b : α} (h : (j, b) ∈ change t k f) :
    (j, b) ∈ t ∨ ∃ a, (j, a) ∈ t ∧ b = f a := by
  obtain ⟨⟨i, a⟩, hmem, heq⟩ := List.mem_map.1 h
  dsimp only at heq
  split at heq
  · cases heq
    exact .inr ⟨a, hmem, rfl⟩
  · cases heq
    exact .inl hmem

theorem mem_alter_getD {t : Keyed κ α} {k j : κ} {d b : α} (h : (j, b) ∈ alter t k (·.getD d)) :
    (j, b) ∈ t ∨ b = d := by
  induction t with
  | nil =>
      cases List.mem_singleton.1 h
      exact .inr rfl
  | cons p rest ih =>
      obtain ⟨i, a⟩ := p
      rw [alter] at h
      split at h
      · exact .inl h
      · rcases List.mem_cons.1 h with heq | h
        · exact .inl (heq ▸ List.mem_cons_self)
        · exact (ih h).imp_left (List.mem_cons_of_mem _)

/-- What was just stored is changed where it was stored. -/
theorem change_put {t : Keyed κ α} (h : (keys t).Nodup) (k : κ) (a : α) (f : α → α) :
    change (put t k a) k f = put t k (f a) := by
  have hsame {t : Keyed κ α} (hk : k ∉ keys t) : change t k f = t := by
    rw [change, List.map_congr_left, List.map_id]
    rintro ⟨j, b⟩ hmem
    have hne : j ≠ k := fun heq => hk (List.mem_map.2 ⟨(j, b), hmem, heq⟩)
    simp [hne]
  induction t with
  | nil => simp [put, alter, change]
  | cons p rest ih =>
      obtain ⟨j, b⟩ := p
      obtain ⟨hj, hrest⟩ := List.nodup_cons.1 h
      by_cases heq : j = k
      · subst heq
        have htail := hsame hj
        rw [change] at htail
        simp [put, alter, change, htail]
      · have htail := ih hrest
        rw [put, change] at htail
        simp [put, alter, change, heq, htail]

theorem change_tabulate (ks : List κ) (f : κ → α) (k : κ) (g : α → α) :
    change (tabulate ks f) k g = tabulate ks (Function.update f k (g (f k))) := by
  rw [change, tabulate, tabulate, List.map_map]
  apply List.map_congr_left
  intro j _
  by_cases hj : j = k
  · subst hj
    simp
  · simp [hj]

/-! ## Filling a table -/

/-- With one more item at the end, the last item of some kind is that one, or it is of another kind and
the last was there before. The kind may depend on the items before. -/
theorem last_concat_iff {β : Type} {xs : List β} {x : β} {P : List β → β → Prop} {Q : β → Prop} :
    (∃ before y after, xs ++ [x] = before ++ y :: after ∧ P before y ∧ ∀ z ∈ after, Q z) ↔
      P xs x ∨ Q x ∧ ∃ before y after, xs = before ++ y :: after ∧ P before y ∧ ∀ z ∈ after, Q z := by
  constructor
  · rintro ⟨before, y, after, hxs, hy, hafter⟩
    rcases List.eq_nil_or_concat after with rfl | ⟨after, z, rfl⟩
    · obtain ⟨rfl, hx⟩ := List.append_inj' hxs rfl
      exact .inl (List.singleton_inj.1 hx ▸ hy)
    · rw [List.concat_eq_append, ← List.cons_append, ← List.append_assoc] at hxs
      obtain ⟨rfl, hx⟩ := List.append_inj' hxs rfl
      obtain rfl := List.singleton_inj.1 hx
      refine .inr ⟨hafter x (by simp), before, y, after, rfl, hy, ?_⟩
      exact fun w hw => hafter w (by simp [hw])
  · rintro (hx | ⟨hx, before, y, after, rfl, hy, hafter⟩)
    · exact ⟨xs, x, [], rfl, hx, by simp⟩
    · refine ⟨before, y, after ++ [x], by simp, hy, ?_⟩
      intro z hz
      rcases List.mem_append.1 hz with hz | hz
      · exact hafter z hz
      · exact List.mem_singleton.1 hz ▸ hx

/-- Fills a table with what `f` makes of each item; the last counts. -/
def collect {β : Type} (f : β → Option (κ × α)) (xs : List β) : Keyed κ α :=
  xs.foldl (fun t x =>
    match f x with
    | some (k, a) => put t k a
    | none => t) []

section

variable {β : Type} (f : β → Option (κ × α))

theorem collect_concat (xs : List β) (x : β) : collect f (xs ++ [x]) =
    match f x with
    | some (k, a) => put (collect f xs) k a
    | none => collect f xs := by
  rw [collect, List.foldl_concat]
  rfl

theorem nodup_keys_collect (xs : List β) : (keys (collect f xs)).Nodup := by
  induction xs using List.reverseRecOn with
  | nil => exact .nil
  | append_singleton xs x ih =>
      rw [collect_concat]
      split
      · exact nodup_keys_alter ih _ _
      · exact ih

/-- The keys come in the order of the first items that have something for them. -/
theorem keys_collect (xs : List β) :
    keys (collect f xs) = (xs.filterMap fun x => (f x).map Prod.fst).eraseDups := by
  induction xs using List.reverseRecOn with
  | nil => rfl
  | append_singleton xs x ih =>
      rw [collect_concat, List.filterMap_append]
      cases hx : f x with
      | none => simp [hx, ih]
      | some found =>
          change keys (put (collect f xs) found.1 found.2) = _
          rw [put, keys_alter, ih, List.filterMap_cons, hx]
          exact (eraseDups_concat _ _).symm

/-- What is found under a key comes from the last item that has something for it. -/
theorem get?_collect_eq_some_iff {xs : List β} {k : κ} {a : α} :
    get? (collect f xs) k = some a ↔ ∃ before x after, xs = before ++ x :: after ∧
      f x = some (k, a) ∧ ∀ y ∈ after, ∀ b, f y ≠ some (k, b) := by
  induction xs using List.reverseRecOn generalizing a with
  | nil => simp [collect]
  | append_singleton xs x ih =>
      rw [last_concat_iff, ← ih, collect_concat]
      cases hx : f x with
      | none => simp
      | some found =>
          obtain ⟨k', a'⟩ := found
          change get? (put (collect f xs) k' a') k = some a ↔ _
          rw [put, get?_alter]
          by_cases hk : k = k'
          · subst hk
            simp
          · simp [hk, Ne.symm hk]

theorem get?_collect_eq_none_iff {xs : List β} {k : κ} :
    get? (collect f xs) k = none ↔ ∀ x ∈ xs, ∀ a, f x ≠ some (k, a) := by
  induction xs using List.reverseRecOn with
  | nil => simp [collect]
  | append_singleton xs x ih =>
      rw [List.forall_mem_append, List.forall_mem_singleton, ← ih, collect_concat]
      cases hx : f x with
      | none => simp
      | some found =>
          obtain ⟨k', a'⟩ := found
          change get? (put (collect f xs) k' a') k = none ↔ _
          rw [put, get?_alter]
          by_cases hk : k = k'
          · simp [hk]
          · simp [hk, Ne.symm hk]

theorem collect_map {γ : Type} (g : γ → β) (xs : List γ) :
    collect f (xs.map g) = collect (f ∘ g) xs :=
  List.foldl_map

/-- Filling a table with what a function tells of the keys that are kept. -/
theorem collect_eq_tabulate (g : κ → α) (keep : κ → Bool) (ks : List κ) :
    collect (fun k => if keep k then some (k, g k) else none) ks =
      tabulate (ks.filter keep).eraseDups g := by
  induction ks using List.reverseRecOn with
  | nil => rfl
  | append_singleton ks k ih =>
      rw [collect_concat, ih, List.filter_append]
      cases hk : keep k with
      | false => simp [hk]
      | true =>
          rw [List.filter_cons_of_pos hk, List.filter_nil, eraseDups_concat, if_pos rfl]
          exact put_tabulate _ g k

end

/-- In a table that has no key twice, changing or leaving out what is stored does so for the one that
is found. -/
theorem get?_filterMap {β : Type} {t : Keyed κ α} (h : (keys t).Nodup) (g : α → Option β) (k : κ) :
    get? (t.filterMap fun p => (g p.2).map fun b => (p.1, b)) k = (get? t k).bind g := by
  induction t with
  | nil => rfl
  | cons p rest ih =>
      obtain ⟨j, a⟩ := p
      obtain ⟨hj, hrest⟩ := List.nodup_cons.1 h
      have htail := ih hrest
      rw [get?]
      by_cases hk : j = k
      · subst hk
        rw [get?_eq_none hj] at htail
        cases hg : g a with
        | none => simpa [hg] using htail
        | some b => simp [hg, get?]
      · cases hg : g a with
        | none => simpa [hg, hk] using htail
        | some b => simpa [hg, hk, get?] using htail

end Keyed

end LineAtlas
