import LineAtlas.Proofs.Keyed
import Mathlib.Data.List.Forall2

/-!
# Lists of what may be at fault

A list is traversed with a computation that may be at fault. It succeeds when the computation succeeds for
every item. Where only one fault can arise, the traversal is at fault when some item is, wherever that
item stands.
-/

namespace LineAtlas

variable {α β ε κ : Type}

theorem Except.ok_bind (a : α) (f : α → Except ε β) : (Except.ok a >>= f) = f a := rfl

theorem Except.bind_return (x : Except ε α) (f : α → β) : (do return f (← x)) = x.map f := by
  cases x <;> rfl

theorem Except.bind_eq_ok_iff {x : Except ε α} {f : α → Except ε β} {b : β} :
    (x >>= f) = .ok b ↔ ∃ a, x = .ok a ∧ f a = .ok b := by
  cases x with
  | error e => simp [bind, Except.bind]
  | ok a => simp [bind, Except.bind]

theorem Except.bind_eq_error_iff {x : Except ε α} {f : α → Except ε β} {e : ε} :
    (x >>= f) = .error e ↔ x = .error e ∨ ∃ a, x = .ok a ∧ f a = .error e := by
  cases x with
  | error e' => simp [bind, Except.bind]
  | ok a => simp [bind, Except.bind]

theorem Except.map_eq_ok_iff {x : Except ε α} {f : α → β} {b : β} :
    x.map f = .ok b ↔ ∃ a, x = .ok a ∧ f a = b := by
  cases x with
  | error e => simp [Except.map]
  | ok a => simp [Except.map]

theorem Except.map_eq_error_iff {x : Except ε α} {f : α → β} {e : ε} :
    x.map f = .error e ↔ x = .error e := by
  cases x with
  | error e' => simp [Except.map]
  | ok a => simp [Except.map]

theorem mapM_eq_ok_iff {f : α → Except ε β} {xs : List α} {ys : List β} :
    xs.mapM f = .ok ys ↔ List.Forall₂ (fun x y => f x = .ok y) xs ys := by
  induction xs generalizing ys with
  | nil =>
      rw [List.mapM_nil, List.forall₂_nil_left_iff]
      exact ⟨fun h => (Except.ok.inj h).symm, fun h => h ▸ rfl⟩
  | cons x xs ih =>
      rw [List.mapM_cons, List.forall₂_cons_left_iff, Except.bind_eq_ok_iff]
      simp only [Except.bind_eq_ok_iff, ih]
      constructor
      · rintro ⟨y, hy, zs, hzs, hys⟩
        exact ⟨y, zs, hy, hzs, (Except.ok.inj hys).symm⟩
      · rintro ⟨y, zs, hy, hzs, rfl⟩
        exact ⟨y, hy, zs, hzs, rfl⟩

theorem mapM_eq_error_iff {f : α → Except ε β} {e₀ : ε} (h : ∀ x e, f x = .error e → e = e₀)
    {xs : List α} {e : ε} : xs.mapM f = .error e ↔ ∃ x ∈ xs, f x = .error e := by
  induction xs with
  | nil => simp [pure, Except.pure]
  | cons x xs ih =>
      rw [List.mapM_cons, Except.bind_eq_error_iff, List.exists_mem_cons_iff]
      simp only [Except.bind_eq_error_iff, ih]
      cases hx : f x with
      | error e' =>
          have hsame : (∃ y ∈ xs, f y = .error e) → e' = e := by
            rintro ⟨y, -, hy⟩
            rw [h x e' hx, h y e hy]
          simpa using hsame
      | ok y => simp [pure, Except.pure]

theorem mapM_error_unique {f : α → Except ε β} {e₀ : ε} (h : ∀ x e, f x = .error e → e = e₀)
    {xs : List α} {e : ε} (he : xs.mapM f = .error e) : e = e₀ := by
  obtain ⟨x, -, hx⟩ := (mapM_eq_error_iff h).1 he
  exact h x e hx

namespace Keyed

variable {f : α → Except ε β} {t : Keyed κ α} {u : Keyed κ β}

theorem store_eq_ok_iff {x : κ × α} {y : κ × β} :
    (do return (x.1, ← f x.2) : Except ε (κ × β)) = .ok y ↔ x.1 = y.1 ∧ f x.2 = .ok y.2 := by
  obtain ⟨k, b⟩ := y
  cases hx : f x.2 <;> simp [bind, Except.bind, pure, Except.pure]

theorem store_eq_error_iff {x : κ × α} {e : ε} :
    (do return (x.1, ← f x.2) : Except ε (κ × β)) = .error e ↔ f x.2 = .error e := by
  cases hx : f x.2 <;> simp [bind, Except.bind, pure, Except.pure]

theorem traverse_cons (k : κ) (a : α) (t : Keyed κ α) :
    traverse f ((k, a) :: t) = f a >>= fun b => (traverse f t).map ((k, b) :: ·) := by
  rw [traverse, List.mapM_cons, ← traverse]
  dsimp only
  cases f a with
  | error e => rfl
  | ok b => cases traverse f t <;> rfl

theorem traverse_eq_ok_iff : traverse f t = .ok u ↔
    List.Forall₂ (fun x y => x.1 = y.1 ∧ f x.2 = .ok y.2) t u := by
  rw [traverse, mapM_eq_ok_iff]
  exact ⟨fun h => h.imp fun _ _ => store_eq_ok_iff.1, fun h => h.imp fun _ _ => store_eq_ok_iff.2⟩

theorem traverse_eq_error_iff {e₀ : ε} (h : ∀ a e, f a = .error e → e = e₀) {e : ε} :
    traverse f t = .error e ↔ ∃ x ∈ t, f x.2 = .error e := by
  rw [traverse, mapM_eq_error_iff fun x e he => h x.2 e (store_eq_error_iff.1 he)]
  exact exists_congr fun x => and_congr_right fun _ => store_eq_error_iff

theorem keys_of_traverse [DecidableEq κ] (h : traverse f t = .ok u) : keys u = keys t := by
  have hitems := traverse_eq_ok_iff.1 h
  clear h
  induction hitems with
  | nil => rfl
  | cons hxy _ ih => exact congrArg₂ List.cons hxy.1.symm ih

/-- What is found is what the computation makes of what was stored there. -/
theorem get?_of_traverse [DecidableEq κ] (h : traverse f t = .ok u) {k : κ} {b : β} :
    get? u k = some b ↔ ∃ a, get? t k = some a ∧ f a = .ok b := by
  have hitems := traverse_eq_ok_iff.1 h
  clear h
  induction hitems with
  | nil => simp
  | @cons x y _ _ hxy _ ih =>
      obtain ⟨j, a⟩ := x
      obtain ⟨j', c⟩ := y
      obtain ⟨rfl, ha⟩ := hxy
      dsimp only at ha
      by_cases hj : j = k
      · simp [get?, hj, ha]
      · simpa [get?, hj] using ih

theorem traverse_map_keys {ι : Type} (g : κ → ι) (t : Keyed κ α) :
    traverse f (t.map fun x => (g x.1, x.2)) =
      (traverse f t).map (List.map fun x => (g x.1, x.2)) := by
  induction t with
  | nil => rfl
  | cons x t ih =>
      simp only [traverse] at ih
      simp only [traverse, List.map_cons, List.mapM_cons, ih]
      cases f x.2 with
      | error e => rfl
      | ok b => cases List.mapM (fun x => do return (x.1, ← f x.2)) t <;> rfl

theorem traverse_tabulate_eq_ok_iff [DecidableEq κ] {ks : List κ} {g : κ → α} :
    traverse f (tabulate ks g) = .ok u ↔ keys u = ks ∧ ∀ x ∈ u, f (g x.1) = .ok x.2 := by
  rw [traverse_eq_ok_iff, tabulate, List.forall₂_map_left_iff]
  induction ks generalizing u with
  | nil => cases u <;> simp [keys]
  | cons k ks ih =>
      rw [List.forall₂_cons_left_iff]
      constructor
      · rintro ⟨x, u, ⟨rfl, hx⟩, hu, rfl⟩
        obtain ⟨hkeys, hall⟩ := ih.1 hu
        exact ⟨congrArg (List.cons x.1) hkeys, List.forall_mem_cons.2 ⟨hx, hall⟩⟩
      · rintro ⟨hkeys, hall⟩
        cases u with
        | nil => cases hkeys
        | cons x u =>
            obtain ⟨hk, hrest⟩ := List.cons.inj hkeys
            subst hk
            obtain ⟨hx, hu⟩ := List.forall_mem_cons.1 hall
            exact ⟨x, u, ⟨rfl, hx⟩, ih.2 ⟨hrest, hu⟩, rfl⟩

end Keyed

end LineAtlas
