/-!
# Search by halving

In an array whose elements satisfying a test all come first, the number of those elements is found by
halving the range in which it lies.
-/

namespace LineAtlas.Halving

/-- The first index in `lo, …, hi` whose element fails `p`, or `hi`. -/
def search (p : α → Bool) (xs : Array α) (lo hi : Nat) (h : hi ≤ xs.size) : Nat :=
  if hlt : lo < hi then
    have : (lo + hi) / 2 < xs.size := by omega
    if p xs[(lo + hi) / 2] then search p xs ((lo + hi) / 2 + 1) hi h
    else search p xs lo ((lo + hi) / 2) (by omega)
  else lo
termination_by hi - lo

def partitionPoint (p : α → Bool) (xs : Array α) : Nat :=
  search p xs 0 xs.size (Nat.le_refl _)

theorem search_le (p : α → Bool) (xs : Array α) (lo hi : Nat) (h : hi ≤ xs.size) (hlo : lo ≤ hi) :
    lo ≤ search p xs lo hi h ∧ search p xs lo hi h ≤ hi := by
  fun_induction search p xs lo hi h with
  | case1 => have := ‹_ ≤ _ → _› (by omega); omega
  | case2 => have := ‹_ ≤ _ → _› (by omega); omega
  | case3 => omega

theorem partitionPoint_le (p : α → Bool) (xs : Array α) : partitionPoint p xs ≤ xs.size :=
  (search_le p xs 0 xs.size (Nat.le_refl _) (Nat.zero_le _)).2

/-- What lies before the range satisfies the test and what lies behind it does not; this stays so as
the range is halved. -/
theorem lt_search_iff {p : α → Bool} {xs : Array α}
    (hp : ∀ i j (hj : j < xs.size) (hij : i ≤ j), p xs[j] = true → p xs[i] = true) (lo hi : Nat)
    (h : hi ≤ xs.size) (hlo : ∀ i (hsize : i < xs.size), i < lo → p xs[i] = true)
    (hhi : ∀ i (hsize : i < xs.size), hi ≤ i → p xs[i] = false) (i : Nat) (hsize : i < xs.size) :
    i < search p xs lo hi h ↔ p xs[i] = true := by
  fun_induction search p xs lo hi h with
  | case1 lo hi h hlt hmid htrue ih =>
    apply ih _ hhi
    intro j hj hle
    exact hp j ((lo + hi) / 2) hmid (by omega) htrue
  | case2 lo hi h hlt hmid hfalse ih =>
    apply ih hlo
    intro j hj hle
    cases hpj : p xs[j] with
    | false => rfl
    | true => exact absurd (hp ((lo + hi) / 2) j hj hle hpj) hfalse
  | case3 lo hi h hnot =>
    constructor
    · exact hlo i hsize
    · intro htrue
      rcases Nat.lt_or_ge i lo with hlt | hge
      · exact hlt
      · have hfalse := hhi i hsize (by omega)
        rw [hfalse] at htrue
        cases htrue

theorem lt_partitionPoint_iff {p : α → Bool} {xs : Array α}
    (hp : ∀ i j (hj : j < xs.size) (hij : i ≤ j), p xs[j] = true → p xs[i] = true) {i : Nat}
    (hi : i < xs.size) : i < partitionPoint p xs ↔ p xs[i] = true := by
  apply lt_search_iff hp
  · intro j _ hj
    omega
  · intro j hj hle
    omega

end LineAtlas.Halving
