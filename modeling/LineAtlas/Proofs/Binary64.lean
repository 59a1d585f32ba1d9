import LineAtlas.Binary64
import Mathlib.Algebra.Order.Field.Rat
import Mathlib.Tactic.FieldSimp
import Mathlib.Tactic.Linarith
import Mathlib.Tactic.Positivity
import Mathlib.Tactic.Ring

/-!
# Quotients as doubles

The double of a quotient is the nearest of all doubles, and of two that are as near the one with the even
significand. This says which double it is. There is none exactly for the quotients from half a step
beyond the greatest double on.
-/

namespace LineAtlas.Binary64

/-! ## Whole numbers -/

section

variable {num den : Nat}

theorem roundQuotient_cases (num den : Nat) :
    roundQuotient num den = num / den ∨ roundQuotient num den = num / den + 1 := by
  rw [roundQuotient]
  split
  · exact .inr rfl
  · exact .inl rfl

/-- Rounding goes astray by half a step at most, and by just that only to an even number. -/
theorem two_mul_abs_sub_roundQuotient_le (num : Nat) (hden : 0 < den) :
    2 * |(num : ℤ) - roundQuotient num den * den| ≤ den ∧
      (2 * |(num : ℤ) - roundQuotient num den * den| = den → Even (roundQuotient num den)) := by
  have hdiv : (num : ℤ) = (num / den : ℕ) * den + (num % den : ℕ) := by
    exact_mod_cast (Nat.div_add_mod' num den).symm
  have hlt : num % den < den := Nat.mod_lt _ hden
  have hparity := Nat.mod_two_eq_zero_or_one (num / den)
  rw [roundQuotient, Nat.even_iff]
  generalize num / den = q at hdiv hparity ⊢
  generalize num % den = m at hdiv hlt ⊢
  split
  · rename_i hup
    have herr : (num : ℤ) - ((q + 1 : ℕ) : ℤ) * den = -((den : ℤ) - m) := by
      rw [hdiv]
      push_cast
      ring
    rw [herr, abs_neg, abs_of_pos (by omega)]
    omega
  · rename_i hdown
    have herr : (num : ℤ) - (q : ℤ) * den = m := by
      rw [hdiv]
      ring
    rw [herr, abs_of_nonneg (by omega)]
    omega

/-- No whole number is nearer to a quotient than the rounded one. -/
theorem abs_sub_roundQuotient_le (num : Nat) (hden : 0 < den) (j : ℕ) :
    |(num : ℤ) - roundQuotient num den * den| ≤ |(num : ℤ) - j * den| ∧
      (|(num : ℤ) - j * den| = |(num : ℤ) - roundQuotient num den * den| →
        j ≠ roundQuotient num den → Even (roundQuotient num den)) := by
  obtain ⟨hhalf, heven⟩ := two_mul_abs_sub_roundQuotient_le num hden
  generalize roundQuotient num den = r at hhalf heven ⊢
  by_cases hj : j = r
  · subst hj
    exact ⟨le_rfl, fun _ hne => absurd rfl hne⟩
  · have hstep : (den : ℤ) ≤ |((j : ℤ) - r) * den| := by
      have hne : 1 ≤ |(j : ℤ) - r| := Int.one_le_abs (by omega)
      rw [abs_mul, abs_of_nonneg (Int.natCast_nonneg den)]
      exact le_mul_of_one_le_left (Int.natCast_nonneg den) hne
    have hsplit : ((j : ℤ) - r) * den = ((num : ℤ) - r * den) - ((num : ℤ) - j * den) := by ring
    have htriangle := abs_sub ((num : ℤ) - r * den) ((num : ℤ) - j * den)
    rw [← hsplit] at htriangle
    exact ⟨by omega, fun heq _ => heven (by omega)⟩

/-- The exponent leaves at most 53 binary digits, and no fewer if it is not the smallest. -/
theorem exponentFor_bounds (num : Nat) (hden : 0 < den) :
    num < 2 ^ 53 * (den * 2 ^ exponentFor num den) ∧
      (exponentFor num den = 0 ∨ 2 ^ 52 * (den * 2 ^ exponentFor num den) ≤ num) := by
  have hpow (d e : ℕ) : 2 ^ d * (den * 2 ^ e) = 2 ^ (d + e) * den := by ring
  rw [exponentFor, hpow, hpow]
  have hlog : num / den < 2 ^ ((num / den).log2 + 1) := Nat.lt_log2_self
  have hup : 2 ^ ((num / den).log2 + 1) ≤ 2 ^ (53 + ((num / den).log2 - 52)) :=
    Nat.pow_le_pow_right (by decide) (by omega)
  refine ⟨(Nat.div_lt_iff_lt_mul hden).1 (hlog.trans_le hup), ?_⟩
  rw [or_iff_not_imp_left]
  intro hpos
  have hne : num / den ≠ 0 := by
    intro hzero
    simp [hzero] at hpos
  have hsum : 52 + ((num / den).log2 - 52) = (num / den).log2 := by omega
  rw [hsum, ← Nat.le_div_iff_mul_le hden]
  exact Nat.log2_self_le hne

theorem roundQuotient_bounds (num : Nat) (hden : 0 < den) :
    roundQuotient num (den * 2 ^ exponentFor num den) ≤ 2 ^ 53 ∧
      (exponentFor num den = 0 ∨
        2 ^ 52 ≤ roundQuotient num (den * 2 ^ exponentFor num den)) := by
  have hpos : 0 < den * 2 ^ exponentFor num den := Nat.mul_pos hden (Nat.two_pow_pos _)
  obtain ⟨hup, hlow⟩ := exponentFor_bounds num hden
  have hq : num / (den * 2 ^ exponentFor num den) < 2 ^ 53 := (Nat.div_lt_iff_lt_mul hpos).2 hup
  have hround := roundQuotient_cases num (den * 2 ^ exponentFor num den)
  refine ⟨by omega, hlow.imp_right fun hle => ?_⟩
  have := (Nat.le_div_iff_mul_le hpos).2 hle
  omega

end

/-! ## Doubles -/

def units (x : Binary64) : ℕ :=
  x.significand * 2 ^ x.exponent

def value (x : Binary64) : ℚ :=
  x.units / 2 ^ unitExponent

theorem units_lt (x : Binary64) : x.units < 2 ^ 53 * 2 ^ x.exponent :=
  Nat.mul_lt_mul_of_pos_right x.significand_lt (Nat.two_pow_pos _)

theorem units_lt_of_exponent_lt {x : Binary64} {e : ℕ} (h : x.exponent < e) :
    x.units < 2 ^ 52 * 2 ^ e := by
  have hpow : 2 ^ 53 * 2 ^ x.exponent ≤ 2 ^ 52 * 2 ^ e := by
    rw [← Nat.pow_add, ← Nat.pow_add]
    exact Nat.pow_le_pow_right (by decide) (by omega)
  exact x.units_lt.trans_le hpow

theorem exponent_le_of_units_le {x y : Binary64} (h : x.units ≤ y.units) :
    x.exponent ≤ y.exponent := by
  by_contra hlt
  have hnormal : 2 ^ 52 ≤ x.significand := x.normal.resolve_left (by omega)
  have hx : 2 ^ 52 * 2 ^ x.exponent ≤ x.units := Nat.mul_le_mul_right _ hnormal
  have hy := units_lt_of_exponent_lt (Nat.lt_of_not_le hlt)
  omega

theorem ext_units {x y : Binary64} (h : x.units = y.units) : x = y := by
  have hexponent : x.exponent = y.exponent :=
    Nat.le_antisymm (exponent_le_of_units_le h.le) (exponent_le_of_units_le h.ge)
  have hsignificand : x.significand = y.significand := by
    rw [units, units, hexponent] at h
    exact Nat.eq_of_mul_eq_mul_right (Nat.two_pow_pos _) h
  cases x
  cases y
  simp_all

/-- Among even significands two doubles are never neighbours. -/
theorem exists_between {x y : Binary64} (hx : Even x.significand) (hy : Even y.significand)
    (h : x.units < y.units) : ∃ z : Binary64, x.units < z.units ∧ z.units < y.units := by
  have hodd : x.significand + 1 < 2 ^ 53 := by
    have := x.significand_lt
    have := Nat.even_iff.1 hx
    omega
  let z : Binary64 :=
    ⟨x.significand + 1, x.exponent, hodd, x.exponent_le, x.normal.imp_right fun hle => by omega⟩
  have hpos := Nat.two_pow_pos x.exponent
  obtain ⟨k, hk⟩ := Nat.exists_eq_add_of_le (exponent_le_of_units_le h.le)
  -- Both are multiples of the step at the smaller one.
  have hunits : y.units = (y.significand * 2 ^ k) * 2 ^ x.exponent := by
    rw [units, hk, Nat.pow_add]
    ring
  have heven : Even (y.significand * 2 ^ k) := hy.mul_right _
  refine ⟨z, Nat.mul_lt_mul_of_pos_right (Nat.lt_succ_self _) hpos, ?_⟩
  rw [hunits, units] at h ⊢
  have hlt := Nat.lt_of_mul_lt_mul_right h
  rw [Nat.even_iff] at hx heven
  exact Nat.mul_lt_mul_of_pos_right (show x.significand + 1 < _ by omega) hpos

/-! ## The nearest double -/

/-- No double is nearer to the number, and where another is as near, the significand is even. -/
structure IsNearest (x : Binary64) (q : ℚ) : Prop where
  dist_le : ∀ y : Binary64, |q - x.value| ≤ |q - y.value|
  even : ∀ y : Binary64, y ≠ x → |q - y.value| = |q - x.value| → Even x.significand

theorem value_lt_value {x y : Binary64} (h : x.units < y.units) : x.value < y.value := by
  rw [value, value]
  gcongr

theorem IsNearest.unique {x y : Binary64} {q : ℚ} (hx : x.IsNearest q) (hy : y.IsNearest q) :
    x = y := by
  by_contra hne
  have hdist : |q - y.value| = |q - x.value| := le_antisymm (hy.dist_le x) (hx.dist_le y)
  have hxeven := hx.even y (Ne.symm hne) hdist
  have hyeven := hy.even x hne hdist.symm
  -- Whatever lies between the two is nearer than both.
  have hnot {a b z : Binary64} (haz : a.units < z.units) (hzb : z.units < b.units)
      (ha : |q - a.value| ≤ |q - z.value|) (hb : |q - b.value| ≤ |q - z.value|) : False := by
    have hz := value_lt_value haz
    have hz' := value_lt_value hzb
    rcases abs_cases (q - a.value) with h | h <;> rcases abs_cases (q - b.value) with h' | h' <;>
      rcases abs_cases (q - z.value) with h'' | h'' <;> linarith
  rcases Nat.lt_or_gt_of_ne (mt ext_units hne) with hlt | hlt
  · obtain ⟨z, hxz, hzy⟩ := exists_between hxeven hyeven hlt
    exact hnot hxz hzy (hx.dist_le z) (hy.dist_le z)
  · obtain ⟨z, hyz, hzx⟩ := exists_between hyeven hxeven hlt
    exact hnot hyz hzx (hy.dist_le z) (hx.dist_le z)

section

variable {num den : Nat} {x : Binary64}

theorem ofParts?_eq_some_iff {significand exponent : ℕ} : ofParts? significand exponent = some x ↔
    x.significand = significand ∧ x.exponent = exponent := by
  rw [ofParts?]
  split
  · rw [Option.some.injEq]
    constructor
    · rintro rfl
      exact ⟨rfl, rfl⟩
    · rintro ⟨rfl, rfl⟩
      rfl
  · rename_i hnot
    simp only [reduceCtorEq, false_iff]
    rintro ⟨rfl, rfl⟩
    exact hnot ⟨x.significand_lt, x.exponent_le, x.normal⟩

/-- Carrying changes neither the number nor whether the significand is even. -/
theorem carry_spec {r e : ℕ} {m k : ℕ} (h : carry r e = (m, k)) :
    m * 2 ^ k = r * 2 ^ e ∧ (Even r → Even m) := by
  rw [carry, Nat.one_shiftLeft, Nat.one_shiftLeft] at h
  split at h
  · rename_i hr
    obtain ⟨rfl, rfl⟩ := Prod.mk.inj h
    rw [hr]
    exact ⟨by ring, fun _ => by decide⟩
  · obtain ⟨rfl, rfl⟩ := Prod.mk.inj h
    exact ⟨rfl, id⟩

theorem units_of_ofUnits? (h : ofUnits? num den = some x) :
    x.units = roundQuotient num (den * 2 ^ exponentFor num den) * 2 ^ exponentFor num den ∧
      (Even (roundQuotient num (den * 2 ^ exponentFor num den)) → Even x.significand) := by
  rw [ofUnits?, Nat.shiftLeft_eq] at h
  obtain ⟨hm, hk⟩ := ofParts?_eq_some_iff.1 h
  rw [units, hm, hk]
  exact carry_spec rfl

theorem abs_sub_units_le (hden : 0 < den) (h : ofUnits? num den = some x) (y : Binary64) :
    |(num : ℤ) - den * x.units| ≤ |(num : ℤ) - den * y.units| ∧
      (|(num : ℤ) - den * y.units| = |(num : ℤ) - den * x.units| → y ≠ x → Even x.significand) := by
  obtain ⟨hunits, heven⟩ := units_of_ofUnits? h
  obtain ⟨-, hlow⟩ := exponentFor_bounds num hden
  generalize exponentFor num den = e at hunits heven hlow
  have hpos : 0 < den * 2 ^ e := Nat.mul_pos hden (Nat.two_pow_pos _)
  have hnear := abs_sub_roundQuotient_le num hpos
  generalize roundQuotient num (den * 2 ^ e) = r at hunits heven hnear
  have hregroup (j : ℕ) : (den : ℤ) * ((j * 2 ^ e : ℕ) : ℤ) = j * ((den * 2 ^ e : ℕ) : ℤ) := by
    push_cast
    ring
  by_cases hle : e ≤ y.exponent
  · -- Both are multiples of the step to which the quotient is rounded.
    obtain ⟨k, hk⟩ := Nat.exists_eq_add_of_le hle
    have hy : y.units = (y.significand * 2 ^ k) * 2 ^ e := by
      rw [units, hk, Nat.pow_add]
      ring
    obtain ⟨hdist, htie⟩ := hnear (y.significand * 2 ^ k)
    rw [hunits, hy, hregroup, hregroup]
    refine ⟨hdist, fun heq hne => heven (htie heq ?_)⟩
    intro hr
    exact hne (ext_units (by rw [hunits, hy, hr]))
  · -- A double of smaller steps lies below all that have the digits of the quotient.
    have hlow := hlow.resolve_left (by omega)
    have hy := units_lt_of_exponent_lt (Nat.lt_of_not_le hle)
    obtain ⟨hdist, -⟩ := hnear (2 ^ 52)
    have hbelow : (num : ℤ) - ((2 ^ 52 : ℕ) : ℤ) * ((den * 2 ^ e : ℕ) : ℤ) <
        (num : ℤ) - den * y.units := by
      have : den * y.units < den * (2 ^ 52 * 2 ^ e) := Nat.mul_lt_mul_of_pos_left hy hden
      rw [← hregroup]
      have : (den : ℤ) * y.units < den * ((2 ^ 52 * 2 ^ e : ℕ) : ℤ) := by exact_mod_cast this
      linarith
    have hnonneg : (0 : ℤ) ≤ (num : ℤ) - ((2 ^ 52 : ℕ) : ℤ) * ((den * 2 ^ e : ℕ) : ℤ) := by
      have : ((2 ^ 52 * (den * 2 ^ e) : ℕ) : ℤ) ≤ num := by exact_mod_cast hlow
      push_cast at this ⊢
      linarith
    rw [abs_of_nonneg hnonneg] at hdist
    rw [hunits, hregroup, abs_of_nonneg (hnonneg.trans hbelow.le)]
    exact ⟨hdist.trans hbelow.le, fun heq => absurd heq (hdist.trans_lt hbelow).ne'⟩

theorem abs_sub_value (hden : 0 < den) (y : Binary64) : |(num : ℚ) / den - y.value| =
    (|((2 ^ unitExponent * num : ℕ) : ℤ) - den * y.units| : ℤ) / (den * 2 ^ unitExponent : ℚ) := by
  have hden : (0 : ℚ) < den := by exact_mod_cast hden
  have hscale : (0 : ℚ) < den * 2 ^ unitExponent := by positivity
  have hquotient : (num : ℚ) / den - y.value =
      (((2 ^ unitExponent * num : ℕ) : ℤ) - den * y.units : ℤ) / (den * 2 ^ unitExponent : ℚ) := by
    rw [value]
    push_cast
    field_simp
  rw [hquotient, abs_div, abs_of_pos hscale, Int.cast_abs]

theorem isNearest_of_ofQuotient? (hden : 0 < den) (h : ofQuotient? num den = some x) :
    x.IsNearest ((num : ℚ) / den) := by
  have hscale : (0 : ℚ) < den * 2 ^ unitExponent := by
    have : (0 : ℚ) < den := by exact_mod_cast hden
    positivity
  rw [ofQuotient?, Nat.shiftLeft_eq, Nat.mul_comm] at h
  have hnear := abs_sub_units_le hden h
  refine ⟨fun y => ?_, fun y hne heq => (hnear y).2 ?_ hne⟩
  · rw [abs_sub_value hden, abs_sub_value hden]
    exact div_le_div_of_nonneg_right (by exact_mod_cast (hnear y).1) hscale.le
  · rw [abs_sub_value hden, abs_sub_value hden, div_left_inj' hscale.ne'] at heq
    exact_mod_cast heq

/-! ## Quotients beyond all doubles -/

theorem ofParts?_eq_none_iff {significand exponent : ℕ} (hlt : significand < 2 ^ 53)
    (hnormal : exponent = 0 ∨ 2 ^ 52 ≤ significand) :
    ofParts? significand exponent = none ↔ maxExponent < exponent := by
  rw [ofParts?]
  split
  · rename_i hall
    simp only [reduceCtorEq, false_iff]
    omega
  · rename_i hnot
    simp only [true_iff]
    by_contra hle
    exact hnot ⟨hlt, Nat.le_of_not_lt hle, hnormal⟩

theorem ofUnits?_eq_none_iff_carry (hden : 0 < den) : ofUnits? num den = none ↔
    maxExponent < exponentFor num den ∨ maxExponent = exponentFor num den ∧
      roundQuotient num (den * 2 ^ exponentFor num den) = 2 ^ 53 := by
  obtain ⟨hup, hlow⟩ := roundQuotient_bounds num hden
  rw [ofUnits?, Nat.shiftLeft_eq]
  dsimp only
  generalize exponentFor num den = e at hup hlow ⊢
  generalize roundQuotient num (den * 2 ^ e) = r at hup hlow ⊢
  rw [carry, Nat.one_shiftLeft, Nat.one_shiftLeft]
  split
  · rename_i hr
    rw [ofParts?_eq_none_iff (by decide) (.inr le_rfl)]
    omega
  · rw [ofParts?_eq_none_iff (by omega) hlow]
    omega

/-- From half a step beyond the greatest double on there is none. -/
theorem ofUnits?_eq_none_iff (hden : 0 < den) :
    ofUnits? num den = none ↔ (2 ^ 54 - 1) * 2 ^ maxExponent * den ≤ 2 * num := by
  rw [ofUnits?_eq_none_iff_carry hden]
  obtain ⟨hup, hlow⟩ := exponentFor_bounds num hden
  obtain ⟨hround, -⟩ := roundQuotient_bounds num hden
  have hhalf := two_mul_abs_sub_roundQuotient_le num
    (Nat.mul_pos hden (Nat.two_pow_pos (exponentFor num den)))
  generalize exponentFor num den = e at hup hlow hround hhalf ⊢
  generalize roundQuotient num (den * 2 ^ e) = r at hround hhalf ⊢
  rw [Nat.mul_assoc, Nat.mul_comm _ den]
  have hstep {d e : ℕ} (hlt : d < e) : 2 * (den * 2 ^ d) ≤ den * 2 ^ e := by
    rw [Nat.mul_left_comm, ← Nat.pow_succ']
    exact Nat.mul_le_mul_left _ (Nat.pow_le_pow_right (by decide) hlt)
  rcases Nat.lt_trichotomy e maxExponent with hlt | rfl | hlt
  · have := hstep hlt
    omega
  · generalize den * 2 ^ maxExponent = b at hup hhalf ⊢
    simp only [lt_irrefl, true_and, false_or]
    constructor
    · rintro rfl
      have := neg_abs_le ((num : ℤ) - ((2 ^ 53 : ℕ) : ℤ) * b)
      push_cast at this hhalf
      omega
    · intro hle
      by_contra hne
      -- The last significand is odd, so a quotient half a step beyond is not rounded down to it.
      have hr : (r : ℤ) * b ≤ (2 ^ 53 - 1) * b :=
        mul_le_mul_of_nonneg_right (by omega) (Int.natCast_nonneg b)
      have hself := le_abs_self ((num : ℤ) - r * b)
      have heven := Nat.even_iff.1 (hhalf.2 (by omega))
      have hr : (r : ℤ) * b ≤ (2 ^ 53 - 2) * b :=
        mul_le_mul_of_nonneg_right (by omega) (Int.natCast_nonneg b)
      omega
  · have := hstep hlt
    have := hlow.resolve_left (by omega)
    omega

/-- The greatest double is `(2 ^ 53 - 1) * 2 ^ 971`, and the next step would lead to `2 ^ 1024`. -/
theorem ofQuotient?_eq_none_iff (num : Nat) (hden : 0 < den) :
    ofQuotient? num den = none ↔ (2 ^ 1024 - 2 ^ 970) * den ≤ num := by
  have hlimit : (2 ^ 54 - 1) * 2 ^ maxExponent = (2 ^ 1024 - 2 ^ 970) * (2 * 2 ^ unitExponent) := by
    decide +kernel
  have hpos : 0 < 2 * 2 ^ unitExponent := Nat.mul_pos (by decide) (Nat.two_pow_pos _)
  have hleft : (2 ^ 54 - 1) * 2 ^ maxExponent * den =
      (2 ^ 1024 - 2 ^ 970) * den * (2 * 2 ^ unitExponent) := by
    rw [hlimit]
    exact Nat.mul_right_comm _ _ _
  have hright : 2 * (num * 2 ^ unitExponent) = num * (2 * 2 ^ unitExponent) :=
    Nat.mul_left_comm _ _ _
  rw [ofQuotient?, Nat.shiftLeft_eq, ofUnits?_eq_none_iff hden, hleft, hright, Nat.mul_le_mul_right_iff hpos]

theorem ofQuotient?_eq_some_iff (hden : 0 < den) : ofQuotient? num den = some x ↔
    num < (2 ^ 1024 - 2 ^ 970) * den ∧ x.IsNearest ((num : ℚ) / den) := by
  have hnone := not_congr (ofQuotient?_eq_none_iff num hden)
  rw [Nat.not_le] at hnone
  constructor
  · intro h
    refine ⟨hnone.1 ?_, isNearest_of_ofQuotient? hden h⟩
    rw [h]
    exact Option.some_ne_none x
  · rintro ⟨hlt, hx⟩
    obtain ⟨y, hy⟩ := Option.ne_none_iff_exists'.1 (hnone.2 hlt)
    rw [hy, (isNearest_of_ofQuotient? hden hy).unique hx]

end

end LineAtlas.Binary64
