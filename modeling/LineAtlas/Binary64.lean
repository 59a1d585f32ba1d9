/-!
# Binary floating point

The finite doubles that are not negative, and the quotient of two whole numbers as a double: the nearest
one, a tie going to the even neighbour. A quotient beyond all of them has none.
-/

namespace LineAtlas

@[irreducible]
def Binary64.unitExponent : Nat := 1074

def Binary64.maxExponent : Nat := 2045

/-- The double `significand * 2 ^ exponent`, counted in the least positive one. Only the smallest exponent
goes with a significand of fewer than 53 binary digits. -/
structure Binary64 where
  significand : Nat
  exponent : Nat
  significand_lt : significand < 1 <<< 53
  exponent_le : exponent ≤ Binary64.maxExponent
  normal : exponent = 0 ∨ 1 <<< 52 ≤ significand
  deriving DecidableEq, Repr

namespace Binary64

/-- The quotient rounded to a whole number, half going to the even neighbour. -/
def roundQuotient (num den : Nat) : Nat :=
  let q := num / den
  let twice := 2 * (num % den)
  if den < twice ∨ (twice = den ∧ q % 2 = 1) then q + 1 else q

/-- The exponent that leaves 53 binary digits before the point of a quotient, or the smallest. -/
def exponentFor (num den : Nat) : Nat :=
  (num / den).log2 - 52

def carry (significand exponent : Nat) : Nat × Nat :=
  if significand = 1 <<< 53 then (1 <<< 52, exponent + 1) else (significand, exponent)

def ofParts? (significand exponent : Nat) : Option Binary64 :=
  if h : significand < 1 <<< 53 ∧ exponent ≤ maxExponent ∧ (exponent = 0 ∨ 1 <<< 52 ≤ significand) then
    some ⟨significand, exponent, h.1, h.2.1, h.2.2⟩
  else none

def ofUnits? (num den : Nat) : Option Binary64 :=
  let e := exponentFor num den
  let (significand, exponent) := carry (roundQuotient num (den <<< e)) e
  ofParts? significand exponent

@[irreducible]
def ofQuotient? (num den : Nat) : Option Binary64 :=
  ofUnits? (num <<< unitExponent) den

end Binary64

end LineAtlas
