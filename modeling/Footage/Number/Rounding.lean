import Footage.Number.Power
/-!
# Rounding a quotient

`Number.roundDiv` takes a quotient of naturals to the nearest natural, a tie to the even one.
`Number.roundDiv_le` and `Number.le_roundDiv` bound the result to half a unit on either side, and
`Number.roundDiv_tie` states where a tie goes.
-/

namespace Footage.Number

/-- `num / den` rounded to the nearest natural, a tie to the even neighbour. -/
def roundDiv (num den : Nat) : Nat :=
  let quotient := num / den
  let twice := 2 * (num % den)
  if twice < den then quotient
  else if den < twice then quotient + 1
  else if quotient % 2 = 0 then quotient else quotient + 1

/-- The rounded quotient is at most half a unit too large. -/
theorem roundDiv_le (num den : Nat) : 2 * den * roundDiv num den ≤ 2 * num + den := by
  have split := Nat.div_add_mod num den
  simp only [roundDiv]
  generalize num / den = q at *
  generalize num % den = r at *
  subst split
  have e1 : 2 * den * q = 2 * (den * q) := Nat.mul_assoc ..
  have e2 : 2 * den * (q + 1) = 2 * (den * q) + 2 * den := by rw [Nat.mul_add, e1]; omega
  split <;> (try split) <;> (try split) <;> omega

/-- The rounded quotient is at most half a unit too small. -/
theorem le_roundDiv (num : Nat) {den : Nat} (pos : 0 < den) :
    2 * num ≤ 2 * den * roundDiv num den + den := by
  have split := Nat.div_add_mod num den
  have below := Nat.mod_lt num pos
  simp only [roundDiv]
  generalize num / den = q at *
  generalize num % den = r at *
  subst split
  have e1 : 2 * den * q = 2 * (den * q) := Nat.mul_assoc ..
  have e2 : 2 * den * (q + 1) = 2 * (den * q) + 2 * den := by rw [Nat.mul_add, e1]; omega
  split <;> (try split) <;> (try split) <;> omega

/-- A quotient half-way between two naturals goes to the even one. -/
theorem roundDiv_tie {num den : Nat} (tie : 2 * (num % den) = den) :
    roundDiv num den % 2 = 0 := by
  simp only [roundDiv]
  split
  · omega
  · split
    · omega
    · split <;> omega

/-- A quotient without a remainder is its own rounding. -/
theorem roundDiv_mul (q : Nat) {den : Nat} (pos : 0 < den) : roundDiv (q * den) den = q := by
  simp [roundDiv, Nat.mul_div_cancel q pos, pos]

end Footage.Number
