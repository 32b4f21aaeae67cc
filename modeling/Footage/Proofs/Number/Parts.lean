import Footage.Proofs.Number.Units

/-!
# The parts of a double

A finite double that is not negative consists of its integer part and a fraction.  The first is the
quotient of its units by those of one (`Binary64.wholePart_eq`), and a multiple of the second, as a
double, is the closest double to that multiple of the rest (`Binary64.isClosest_scaledFraction`).
`Binary64.roundedPart_eq` rounds the units to a natural number.
-/

namespace Footage.Number.Binary64

theorem wholePart_eq (m g : Nat) :
    wholePart m ((g : Int) - 1074) = m * 2 ^ g / unitsOfOne := by
  unfold wholePart
  split
  · next whole =>
    rw [two_pow_eq_mul whole, ← Nat.mul_assoc, Nat.mul_div_cancel _ unitsOfOne_pos]
  · next fraction =>
    rw [unitsOfOne_eq_mul fraction, Nat.mul_div_mul_right _ _ (Nat.two_pow_pos g)]

theorem roundedPart_eq (m g : Nat) :
    roundedPart m ((g : Int) - 1074) = roundDiv (m * 2 ^ g) unitsOfOne := by
  unfold roundedPart
  split
  · next whole => rw [two_pow_eq_mul whole, ← Nat.mul_assoc, roundDiv_mul _ unitsOfOne_pos]
  · next fraction => rw [unitsOfOne_eq_mul fraction, roundDiv_mul_mul (Nat.two_pow_pos g)]

/-- Quotients far below the infinity are rounded to a finite double. -/
theorem roundedMagnitude_ne_infinity {u num k j : Nat} (eq : u * 2 ^ k = num * unitsOfOne)
    (small : u < 2 ^ j * unitsOfOne) (le : j ≤ 64) :
    roundedMagnitude num (2 ^ k) ≠ infinityMagnitude := by
  have bits : scale u ≤ 1086 := by
    rcases Nat.eq_zero_or_pos u with rfl | pos
    · decide
    · rw [two_pow_mul_unitsOfOne, ← Nat.log2_lt (Nat.ne_of_gt pos)] at small
      unfold scale
      omega
  have few := steps_le u
  rw [roundedMagnitude_two_pow eq, infinityMagnitude]
  omega

/-- A double that is a multiple of the fraction is the closest one to this multiple. -/
theorem isClosest_scaledFraction {factor j : Nat} (m g : Nat) (small : factor ≤ 2 ^ j)
    (le : j ≤ 64) :
    IsClosest (factor * (m * 2 ^ g % unitsOfOne) : Nat)
      (scaledFraction factor m ((g : Int) - 1074)) ∧
    (scaledFraction factor m ((g : Int) - 1074)).negative = false := by
  unfold scaledFraction
  split
  · next whole =>
    rw [two_pow_eq_mul whole, ← Nat.mul_assoc, Nat.mul_mod_left, Nat.mul_zero]
    have none : 0 * 2 ^ 0 = 0 * unitsOfOne := by simp
    exact ⟨isClosest_ofRatio false none (by decide), by decide⟩
  · next fraction =>
    have one := unitsOfOne_eq_mul fraction
    generalize (-((g : Int) - 1074)).toNat = k at *
    have rest : m * 2 ^ g % unitsOfOne = m % 2 ^ k * 2 ^ g := by
      rw [one, Nat.mul_mod_mul_right]
    have eq : factor * (m * 2 ^ g % unitsOfOne) * 2 ^ k = factor * (m % 2 ^ k) * unitsOfOne := by
      rw [rest, one]
      grind
    have bound : factor * (m * 2 ^ g % unitsOfOne) < 2 ^ j * unitsOfOne :=
      Nat.mul_lt_mul_of_le_of_lt small (Nat.mod_lt _ unitsOfOne_pos) (Nat.two_pow_pos j)
    have closest := isClosest_ofRatio false eq (roundedMagnitude_ne_infinity eq bound le)
    rw [sign, if_neg Bool.false_ne_true, Int.one_mul] at closest
    exact ⟨closest, negative_ofRatio _ _ _⟩

end Footage.Number.Binary64
