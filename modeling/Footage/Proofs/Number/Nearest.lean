import Footage.Proofs.Number.Units

/-!
# The nearest double

`Binary64.ofInt?` takes an integer to the double that is nearest to it, and of two that are equally
near to the one with an even significand (`Binary64.isNearest_of_ofInt?`).  There is none for an
integer if and only if it is so large that it would be rounded to a power of two beyond the doubles
(`Binary64.ofInt?_eq_none_iff`).
-/

namespace Footage.Number

namespace Binary64

/-- How far a finite double is from an integer, as a multiple of the smallest positive one. -/
def distance (n : Int) (x : Binary64) : Nat := (x.units - n * unitsOfOne).natAbs

/-- The double that an integer is rounded to: it has the sign of the integer, no finite double is
nearer, and another one is as near only if this one has an even significand. -/
structure IsNearest (n : Int) (x : Binary64) : Prop where
  finite : x.IsFinite
  negative : x.negative = decide (n < 0)
  nearest : ∀ y : Binary64, y.IsFinite → distance n x ≤ distance n y
  even : ∀ y : Binary64, y.IsFinite → y.units ≠ x.units → distance n y = distance n x →
    x.significand % 2 = 0

/-! ### Doubles of natural numbers -/

variable {k : Nat}

/-- How far apart the doubles next to a natural number are. -/
def grain (k : Nat) : Nat := 2 ^ (k.log2 + 1022)

/-- How many times that a natural number is, rounded. -/
def rounded (k : Nat) : Nat := roundDiv (k * unitsOfOne) (grain k)

theorem scale_mul_unitsOfOne (pos : 0 < k) : scale (k * unitsOfOne) = k.log2 + 1022 := by
  rw [scale, log2_mul_unitsOfOne pos]
  omega

theorem steps_mul_unitsOfOne (pos : 0 < k) : steps (k * unitsOfOne) = rounded k := by
  rw [steps, spacing, scale_mul_unitsOfOne pos, rounded, grain]

theorem grain_pos (k : Nat) : 0 < grain k := Nat.two_pow_pos _

/-- A natural number in units, as the quotient that it is. -/
theorem units_eq_quotient (k : Nat) : k * unitsOfOne * 2 ^ 0 = k * unitsOfOne := Nat.mul_one _

/-- The bits of the double that a natural number is rounded to. -/
theorem roundedMagnitude_one (pos : 0 < k) :
    roundedMagnitude k 1 = min infinityMagnitude ((k.log2 + 1022) * 2 ^ 52 + rounded k) := by
  have magnitude := roundedMagnitude_two_pow (units_eq_quotient k)
  rwa [scale_mul_unitsOfOne pos, steps_mul_unitsOfOne pos] at magnitude

/-! ### Doubles of integers -/

/-- Where an integer has a double, it is the nearest one. -/
theorem isNearest_ofRatio {n : Int} (fits : roundedMagnitude n.natAbs 1 ≠ infinityMagnitude) :
    IsNearest n (ofRatio (decide (n < 0)) n.natAbs 1) := by
  have closest := isClosest_ofRatio (decide (n < 0)) (units_eq_quotient n.natAbs) fits
  have multiple : sign (decide (n < 0)) * (n.natAbs * unitsOfOne : Nat) = n * unitsOfOne := by
    rw [Int.natCast_mul, ← Int.mul_assoc]
    congr 1
    by_cases below : n < 0
    · rw [sign, decide_eq_true below, if_pos rfl]
      omega
    · rw [sign, decide_eq_false below, if_neg Bool.false_ne_true]
      omega
  rw [multiple] at closest
  exact ⟨closest.finite, negative_ofRatio _ _ _, closest.nearest, closest.even⟩

theorem ofInt?_zero : ofInt? 0 = some (ofRatio false 0 1) := by decide

theorem isNearest_of_ofInt? {n : Int} {x : Binary64} (h : ofInt? n = some x) : IsNearest n x := by
  simp only [ofInt?, Option.ite_none_left_eq_some, Option.some.injEq] at h
  obtain ⟨finite, rfl⟩ := h
  exact isNearest_ofRatio fun full =>
    finite ((isInfinite_ofRatio _ (units_eq_quotient n.natAbs)).2 full)

/-! ### Integers without a double -/

theorem two_pow_le_mul {a b c unit : Nat} (eq : unit = 2 ^ c) (h : a ≤ b + c) :
    2 ^ a ≤ 2 ^ b * unit := by
  rw [eq, ← Nat.pow_add]
  exact Nat.pow_le_pow_right (by decide) h

theorem mul_le_two_pow {a b c unit : Nat} (eq : unit = 2 ^ c) (h : b + c ≤ a) :
    2 ^ b * unit ≤ 2 ^ a := by
  rw [eq, ← Nat.pow_add]
  exact Nat.pow_le_pow_right (by decide) h

theorem isInfinite_iff_log2 (s : Bool) (pos : 0 < k) :
    (ofRatio s k 1).isInfinite = true ↔
      1024 ≤ k.log2 ∨ (k.log2 = 1023 ∧ 2 ^ 53 ≤ rounded k) := by
  have low : 2 ^ 52 ≤ rounded k := by
    rw [← steps_mul_unitsOfOne pos]
    exact le_steps (by rw [scale_mul_unitsOfOne pos]; omega)
  have high : rounded k ≤ 2 ^ 53 := steps_mul_unitsOfOne pos ▸ steps_le _
  have infinite := isInfinite_ofRatio s (units_eq_quotient k)
  rw [Nat.pow_zero, roundedMagnitude_one pos] at infinite
  rw [infinite, infinityMagnitude]
  omega

/-- Half a unit of the last significand is missing to the power of two beyond the doubles. -/
theorem le_rounded_iff {unit : Nat} (grain_eq : grain k = 2 * unit * unitsOfOne) :
    2 ^ 53 ≤ rounded k ↔ (2 ^ 54 - 1) * unit ≤ k := by
  rw [rounded, le_roundDiv_iff (grain_pos k) (by decide), grain_eq]
  have left : 2 * (2 ^ 53 * (2 * unit * unitsOfOne)) = 2 ^ 54 * (2 * unit) * unitsOfOne := by grind
  have right : 2 * (k * unitsOfOne) + 2 * unit * unitsOfOne = (2 * k + 2 * unit) * unitsOfOne := by
    grind
  rw [left, right, Nat.mul_le_mul_right_iff unitsOfOne_pos]
  omega

/-- The least magnitude of an integer without a double: it is beyond the largest double by half a
unit of its last place. -/
def overflowBound : Nat := (2 ^ 54 - 1) * 2 ^ 970

/-- An integer has no double if and only if its magnitude reaches the bound. -/
theorem ofInt?_eq_none_iff (n : Int) : ofInt? n = none ↔ overflowBound ≤ n.natAbs := by
  obtain ⟨unit, unit_eq⟩ : ∃ unit, unit = 2 ^ 970 := ⟨_, rfl⟩
  have positive : 0 < unit := unit_eq ▸ Nat.two_pow_pos 970
  rw [overflowBound, ← unit_eq]
  by_cases zero : n = 0
  · subst zero
    rw [ofInt?_zero, Int.natAbs_zero]
    refine iff_of_false nofun ?_
    omega
  · have pos : 0 < n.natAbs := by omega
    have low : 2 ^ n.natAbs.log2 ≤ n.natAbs := Nat.log2_self_le (by omega)
    have high : n.natAbs < 2 ^ (n.natAbs.log2 + 1) := Nat.lt_log2_self
    have none_iff : ofInt? n = none ↔
        (ofRatio (decide (n < 0)) n.natAbs 1).isInfinite = true := by
      simp [ofInt?]
    rw [none_iff, isInfinite_iff_log2 _ pos]
    rcases Nat.lt_trichotomy n.natAbs.log2 1023 with less | equal | more
    · have bound : 2 ^ (n.natAbs.log2 + 1) ≤ 2 ^ 53 * unit := two_pow_le_mul unit_eq (by omega)
      omega
    · have grain_eq : grain n.natAbs = 2 * unit * unitsOfOne := by
        rw [grain, unit_eq, unitsOfOne, show n.natAbs.log2 + 1022 = 1 + 970 + 1074 by omega,
          Nat.pow_add 2 (1 + 970) 1074, Nat.pow_add 2 1 970, Nat.pow_one]
      rw [le_rounded_iff grain_eq]
      omega
    · have bound : 2 ^ 54 * unit ≤ 2 ^ n.natAbs.log2 := mul_le_two_pow unit_eq (by omega)
      omega

end Binary64

end Footage.Number
