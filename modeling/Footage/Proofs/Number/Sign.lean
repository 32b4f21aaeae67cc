import Footage.Number.Quantity
import Footage.Proofs.Number.Units

/-!
# Quantities and zero

The units of a finite double tell on which side of zero it lies (`Binary64.isBelowZero_iff`,
`Binary64.isZero_iff`).  What is not a number lies on neither side: a quantity that is not at most
zero is above zero, or it is not a number (`Quantity.isAtMostZero_eq_false_iff`).
-/

namespace Footage.Number

theorem mul_two_pow_eq_zero_iff (m g : Nat) : m * 2 ^ g = 0 ↔ m = 0 := by
  rw [Nat.mul_eq_zero, or_iff_left (Nat.ne_of_gt (Nat.two_pow_pos g))]

namespace Binary64

variable {x : Binary64}

theorem isBelowZero_iff (finite : x.IsFinite) : x.isBelowZero = true ↔ x.units < 0 := by
  obtain ⟨m, g, form, -⟩ := form_of_isFinite finite
  have positive := mul_two_pow_eq_zero_iff m g
  rw [units_eq form, isBelowZero, form]
  generalize m * 2 ^ g = u at *
  cases x.negative
  · simp [sign]
  · simp [sign]
    omega

theorem isZero_iff (finite : x.IsFinite) : x.isZero = true ↔ x.units = 0 := by
  obtain ⟨m, g, form, -⟩ := form_of_isFinite finite
  have positive := mul_two_pow_eq_zero_iff m g
  rw [units_eq form, isZero, form]
  generalize m * 2 ^ g = u at *
  cases x.negative <;> simp [sign, positive]

end Binary64

namespace Quantity

/-- The quantity is above zero: a flag that counts as one, a positive integer, or a double that has
positive units or is the positive infinity. -/
def IsPositive : Quantity → Prop
  | flag b => b = true
  | whole n => 0 < n
  | real x => x.form = .infinite false ∨ x.IsFinite ∧ 0 < x.units

/-- The quantity is a double that is not a number. -/
def IsNaN : Quantity → Prop
  | real x => x.isNaN = true
  | _ => False

/-- What is neither zero nor below it is above it, or it is not a number. -/
theorem isAtMostZero_eq_false_iff (q : Quantity) :
    q.isAtMostZero = false ↔ q.IsPositive ∨ q.IsNaN := by
  cases q with
  | flag b => simp [isAtMostZero, IsPositive, IsNaN]
  | whole n => simp [isAtMostZero, IsPositive, IsNaN]
  | real x =>
    rw [isAtMostZero, IsPositive, IsNaN, Bool.or_eq_false_iff]
    by_cases finite : x.IsFinite
    · have number := (Binary64.isFinite_iff.1 finite).2
      obtain ⟨m, g, form, -⟩ := Binary64.form_of_isFinite finite
      rw [← Bool.not_eq_true, ← Bool.not_eq_true, Binary64.isBelowZero_iff finite,
        Binary64.isZero_iff finite]
      simp only [form, finite, number, reduceCtorEq, false_or, true_and, or_false,
        Bool.false_eq_true]
      omega
    · have ended : x.field = 2047 := Decidable.not_not.1 finite
      by_cases none : x.fraction = 0 <;>
        simp [Binary64.isBelowZero, Binary64.isZero, Binary64.isNaN, Binary64.form, ended, none,
          finite]

/-- What is not a number is not above zero. -/
theorem IsNaN.not_isPositive {q : Quantity} (h : q.IsNaN) : ¬ q.IsPositive := by
  cases q with
  | flag b => exact h.elim
  | whole n => exact h.elim
  | real x =>
    rintro (infinite | ⟨finite, -⟩)
    · simp [IsNaN, Binary64.isNaN, infinite] at h
    · exact Bool.false_ne_true ((Binary64.isFinite_iff.1 finite).2.symm.trans h)

end Quantity

end Footage.Number
