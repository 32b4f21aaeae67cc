import Footage.Proofs.Number.Parts
import Footage.Proofs.Number.Sign
import Footage.Timestamp

/-!
# Durations

What a duration in seconds comes to in whole microseconds (`Lasts`): a whole second is a million of
them, and the fraction of a double is first taken to the closest double of microseconds and this to
the nearest natural number, the even one of two.  Just what is a number, finite and not negative
lasts at all (`lasts_iff`), and for one time only (`Lasts.unique`).  `microseconds_of_lasts` states
that this is what a duration is converted to.
-/

namespace Footage.Timestamp

open Number (Quantity Binary64)
open Number.Binary64 (IsClosest away unitsOfOne unitsOfOne_pos)

/-- The natural number nearest to a finite double, the even one if two are as near. -/
structure IsRounded (x : Binary64) (n : Nat) : Prop where
  near : 2 * away (n * unitsOfOne) x ≤ unitsOfOne
  even : 2 * away (n * unitsOfOne) x = unitsOfOne → n % 2 = 0

/-- How many microseconds so many seconds last.  A finite double consists of whole ones and a rest;
a million times the rest is rounded to a double, and this to a natural number. -/
inductive Lasts : Quantity → Nat → Prop
  | flag (b : Bool) : Lasts (.flag b) (b.toNat * 1000000)
  | whole (n : Nat) : Lasts (.whole n) (n * 1000000)
  | real {x product : Binary64} {whole rest micro : Nat} : x.IsFinite →
      x.units = (whole * unitsOfOne + rest : Nat) → rest < unitsOfOne →
      IsClosest (1000000 * rest : Nat) product → IsRounded product micro →
      Lasts (.real x) (whole * 1000000 + micro)

/-- The quantity is a number that is finite and not negative. -/
def IsDuration : Quantity → Prop
  | .flag _ => True
  | .whole n => 0 ≤ n
  | .real x => x.IsFinite ∧ 0 ≤ x.units

/-- The quantity lies below zero. -/
def IsNegative : Quantity → Prop
  | .flag _ => False
  | .whole n => n < 0
  | .real x => x.form = .infinite true ∨ x.IsFinite ∧ x.units < 0

variable {q : Quantity} {D : Nat}

/-! ### There is only one number of microseconds -/

theorem IsRounded.not_lt {x y : Binary64} {m n : Nat} (h : IsRounded x m) (h' : IsRounded y n)
    (same : x.units = y.units) : ¬ m < n := by
  intro less
  obtain ⟨near, even⟩ := h
  obtain ⟨near', even'⟩ := h'
  unfold away at *
  rw [same] at near even
  -- Different multiples of one are at least one apart, so both are just half a unit away.
  have apart := Nat.mul_le_mul_right unitsOfOne less
  rw [Nat.succ_mul] at apart
  have next : n = m + 1 := by
    refine Nat.eq_of_mul_eq_mul_right unitsOfOne_pos ?_
    rw [Nat.succ_mul]
    omega
  have := even (by omega)
  have := even' (by omega)
  omega

theorem IsRounded.unique {x y : Binary64} {m n : Nat} (h : IsRounded x m) (h' : IsRounded y n)
    (same : x.units = y.units) : m = n :=
  Nat.le_antisymm (Nat.not_lt.1 (h'.not_lt h same.symm)) (Nat.not_lt.1 (h.not_lt h' same))

theorem eq_of_mul_add_eq {unit m n r r' : Nat} (less : r < unit) (less' : r' < unit)
    (same : m * unit + r = n * unit + r') : m = n ∧ r = r' := by
  have pos := Nat.zero_lt_of_lt less
  have quotient (k : Nat) {s : Nat} (small : s < unit) : (k * unit + s) / unit = k := by
    rw [Nat.mul_comm, Nat.mul_add_div pos, Nat.div_eq_of_lt small, Nat.add_zero]
  obtain rfl : m = n := by rw [← quotient m less, same, quotient n less']
  exact ⟨rfl, Nat.add_left_cancel same⟩

/-- **A duration lasts for one time only.** -/
theorem Lasts.unique {D' : Nat} (h : Lasts q D) (h' : Lasts q D') : D = D' := by
  cases h with
  | flag => cases h'; rfl
  | whole => cases h'; rfl
  | real finite split less closest rounded =>
    cases h' with
    | real finite' split' less' closest' rounded' =>
      have same := Int.natCast_inj.1 (split.symm.trans split')
      obtain ⟨rfl, rfl⟩ := eq_of_mul_add_eq less less' same
      rw [rounded.unique rounded' (closest.units_eq closest')]

/-! ### What a duration is converted to -/

/-- The rounded quotient by the units of one is the nearest natural number. -/
theorem isRounded_roundDiv {x : Binary64} {u : Nat} (h : x.units = u) :
    IsRounded x (Number.roundDiv u unitsOfOne) := by
  have eq : away (Number.roundDiv u unitsOfOne * unitsOfOne) x =
      Number.gap u unitsOfOne (Number.roundDiv u unitsOfOne) := by
    rw [away, Number.gap, h, ← Int.natAbs_neg, Int.neg_sub]
  refine ⟨?_, fun tie => ?_⟩
  · rw [eq]
    exact Number.two_mul_gap_roundDiv_le u unitsOfOne_pos
  · rw [eq] at tie
    exact Number.roundDiv_tie (Number.tie_of_two_mul_gap_roundDiv_eq unitsOfOne_pos tie)

theorem exists_lasts_real {x : Binary64} (finite : x.IsFinite) (nonneg : 0 ≤ x.units) :
    ∃ D, microseconds (.real x) = .ok D ∧ Lasts (.real x) D := by
  obtain ⟨m, g, form, -⟩ := Binary64.form_of_isFinite finite
  have units : x.units = (m * 2 ^ g : Nat) := by
    have abs : x.units.natAbs = m * 2 ^ g := by
      rw [Binary64.units_eq form, Binary64.natAbs_sign_mul, Int.natAbs_natCast]
    omega
  obtain ⟨closest, positive⟩ := Binary64.isClosest_scaledFraction m g
    (show 1000000 ≤ 2 ^ 20 by decide) (by decide)
  obtain ⟨m', g', form', -⟩ := Binary64.form_of_isFinite closest.finite
  have product := Binary64.units_eq form'
  rw [positive, Binary64.sign, if_neg Bool.false_ne_true, Int.one_mul] at product
  refine ⟨_, ?_, .real finite (units.trans (congrArg Nat.cast (Nat.div_add_mod' _ _).symm))
    (Nat.mod_lt _ unitsOfOne_pos) closest (isRounded_roundDiv product)⟩
  simp only [microseconds, form, form', Binary64.wholePart_eq, Binary64.roundedPart_eq]

theorem exists_lasts (h : IsDuration q) : ∃ D, microseconds q = .ok D ∧ Lasts q D := by
  cases q with
  | flag b => exact ⟨_, by cases b <;> rfl, .flag b⟩
  | whole n =>
    obtain ⟨n, rfl⟩ := Int.eq_ofNat_of_zero_le h
    exact ⟨_, rfl, .whole n⟩
  | real x => exact exists_lasts_real h.1 h.2

theorem Lasts.isDuration (h : Lasts q D) : IsDuration q := by
  cases h with
  | flag => trivial
  | whole n => exact Int.natCast_nonneg n
  | real finite split => exact ⟨finite, split ▸ Int.natCast_nonneg _⟩

/-- **Just what is a number, finite and not negative lasts for some time.** -/
theorem lasts_iff : (∃ D, Lasts q D) ↔ IsDuration q := by
  constructor
  · rintro ⟨D, lasts⟩
    exact lasts.isDuration
  · intro h
    obtain ⟨D, -, lasts⟩ := exists_lasts h
    exact ⟨D, lasts⟩

theorem microseconds_of_lasts (h : Lasts q D) : microseconds q = .ok D := by
  obtain ⟨D', converted, lasts⟩ := exists_lasts h.isDuration
  rwa [h.unique lasts]

/-! ### What is taken as a duration -/

theorem isBelowZero_iff_isNegative (q : Quantity) : q.isBelowZero = true ↔ IsNegative q := by
  cases q with
  | flag b => simp [Quantity.isBelowZero, IsNegative]
  | whole n => simp [Quantity.isBelowZero, IsNegative]
  | real x =>
    rw [Quantity.isBelowZero, IsNegative]
    by_cases finite : x.IsFinite
    · obtain ⟨m, g, form, -⟩ := Binary64.form_of_isFinite finite
      simp [Binary64.isBelowZero_iff finite, form, finite]
    · have ended : x.field = 2047 := Decidable.not_not.1 finite
      by_cases none : x.fraction = 0 <;>
        simp [Binary64.isBelowZero, Binary64.form, ended, none, finite]

theorem IsDuration.not_isNegative (h : IsDuration q) : ¬ IsNegative q := by
  cases q with
  | flag b => exact id
  | whole n => exact Int.not_lt.2 h
  | real x =>
    obtain ⟨m, g, form, -⟩ := Binary64.form_of_isFinite h.1
    rw [IsNegative, form]
    rintro (infinite | ⟨-, below⟩)
    · cases infinite
    · exact Int.not_lt.2 h.2 below

theorem isBelowZero_of_isDuration (h : IsDuration q) : q.isBelowZero = false :=
  Bool.eq_false_iff.2 fun below => h.not_isNegative ((isBelowZero_iff_isNegative q).1 below)

/-- A duration is taken as it is, unless it is too long. -/
theorem duration_of_lasts (h : Lasts q D) (few : D / dayTicks ≤ mostDays) : duration q = .ok D := by
  have below := isBelowZero_of_isDuration h.isDuration
  have word : ¬ 2 ^ 31 ≤ D / dayTicks := by
    rw [mostDays] at few
    omega
  simp only [duration, below, Bool.false_eq_true, if_false, microseconds_of_lasts h, bind,
    Except.bind, if_neg word, if_neg (Nat.not_lt.2 few)]

theorem duration_of_lasts_long (h : Lasts q D) (many : mostDays < D / dayTicks) :
    ∃ e, duration q = .error e ∧ e.kind = .overflow := by
  have below := isBelowZero_of_isDuration h.isDuration
  simp only [duration, below, Bool.false_eq_true, if_false, microseconds_of_lasts h, bind,
    Except.bind, if_pos many]
  split
  · exact ⟨_, rfl, rfl⟩
  · exact ⟨_, rfl, rfl⟩

theorem duration_of_isNegative (h : IsNegative q) : duration q = .error (.negative q) := by
  rw [duration, if_pos ((isBelowZero_iff_isNegative q).2 h)]

theorem duration_of_isNaN {x : Binary64} (h : x.isNaN = true) :
    duration (.real x) = .error .notANumber := by
  have form : x.form = .nan := by simpa [Binary64.isNaN] using h
  simp [duration, Quantity.isBelowZero, Binary64.isBelowZero, microseconds, form, bind, Except.bind]

theorem duration_of_infinite {x : Binary64} (h : x.form = .infinite false) :
    duration (.real x) = .error .infinite := by
  simp [duration, Quantity.isBelowZero, Binary64.isBelowZero, microseconds, h, bind, Except.bind]

/-- What lasts for no time is refused. -/
theorem exists_duration_error (h : ¬ IsDuration q) : ∃ e, duration q = .error e := by
  cases q with
  | flag b => exact absurd trivial h
  | whole n => exact ⟨_, duration_of_isNegative (Int.not_le.1 h)⟩
  | real x =>
    cases form : x.form with
    | nan => exact ⟨_, duration_of_isNaN (by simp [Binary64.isNaN, form])⟩
    | infinite negative =>
      cases negative with
      | true => exact ⟨_, duration_of_isNegative (.inl form)⟩
      | false => exact ⟨_, duration_of_infinite form⟩
    | finite negative m e =>
      have finite : x.IsFinite :=
        Binary64.isFinite_iff.2 (by simp [Binary64.isInfinite, Binary64.isNaN, form])
      have below : x.units < 0 := Int.not_le.1 fun nonneg => h ⟨finite, nonneg⟩
      exact ⟨_, duration_of_isNegative (.inr ⟨finite, below⟩)⟩

end Footage.Timestamp
