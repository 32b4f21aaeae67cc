import Footage.Number.Binary64

/-!
# Doubles as multiples of the smallest one

Every finite double is a multiple of the smallest positive one, which is `2 ^ -1074`
(`Binary64.units`).  So for a quotient that is such a multiple, too, the distances to the doubles
are natural numbers, and it can be said without fractions which double is the nearest one, a tie
going to the even significand (`Binary64.IsClosest`).  There is only one (`IsClosest.units_eq`).

`Binary64.isClosest_ofRatio` states that `Binary64.ofRatio` finds this double for every such
quotient by a power of two, unless the quotient is rounded to a power of two beyond the doubles.
Next to a number of units `u` the doubles are `spacing u` units apart, and the nearest one is the
multiple of the spacing by the rounded quotient `steps u`.
-/

namespace Footage.Number

/-! ### Rounding a quotient -/

variable {num den : Nat}

theorem roundDiv_mul_mul {scale : Nat} (pos : 0 < scale) :
    roundDiv (num * scale) (den * scale) = roundDiv num den := by
  have quotient : num * scale / (den * scale) = num / den := Nat.mul_div_mul_right num den pos
  have rest : num * scale % (den * scale) = num % den * scale := Nat.mul_mod_mul_right scale num den
  have less : 2 * (num % den * scale) < den * scale ↔ 2 * (num % den) < den := by
    rw [← Nat.mul_assoc, Nat.mul_lt_mul_right pos]
  have more : den * scale < 2 * (num % den * scale) ↔ den < 2 * (num % den) := by
    rw [← Nat.mul_assoc, Nat.mul_lt_mul_right pos]
  simp only [roundDiv, quotient, rest, less, more]

/-- How far a multiple of the denominator is from the numerator. -/
def gap (num den : Nat) (j : Int) : Nat := (j * den - num).natAbs

/-- The rounded quotient is at most half a unit away. -/
theorem two_mul_gap_roundDiv_le (num : Nat) (pos : 0 < den) :
    2 * gap num den (roundDiv num den) ≤ den := by
  have high := roundDiv_le num den
  have low := le_roundDiv num pos
  rw [Nat.mul_assoc, Nat.mul_comm den] at high low
  rw [gap, ← Int.natCast_mul]
  omega

/-- When the rounded quotient is just half a unit away, there is a tie. -/
theorem tie_of_two_mul_gap_roundDiv_eq (pos : 0 < den)
    (h : 2 * gap num den (roundDiv num den) = den) : 2 * (num % den) = den := by
  have split := Nat.div_add_mod' num den
  have less := Nat.mod_lt num pos
  -- The rounded quotient is one of the two naturals next to it.
  have next : roundDiv num den = num / den ∨ roundDiv num den = num / den + 1 := by
    unfold roundDiv
    grind
  rw [gap, ← Int.natCast_mul] at h
  rcases next with low | high
  · rw [low] at h
    omega
  · rw [high, Nat.add_one_mul (num / den)] at h
    omega

/-- No multiple of the denominator is nearer to the numerator than that of the rounded quotient, and
another one is as near only if the rounded quotient is even. -/
theorem roundDiv_nearest (num : Nat) (pos : 0 < den) {j : Int} (ne : j ≠ roundDiv num den) :
    gap num den (roundDiv num den) ≤ gap num den j ∧
      (gap num den j = gap num den (roundDiv num den) → roundDiv num den % 2 = 0) := by
  have half := two_mul_gap_roundDiv_le num pos
  have apart : den ≤ ((j - roundDiv num den) * den).natAbs := by
    rw [Int.natAbs_mul, Int.natAbs_natCast]
    exact Nat.le_mul_of_pos_left den (by omega)
  have sum : gap num den j =
      ((j - roundDiv num den) * den + (roundDiv num den * den - num)).natAbs := by
    rw [gap, Int.sub_mul]
    congr 1
    omega
  have far : den ≤ gap num den j + gap num den (roundDiv num den) := by
    rw [sum, gap]
    omega
  refine ⟨by omega, fun equal => roundDiv_tie (tie_of_two_mul_gap_roundDiv_eq pos (by omega))⟩

theorem gap_roundDiv_le (num : Nat) (pos : 0 < den) (j : Int) :
    gap num den (roundDiv num den) ≤ gap num den j := by
  by_cases same : j = roundDiv num den
  · exact same ▸ Nat.le_refl _
  · exact (roundDiv_nearest num pos same).1

/-- The rounded quotient reaches an even natural as soon as the quotient is half a unit below. -/
theorem le_roundDiv_iff (pos : 0 < den) {b : Nat} (even : b % 2 = 0) :
    b ≤ roundDiv num den ↔ 2 * (b * den) ≤ 2 * num + den := by
  have half := two_mul_gap_roundDiv_le num pos
  constructor
  · intro le
    have more := Nat.mul_le_mul_right den le
    rw [gap, ← Int.natCast_mul] at half
    omega
  · intro near
    rcases Nat.lt_or_ge (roundDiv num den) b with less | le
    · -- Just half a unit is missing, so there is a tie, and it did not go to the even natural.
      have fewer := Nat.mul_le_mul_right den less
      rw [Nat.succ_mul] at fewer
      have tie : 2 * gap num den (roundDiv num den) = den := by
        rw [gap, ← Int.natCast_mul] at half ⊢
        omega
      have odd := roundDiv_tie (tie_of_two_mul_gap_roundDiv_eq pos tie)
      have few := Nat.mul_le_mul_right den (show roundDiv num den + 2 ≤ b by omega)
      rw [Nat.add_mul] at few
      rw [gap, ← Int.natCast_mul] at half
      omega
    · exact le

namespace Binary64

/-! ### Finite doubles -/

/-- The double is neither an infinity nor not a number. -/
def IsFinite (x : Binary64) : Prop := x.field ≠ 2047

instance (x : Binary64) : Decidable x.IsFinite := inferInstanceAs (Decidable (_ ≠ _))

theorem isFinite_iff {x : Binary64} : x.IsFinite ↔ x.isInfinite = false ∧ x.isNaN = false := by
  simp only [IsFinite, isInfinite, isNaN, form]
  by_cases h : x.field = 2047
  · by_cases hf : x.fraction = 0 <;> simp [h, hf]
  · by_cases hz : x.field = 0 <;> simp [h, hz]

/-- The significand of a finite double. -/
def significand (x : Binary64) : Nat :=
  match x.form with
  | .finite _ m _ => m
  | _ => 0

/-- The sign of a double, from whether it is negative. -/
def sign (s : Bool) : Int := if s then -1 else 1

theorem natAbs_sign_mul (s : Bool) (i : Int) : (sign s * i).natAbs = i.natAbs := by
  cases s <;> simp [sign]

theorem sign_mul_sign_mul (s : Bool) (i : Int) : sign s * (sign s * i) = i := by
  cases s <;> simp [sign]

/-- A finite double as a multiple of the smallest positive one, which is `2 ^ -1074`. -/
def units (x : Binary64) : Int :=
  match x.form with
  | .finite s m e => sign s * (m * 2 ^ (e + 1074).toNat : Nat)
  | _ => 0

/-- How often the smallest positive double goes into one. -/
def unitsOfOne : Nat := 2 ^ 1074

theorem unitsOfOne_pos : 0 < unitsOfOne := by
  rw [unitsOfOne]
  exact Nat.two_pow_pos 1074

/-- The numbers that a finite double has as its significand and as its power of two. -/
structure IsEncoded (m g : Nat) : Prop where
  lt : m < 2 ^ 53
  normal : g ≠ 0 → 2 ^ 52 ≤ m
  top : g < 2046

theorem form_of_isFinite {x : Binary64} (h : x.IsFinite) :
    ∃ m g : Nat, x.form = .finite x.negative m ((g : Int) - 1074) ∧ IsEncoded m g := by
  have below : x.fraction < 2 ^ 52 := Nat.mod_lt _ (by omega)
  by_cases hz : x.field = 0
  · refine ⟨x.fraction, 0, ?_, by omega, nofun, by omega⟩
    rw [form, if_neg h, if_pos hz]
    rfl
  · have field : x.field < 2048 := Nat.mod_lt _ (by omega)
    have finite : x.field ≠ 2047 := h
    refine ⟨2 ^ 52 + x.fraction, x.field - 1, ?_, by omega, fun _ => by omega, by omega⟩
    rw [form, if_neg h, if_neg hz]
    congr 1
    omega

theorem units_eq {x : Binary64} {s : Bool} {m g : Nat}
    (h : x.form = .finite s m ((g : Int) - 1074)) :
    x.units = sign s * (m * 2 ^ g : Nat) := by
  have up : ((g : Int) - 1074 + 1074).toNat = g := by omega
  simp only [units, h, up]

/-- A double that is large enough is a multiple of a given power of two. -/
theorem lt_or_dvd_units {x : Binary64} (h : x.IsFinite) (g : Nat) :
    x.units.natAbs < 2 ^ 52 * 2 ^ g ∨ 2 ^ g ∣ x.units.natAbs := by
  obtain ⟨m, g', form, encoded⟩ := form_of_isFinite h
  have abs : x.units.natAbs = m * 2 ^ g' := by
    rw [units_eq form, natAbs_sign_mul, Int.natAbs_natCast]
  rw [abs]
  by_cases le : g ≤ g'
  · exact .inr (Nat.dvd_mul_left_of_dvd (Nat.pow_dvd_pow 2 le) m)
  · refine .inl ?_
    calc m * 2 ^ g' < 2 ^ 53 * 2 ^ g' := Nat.mul_lt_mul_of_pos_right encoded.lt (Nat.two_pow_pos g')
      _ = 2 ^ 52 * 2 ^ (g' + 1) := by rw [Nat.pow_succ 2 g', Nat.mul_comm (2 ^ g'), ← Nat.mul_assoc]
      _ ≤ 2 ^ 52 * 2 ^ g := Nat.mul_le_mul_left _ (Nat.pow_le_pow_right (by omega) (by omega))

/-! ### The spacing of the doubles -/

/-- The power of two that the doubles next to so many units are multiples of. -/
def scale (u : Nat) : Nat := u.log2 - 52

/-- How far apart the doubles next to so many units are. -/
def spacing (u : Nat) : Nat := 2 ^ scale u

/-- How many times the spacing so many units are, rounded. -/
def steps (u : Nat) : Nat := roundDiv u (spacing u)

variable {u k : Nat}

theorem spacing_pos (u : Nat) : 0 < spacing u := Nat.two_pow_pos _

/-- Where the spacing is not the least one, significands have 53 bits. -/
theorem mul_spacing_le (h : scale u ≠ 0) : 2 ^ 52 * spacing u ≤ u := by
  have wide : 52 + scale u = u.log2 := by
    unfold scale at *
    omega
  rw [spacing, ← Nat.pow_add 2 52, wide]
  refine Nat.log2_self_le ?_
  rintro rfl
  exact h (by decide)

theorem lt_mul_spacing (u : Nat) : u < 2 ^ 53 * spacing u := by
  have le : u.log2 + 1 ≤ 53 + scale u := by
    unfold scale
    omega
  rw [spacing, ← Nat.pow_add 2 53]
  exact Nat.lt_of_lt_of_le Nat.lt_log2_self (Nat.pow_le_pow_right (by decide) le)

theorem le_steps (h : scale u ≠ 0) : 2 ^ 52 ≤ steps u := by
  have low := mul_spacing_le h
  rw [steps, le_roundDiv_iff (spacing_pos u) (by decide)]
  omega

/-- The significand may be the power of two beyond 53 bits. -/
theorem steps_le (u : Nat) : steps u ≤ 2 ^ 53 := by
  have half := two_mul_gap_roundDiv_le u (spacing_pos u)
  have high := lt_mul_spacing u
  rcases Nat.lt_or_ge (2 ^ 53) (steps u) with more | le
  · have much := Nat.mul_le_mul_right (spacing u) more
    rw [Nat.succ_mul] at much
    rw [gap, ← Int.natCast_mul, ← steps] at half
    omega
  · exact le

/-! ### Quotients that are so many units -/

variable {num : Nat}

theorem log2_mul_two_pow {n : Nat} (pos : 0 < n) (k : Nat) : (n * 2 ^ k).log2 = n.log2 + k := by
  rw [Nat.log2_eq_iff (Nat.mul_ne_zero (by omega) (by simp)), Nat.add_right_comm, Nat.pow_add,
    Nat.pow_add]
  exact ⟨Nat.mul_le_mul_right _ (Nat.log2_self_le (by omega)),
    Nat.mul_lt_mul_of_pos_right Nat.lt_log2_self (Nat.two_pow_pos k)⟩

theorem log2_mul_unitsOfOne {n : Nat} (pos : 0 < n) : (n * unitsOfOne).log2 = n.log2 + 1074 := by
  rw [unitsOfOne]
  generalize 1074 = k
  exact log2_mul_two_pow pos k

theorem two_pow_mul_unitsOfOne (k : Nat) : 2 ^ k * unitsOfOne = 2 ^ (k + 1074) := by
  rw [Nat.pow_add, unitsOfOne]

/-- A power of two that is a whole number is so many ones. -/
theorem two_pow_eq_mul {g : Nat} (h : 0 ≤ (g : Int) - 1074) :
    2 ^ g = 2 ^ ((g : Int) - 1074).toNat * unitsOfOne := by
  rw [two_pow_mul_unitsOfOne, show ((g : Int) - 1074).toNat + 1074 = g by omega]

/-- One is so many times a power of two that is not a whole number. -/
theorem unitsOfOne_eq_mul {g : Nat} (h : ¬ 0 ≤ (g : Int) - 1074) :
    unitsOfOne = 2 ^ (-((g : Int) - 1074)).toNat * 2 ^ g := by
  rw [← Nat.pow_add, show (-((g : Int) - 1074)).toNat + g = 1074 by omega, unitsOfOne]

theorem unitExponent_two_pow (pos : 0 < num) (eq : u * 2 ^ k = num * unitsOfOne) :
    unitExponent num (2 ^ k) = (scale u : Int) - 1074 := by
  have upos : 0 < u := by
    refine Nat.pos_of_ne_zero ?_
    rintro rfl
    have := Nat.mul_pos pos unitsOfOne_pos
    omega
  have bits : u.log2 + k = num.log2 + 1074 := by
    rw [← log2_mul_two_pow upos, eq, log2_mul_unitsOfOne pos]
  have low : 2 ^ num.log2 ≤ num := Nat.log2_self_le (by omega)
  have wide : if 0 ≤ (num.log2 : Int) - k - 53
      then 2 ^ k * 2 ^ ((num.log2 : Int) - k - 53).toNat * 2 ^ 53 ≤ num
      else 2 ^ k * 2 ^ 53 ≤ num * 2 ^ (-((num.log2 : Int) - k - 53)).toNat := by
    split
    · rwa [← Nat.pow_add, ← Nat.pow_add,
        show k + ((num.log2 : Int) - k - 53).toNat + 53 = num.log2 by omega]
    · have more := Nat.mul_le_mul_right (2 ^ (-((num.log2 : Int) - k - 53)).toNat) low
      rwa [← Nat.pow_add, show num.log2 + (-((num.log2 : Int) - k - 53)).toNat = k + 53 by omega,
        Nat.pow_add] at more
  unfold unitExponent scale
  dsimp only
  rw [Nat.log2_two_pow, if_pos wide]
  omega

theorem scaled_two_pow (eq : u * 2 ^ k = num * unitsOfOne) (g : Nat) :
    scaled num (2 ^ k) ((g : Int) - 1074) = roundDiv u (2 ^ g) := by
  -- Both are the quotient of `num * 2 ^ 1074` by `2 ^ (g + k)`.
  have reduced : roundDiv (u * 2 ^ k) (2 ^ g * 2 ^ k) = roundDiv u (2 ^ g) :=
    roundDiv_mul_mul (Nat.two_pow_pos k)
  rw [← reduced, eq, Nat.mul_comm (2 ^ g), scaled]
  split
  · next whole => rw [two_pow_eq_mul whole, ← Nat.mul_assoc, roundDiv_mul_mul unitsOfOne_pos]
  · next fraction =>
    rw [unitsOfOne_eq_mul fraction, ← Nat.mul_assoc, roundDiv_mul_mul (Nat.two_pow_pos g)]

/-- The bits of the double that so many units are rounded to. -/
theorem roundedMagnitude_two_pow (eq : u * 2 ^ k = num * unitsOfOne) :
    roundedMagnitude num (2 ^ k) = min infinityMagnitude (scale u * 2 ^ 52 + steps u) := by
  unfold roundedMagnitude
  split
  · next zero =>
    obtain rfl : u = 0 := by
      rw [zero, Nat.zero_mul] at eq
      exact (Nat.mul_eq_zero.1 eq).resolve_right (Nat.ne_of_gt (Nat.two_pow_pos k))
    decide
  · next nonzero =>
    have normal : scale u ≠ 0 → 2 ^ 52 ≤ steps u := le_steps
    dsimp only
    rw [unitExponent_two_pow (Nat.pos_of_ne_zero nonzero) eq, scaled_two_pow eq, ← spacing, ← steps]
    congr 1
    split <;> omega

/-- The bits of a finite double are those of its field and its fraction. -/
theorem parts_ofMagnitude (s : Bool) {magnitude : Nat} (h : magnitude < 2 ^ 63) :
    (ofMagnitude s magnitude).negative = s ∧
      (ofMagnitude s magnitude).field = magnitude / 2 ^ 52 ∧
      (ofMagnitude s magnitude).fraction = magnitude % 2 ^ 52 := by
  cases s <;> simp [ofMagnitude, negative, field, fraction] <;> omega

theorem roundedMagnitude_le (num den : Nat) : roundedMagnitude num den ≤ infinityMagnitude := by
  unfold roundedMagnitude
  split
  · exact Nat.zero_le _
  · exact Nat.min_le_left _ _

theorem negative_ofRatio (s : Bool) (num den : Nat) : (ofRatio s num den).negative = s :=
  (parts_ofMagnitude s (Nat.lt_of_le_of_lt (roundedMagnitude_le num den) (by decide))).1

/-- The double with such bits is as many units as they say, and its significand has the same
parity. -/
theorem form_ofMagnitude (s : Bool) {g m : Nat} (low : g ≠ 0 → 2 ^ 52 ≤ m) (high : m ≤ 2 ^ 53)
    (fits : g * 2 ^ 52 + m < infinityMagnitude) :
    ∃ m' g' : Nat, (ofMagnitude s (g * 2 ^ 52 + m)).form = .finite s m' ((g' : Int) - 1074) ∧
      m' * 2 ^ g' = m * 2 ^ g ∧ m' % 2 = m % 2 := by
  have small : g * 2 ^ 52 + m < 2047 * 2 ^ 52 := fits
  obtain ⟨negative, field, fraction⟩ :=
    parts_ofMagnitude s (show g * 2 ^ 52 + m < 2 ^ 63 by omega)
  by_cases full : m = 2 ^ 53
  · -- One bit more: the significand is the least one of the next exponent.
    have top : (ofMagnitude s (g * 2 ^ 52 + m)).field = g + 2 := by omega
    have rest : (ofMagnitude s (g * 2 ^ 52 + m)).fraction = 0 := by omega
    refine ⟨2 ^ 52, g + 1, ?_, ?_, ?_⟩
    · rw [form, if_neg (by omega), if_neg (by omega), negative, rest, top, Form.finite.injEq]
      exact ⟨rfl, Nat.add_zero _, by omega⟩
    · rw [full, Nat.pow_succ 2 g, Nat.mul_comm (2 ^ g), ← Nat.mul_assoc]
    · rw [full]
  · rcases Nat.lt_or_ge m (2 ^ 52) with subnormal | normal
    · obtain rfl : g = 0 := Nat.eq_zero_of_not_pos fun positive =>
        Nat.not_le.2 subnormal (low (Nat.ne_of_gt positive))
      have bottom : (ofMagnitude s (0 * 2 ^ 52 + m)).field = 0 := by omega
      have rest : (ofMagnitude s (0 * 2 ^ 52 + m)).fraction = m := by omega
      refine ⟨m, 0, ?_, rfl, rfl⟩
      rw [form, if_neg (by omega), if_pos bottom, negative, rest, Form.finite.injEq]
      exact ⟨rfl, rfl, rfl⟩
    · have top : (ofMagnitude s (g * 2 ^ 52 + m)).field = g + 1 := by omega
      have rest : (ofMagnitude s (g * 2 ^ 52 + m)).fraction = m - 2 ^ 52 := by omega
      refine ⟨m, g, ?_, rfl, rfl⟩
      rw [form, if_neg (by omega), if_neg (by omega), negative, rest, top, Form.finite.injEq]
      exact ⟨rfl, by omega, by omega⟩

/-- The double of so many units, where there is one: what it is a multiple of, and whether its
significand is even. -/
theorem form_ofRatio (s : Bool) (eq : u * 2 ^ k = num * unitsOfOne)
    (fits : roundedMagnitude num (2 ^ k) ≠ infinityMagnitude) :
    ∃ m g : Nat, (ofRatio s num (2 ^ k)).form = .finite s m ((g : Int) - 1074) ∧
      m * 2 ^ g = steps u * spacing u ∧ m % 2 = steps u % 2 := by
  have magnitude := roundedMagnitude_two_pow eq
  have small : scale u * 2 ^ 52 + steps u < infinityMagnitude := by omega
  rw [Nat.min_eq_right (Nat.le_of_lt small)] at magnitude
  rw [ofRatio, magnitude]
  exact form_ofMagnitude s le_steps (steps_le u) small

/-- So many units have no double just if their bits are those of the infinity. -/
theorem isInfinite_ofRatio (s : Bool) (eq : u * 2 ^ k = num * unitsOfOne) :
    (ofRatio s num (2 ^ k)).isInfinite = true ↔
      roundedMagnitude num (2 ^ k) = infinityMagnitude := by
  constructor
  · intro infinite
    by_cases fits : roundedMagnitude num (2 ^ k) = infinityMagnitude
    · exact fits
    · obtain ⟨m, g, form, -⟩ := form_ofRatio s eq fits
      simp [isInfinite, form] at infinite
  · intro full
    rw [ofRatio, full]
    cases s <;> decide

/-! ### The closest double -/

/-- How many units lie between a finite double and a number of units. -/
def away (target : Int) (x : Binary64) : Nat := (x.units - target).natAbs

/-- The double that is closest to a number of units: no finite double is nearer, and another one is
as near only if this one has an even significand. -/
structure IsClosest (target : Int) (x : Binary64) : Prop where
  finite : x.IsFinite
  nearest : ∀ y : Binary64, y.IsFinite → away target x ≤ away target y
  even : ∀ y : Binary64, y.IsFinite → y.units ≠ x.units → away target y = away target x →
    x.significand % 2 = 0

/-- The distance, seen from the positive side. -/
theorem away_sign_mul (s : Bool) (target : Int) (x : Binary64) :
    away (sign s * target) x = (sign s * x.units - target).natAbs := by
  rw [away, ← natAbs_sign_mul s, Int.mul_sub, sign_mul_sign_mul]

/-- A double that is a multiple of the spacing is as far away as this multiple; every other one is
farther away than some multiple. -/
theorem le_away (s : Bool) (u : Nat) {y : Binary64} (finite : y.IsFinite) :
    (∃ j : Int, sign s * y.units = j * spacing u ∧
      away (sign s * u) y = gap u (spacing u) j) ∨
    gap u (spacing u) (2 ^ 52) < away (sign s * u) y := by
  rw [away_sign_mul]
  have abs := natAbs_sign_mul s y.units
  by_cases multiple : spacing u ∣ y.units.natAbs
  · refine .inl ?_
    rw [← abs, ← Int.natCast_dvd_natCast, Int.dvd_natAbs] at multiple
    obtain ⟨j, eq⟩ := multiple
    refine ⟨j, by rw [eq, Int.mul_comm], ?_⟩
    rw [eq, gap, Int.mul_comm]
  · refine .inr ?_
    have less := (lt_or_dvd_units finite (scale u)).resolve_right multiple
    have low : 2 ^ 52 * spacing u ≤ u := by
      refine mul_spacing_le fun zero => multiple ?_
      rw [spacing, zero]
      exact Nat.one_dvd _
    rw [← spacing, ← abs] at less
    rw [gap, show ((2 : Int) ^ 52) = ((2 ^ 52 : Nat) : Int) from rfl, ← Int.natCast_mul]
    omega

/-- **The rounded quotient is the closest double**, if there is one that it can be rounded to. -/
theorem isClosest_ofRatio (s : Bool) (eq : u * 2 ^ k = num * unitsOfOne)
    (fits : roundedMagnitude num (2 ^ k) ≠ infinityMagnitude) :
    IsClosest (sign s * u) (ofRatio s num (2 ^ k)) := by
  obtain ⟨m, g, form, value, parity⟩ := form_ofRatio s eq fits
  have units : sign s * (ofRatio s num (2 ^ k)).units = (steps u : Int) * spacing u := by
    rw [units_eq form, value, sign_mul_sign_mul, Int.natCast_mul]
  have here : away (sign s * u) (ofRatio s num (2 ^ k)) = gap u (spacing u) (steps u) := by
    rw [away_sign_mul, units, gap]
  have nearest := gap_roundDiv_le u (spacing_pos u)
  refine ⟨?_, fun y finite => ?_, fun y finite ne tie => ?_⟩
  · rw [isFinite_iff, isInfinite, isNaN, form]
    simp
  · -- A multiple of the spacing is nearer than a double off it, and the rounded one is the nearest.
    rw [here]
    rcases le_away s u finite with ⟨j, -, there⟩ | there
    · rw [there]
      exact nearest j
    · exact Nat.le_trans (nearest (2 ^ 52)) (Nat.le_of_lt there)
  · rw [here] at tie
    rw [significand, form]
    rcases le_away s u finite with ⟨j, multiple, there⟩ | there
    · have differ : j ≠ steps u := by
        intro same
        refine ne ?_
        rw [same, ← units] at multiple
        have : sign s ≠ 0 := by cases s <;> decide
        exact Int.eq_of_mul_eq_mul_left this multiple
      have even := (roundDiv_nearest u (spacing_pos u) differ).2 (there.symm.trans tie)
      exact parity.trans even
    · exact absurd tie (Nat.ne_of_gt (Nat.lt_of_le_of_lt (nearest (2 ^ 52)) there))

/-! ### There is only one -/

theorem significand_eq {x : Binary64} {s : Bool} {m : Nat} {e : Int} (h : x.form = .finite s m e) :
    x.significand = m := by
  rw [significand, h]

/-- Between two magnitudes with even significands there is another one. -/
theorem exists_between (s : Bool) {x y : Binary64} (hx : x.IsFinite) (hy : y.IsFinite)
    (ex : x.significand % 2 = 0) (ey : y.significand % 2 = 0)
    (less : x.units.natAbs < y.units.natAbs) :
    ∃ z : Binary64, z.IsFinite ∧ ∃ u : Nat, z.units = sign s * u ∧
      x.units.natAbs < u ∧ u < y.units.natAbs := by
  obtain ⟨m, g, fx, encoded⟩ := form_of_isFinite hx
  obtain ⟨m', g', fy, encoded'⟩ := form_of_isFinite hy
  rw [significand_eq fx] at ex
  rw [significand_eq fy] at ey
  rw [units_eq fx, units_eq fy, natAbs_sign_mul, natAbs_sign_mul, Int.natAbs_natCast,
    Int.natAbs_natCast] at *
  have lt := encoded.lt
  have lt' := encoded'.lt
  have top := encoded.top
  -- The next magnitude after the lower one has an odd significand, so it is not the upper one.
  have below : (m + 1) * 2 ^ g < m' * 2 ^ g' := by
    rcases Nat.lt_trichotomy g g' with lower | rfl | higher
    · have normal := encoded'.normal (by omega)
      calc (m + 1) * 2 ^ g < 2 ^ 53 * 2 ^ g :=
            Nat.mul_lt_mul_of_pos_right (by omega) (Nat.two_pow_pos g)
        _ = 2 ^ 52 * 2 ^ (g + 1) := by
            rw [Nat.pow_succ 2 g, Nat.mul_comm (2 ^ g), ← Nat.mul_assoc]
        _ ≤ m' * 2 ^ g' := Nat.mul_le_mul normal (Nat.pow_le_pow_right (by decide) lower)
    · have := Nat.lt_of_mul_lt_mul_right less
      exact Nat.mul_lt_mul_of_pos_right (by omega) (Nat.two_pow_pos g)
    · have normal := encoded.normal (by omega)
      refine absurd less (Nat.not_lt.2 ?_)
      calc m' * 2 ^ g' ≤ 2 ^ 53 * 2 ^ g' := Nat.mul_le_mul_right _ (by omega)
        _ = 2 ^ 52 * 2 ^ (g' + 1) := by
            rw [Nat.pow_succ 2 g', Nat.mul_comm (2 ^ g'), ← Nat.mul_assoc]
        _ ≤ m * 2 ^ g := Nat.mul_le_mul normal (Nat.pow_le_pow_right (by decide) higher)
  obtain ⟨n, h, form, value, -⟩ := form_ofMagnitude s (g := g) (m := m + 1)
    (fun positive => Nat.le_succ_of_le (encoded.normal positive)) (by omega)
    (by rw [infinityMagnitude]; omega)
  refine ⟨ofMagnitude s (g * 2 ^ 52 + (m + 1)), ?_, (m + 1) * 2 ^ g, ?_, ?_, below⟩
  · rw [isFinite_iff, isInfinite, isNaN, form]
    simp
  · rw [units_eq form, value]
  · exact Nat.mul_lt_mul_of_pos_right (Nat.lt_succ_self m) (Nat.two_pow_pos g)

/-- Two doubles that are as near, of which none is nearer, have nothing between them. -/
theorem IsClosest.not_between {target : Int} {x y z : Binary64} (h : IsClosest target x)
    (hz : z.IsFinite) (tie : away target y = away target x) (low : x.units < z.units)
    (high : z.units < y.units) : False := by
  have nearest := h.nearest z hz
  unfold away at *
  omega

theorem IsClosest.not_units_lt {target : Int} {x y : Binary64} (h : IsClosest target x)
    (h' : IsClosest target y) : ¬ x.units < y.units := by
  intro less
  have tie : away target y = away target x :=
    Nat.le_antisymm (h'.nearest x h.finite) (h.nearest y h'.finite)
  have ex := h.even y h'.finite (by omega) tie
  have ey := h'.even x h.finite (by omega) tie.symm
  by_cases positive : 0 ≤ x.units
  · obtain ⟨z, hz, u, value, low, high⟩ :=
      exists_between false h.finite h'.finite ex ey (by omega)
    rw [sign, if_neg Bool.false_ne_true] at value
    exact h.not_between hz tie (by omega) (by omega)
  · by_cases negative : y.units ≤ 0
    · obtain ⟨z, hz, u, value, low, high⟩ :=
        exists_between true h'.finite h.finite ey ex (by omega)
      rw [sign, if_pos rfl] at value
      exact h.not_between hz tie (by omega) (by omega)
    · have none : (zero false).units = 0 := by decide
      exact h.not_between (z := zero false) (by decide) tie (by omega) (by omega)

/-- **The closest double is unique**, but for the sign of zero. -/
theorem IsClosest.units_eq {target : Int} {x y : Binary64} (h : IsClosest target x)
    (h' : IsClosest target y) : x.units = y.units :=
  Int.le_antisymm (Int.not_lt.1 (h'.not_units_lt h)) (Int.not_lt.1 (h.not_units_lt h'))

end Binary64

end Footage.Number
