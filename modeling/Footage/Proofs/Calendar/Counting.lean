import Footage.Calendar
import Mathlib.Algebra.Order.Group.Nat
import Mathlib.Data.Nat.Init
import Mathlib.Logic.Function.Iterate
import Mathlib.Order.Monotone.Basic

/-!
# Counting days and moments

What the calendar says is which day comes after a day (`Moment.nextDay`), and what a clock says is
which second comes after a second and which microsecond after a microsecond (`Moment.nextSecond`,
`Moment.next`).  The numbers of days and moments count just these steps: `dayNumber_nextDay`,
`Moment.seconds_nextSecond`, `Moment.ticks_next`.  No two moments have the same number
(`Moment.ticks_injective`), and every number is that of a moment (`Moment.ticks_ofTicks`), so one
moment comes so many microseconds after another one just if their numbers are so far apart
(`Moment.iterate_next_eq_iff`), and likewise for seconds (`Moment.iterate_nextSecond_eq_iff`).
-/

namespace Footage.Calendar

/-- The day exists in the years from 1 on. -/
structure IsDay (year month day : Nat) : Prop where
  begun : 1 ≤ year
  month_pos : 1 ≤ month
  month_le : month ≤ 12
  day_pos : 1 ≤ day
  day_le : day ≤ daysIn year month

/-! ### Years and months -/

theorem isLeap_iff (year : Nat) :
    isLeap year = true ↔ year % 4 = 0 ∧ (year % 100 ≠ 0 ∨ year % 400 = 0) := by
  simp [isLeap]

theorem daysIn_bounds (year month : Nat) : 28 ≤ daysIn year month ∧ daysIn year month ≤ 31 := by
  unfold daysIn
  split
  · split <;> omega
  all_goals omega

theorem daysBeforeMonth_succ (year : Nat) {month : Nat} (pos : 1 ≤ month) :
    daysBeforeMonth year (month + 1) = daysBeforeMonth year month + daysIn year month := by
  obtain ⟨m, rfl⟩ : ∃ m, month = m + 1 := ⟨month - 1, by omega⟩
  rfl

theorem daysBeforeMonth_mono (year : Nat) : Monotone (daysBeforeMonth year) := by
  refine monotone_nat_of_le_succ fun month => ?_
  rcases Nat.eq_zero_or_pos month with rfl | pos
  · exact Nat.le_refl _
  · rw [daysBeforeMonth_succ year pos]
    exact Nat.le_add_right _ _

/-- The length of a year. -/
theorem daysBeforeMonth_thirteen (year : Nat) :
    daysBeforeMonth year 13 = if isLeap year then 366 else 365 := by
  cases leap : isLeap year <;> simp [daysBeforeMonth, daysIn, leap]

theorem div_succ (n k : Nat) : (n + 1) / k = n / k + if (n + 1) % k = 0 then 1 else 0 := by
  simp only [Nat.succ_div, Nat.dvd_iff_mod_eq_zero]

/-- A year begins when all months of the one before have passed. -/
theorem daysBefore_succ {year : Nat} (pos : 1 ≤ year) :
    daysBefore (year + 1) = daysBefore year + daysBeforeMonth year 13 := by
  obtain ⟨past, rfl⟩ : ∃ past, year = past + 1 := ⟨year - 1, by omega⟩
  rw [daysBeforeMonth_thirteen]
  have fewer : past / 100 ≤ past / 4 := Nat.div_le_div_left (by omega) (by omega)
  have hundreds : (past + 1) % 100 = 0 → (past + 1) % 4 = 0 := by omega
  have fourHundreds : (past + 1) % 400 = 0 → (past + 1) % 100 = 0 := by omega
  simp only [daysBefore, isLeap_iff, Nat.add_sub_cancel, div_succ past]
  -- Of the quotients only these relations matter.
  generalize past / 4 = a at *
  generalize past / 100 = b at *
  generalize past / 400 = c at *
  generalize (past + 1) % 4 = a' at *
  generalize (past + 1) % 100 = b' at *
  generalize (past + 1) % 400 = c' at *
  split_ifs <;> omega

theorem daysBefore_mono : Monotone daysBefore := by
  refine monotone_nat_of_le_succ fun year => ?_
  rcases Nat.eq_zero_or_pos year with rfl | pos
  · exact Nat.le_refl _
  · rw [daysBefore_succ pos]
    exact Nat.le_add_right _ _

/-! ### The numbers of days -/

variable {year month day year' month' day' : Nat}

/-- A day lies before the next month. -/
theorem IsDay.lt_daysBeforeMonth (h : IsDay year month day) :
    daysBeforeMonth year month + (day - 1) < daysBeforeMonth year (month + 1) := by
  have := h.day_pos
  have := h.day_le
  rw [daysBeforeMonth_succ year h.month_pos]
  omega

/-- A day lies before the next year. -/
theorem IsDay.dayNumber_lt (h : IsDay year month day) :
    dayNumber year month day < daysBefore (year + 1) := by
  have inYear := h.lt_daysBeforeMonth
  have most := daysBeforeMonth_mono year (show month + 1 ≤ 13 from Nat.succ_le_succ h.month_le)
  rw [daysBefore_succ h.begun, dayNumber]
  omega

theorem IsDay.dayNumber_lt_of_year_lt (h : IsDay year month day) (lt : year < year') :
    dayNumber year month day < dayNumber year' month' day' := by
  have before := h.dayNumber_lt
  have later := daysBefore_mono (show year + 1 ≤ year' from lt)
  rw [dayNumber.eq_1 year']
  omega

theorem IsDay.dayNumber_lt_of_month_lt (h : IsDay year month day) (lt : month < month') :
    dayNumber year month day < dayNumber year month' day' := by
  have before := h.lt_daysBeforeMonth
  have later := daysBeforeMonth_mono year (show month + 1 ≤ month' from lt)
  rw [dayNumber, dayNumber]
  omega

/-- No two days have the same number. -/
theorem IsDay.eq_of_dayNumber_eq (h : IsDay year month day) (h' : IsDay year' month' day')
    (eq : dayNumber year month day = dayNumber year' month' day') :
    year = year' ∧ month = month' ∧ day = day' := by
  obtain rfl : year = year' := by
    rcases Nat.lt_trichotomy year year' with lt | rfl | gt
    · exact absurd eq (Nat.ne_of_lt (h.dayNumber_lt_of_year_lt lt))
    · rfl
    · exact absurd eq.symm (Nat.ne_of_lt (h'.dayNumber_lt_of_year_lt gt))
  obtain rfl : month = month' := by
    rcases Nat.lt_trichotomy month month' with lt | rfl | gt
    · exact absurd eq (Nat.ne_of_lt (h.dayNumber_lt_of_month_lt lt))
    · rfl
    · exact absurd eq.symm (Nat.ne_of_lt (h'.dayNumber_lt_of_month_lt gt))
  have := h.day_pos
  have := h'.day_pos
  rw [dayNumber, dayNumber] at eq
  exact ⟨rfl, rfl, by omega⟩

/-! ### The day with a number -/

/-- The search finds the year in which the day lies, if it begins late enough. -/
theorem yearUpTo_spec {number : Nat} (limit : Nat) (late : number < daysBefore (limit + 1)) :
    1 ≤ yearUpTo number limit ∧ daysBefore (yearUpTo number limit) ≤ number ∧
      number < daysBefore (yearUpTo number limit + 1) := by
  induction limit with
  | zero => cases late
  | succ limit ih =>
    simp only [yearUpTo]
    split
    · next begun => exact ⟨by omega, begun, late⟩
    · next ahead => exact ih (by omega)

theorem yearOf_spec (number : Nat) :
    1 ≤ yearOf number ∧ daysBefore (yearOf number) ≤ number ∧
      number < daysBefore (yearOf number + 1) := by
  refine yearUpTo_spec _ ?_
  simp only [daysBefore]
  omega

/-- The search finds the month in which a day of the year lies. -/
theorem monthFrom_spec (year more month rest : Nat) (pos : 1 ≤ month)
    (last : month + more = 12)
    (inYear : daysBeforeMonth year month + rest < daysBeforeMonth year 13) :
    ∃ month' day, monthFrom year more month rest = (month', day) ∧ month ≤ month' ∧ month' ≤ 12 ∧
      1 ≤ day ∧ day ≤ daysIn year month' ∧
      daysBeforeMonth year month' + (day - 1) = daysBeforeMonth year month + rest := by
  induction more generalizing month rest with
  | zero =>
    obtain rfl : month = 12 := by omega
    rw [daysBeforeMonth_succ year (show 1 ≤ 12 by omega)] at inYear
    exact ⟨12, rest + 1, rfl, by omega, by omega, by omega, by omega, by omega⟩
  | succ more ih =>
    simp only [monthFrom]
    split
    · exact ⟨month, rest + 1, rfl, by omega, by omega, by omega, by omega, by omega⟩
    · have next := daysBeforeMonth_succ year pos
      obtain ⟨month', day, found, low, high, dayPos, dayLe, number⟩ :=
        ih (month + 1) (rest - daysIn year month) (by omega) (by omega) (by omega)
      exact ⟨month', day, found, by omega, high, dayPos, dayLe, by omega⟩

/-- Every number is that of a day. -/
theorem ofDayNumber_spec (number : Nat) :
    ∃ year month day, ofDayNumber number = (year, month, day) ∧ IsDay year month day ∧
      dayNumber year month day = number := by
  obtain ⟨begun, low, high⟩ := yearOf_spec number
  rw [daysBefore_succ begun] at high
  have first : daysBeforeMonth (yearOf number) 1 = 0 := rfl
  obtain ⟨month, day, found, monthPos, monthLe, dayPos, dayLe, number_eq⟩ :=
    monthFrom_spec (yearOf number) 11 1 (number - daysBefore (yearOf number)) (by omega) (by omega)
      (by omega)
  refine ⟨yearOf number, month, day, ?_, ⟨begun, monthPos, monthLe, dayPos, dayLe⟩, ?_⟩
  · simp only [ofDayNumber, found]
  · rw [dayNumber]
    omega

namespace Moment

/-- The moment exists in the years from 1 on. -/
structure Exists (t : Moment) : Prop where
  day : IsDay t.year t.month t.day
  hour : t.hour < 24
  minute : t.minute < 60
  second : t.second < 60
  micro : t.micro < 1000000

theorem valid_iff (t : Moment) : t.Valid ↔ t.Exists ∧ t.year ≤ 9999 := by
  constructor
  · rintro ⟨begun, last, monthPos, monthLe, dayPos, dayLe, hour, minute, second, micro⟩
    exact ⟨⟨⟨begun, monthPos, monthLe, dayPos, dayLe⟩, hour, minute, second, micro⟩, last⟩
  · rintro ⟨⟨⟨begun, monthPos, monthLe, dayPos, dayLe⟩, hour, minute, second, micro⟩, last⟩
    exact ⟨begun, last, monthPos, monthLe, dayPos, dayLe, hour, minute, second, micro⟩

theorem Valid.toExists {t : Moment} (h : t.Valid) : t.Exists := ((valid_iff t).1 h).1

/-! ### What comes next -/

/-- The same time on the next day. -/
def nextDay (t : Moment) : Moment :=
  if t.day < daysIn t.year t.month then { t with day := t.day + 1 }
  else if t.month < 12 then { t with month := t.month + 1, day := 1 }
  else { t with year := t.year + 1, month := 1, day := 1 }

/-- One second later. -/
def nextSecond (t : Moment) : Moment :=
  if t.second < 59 then { t with second := t.second + 1 }
  else if t.minute < 59 then { t with minute := t.minute + 1, second := 0 }
  else if t.hour < 23 then { t with hour := t.hour + 1, minute := 0, second := 0 }
  else { t.nextDay with hour := 0, minute := 0, second := 0 }

/-- One microsecond later. -/
def next (t : Moment) : Moment :=
  if t.micro < 999999 then { t with micro := t.micro + 1 }
  else { t.nextSecond with micro := 0 }

variable {s t : Moment}

theorem Exists.isDay_nextDay (h : t.Exists) :
    IsDay t.nextDay.year t.nextDay.month t.nextDay.day := by
  obtain ⟨begun, monthPos, monthLe, dayPos, dayLe⟩ := h.day
  have := daysIn_bounds t.year (t.month + 1)
  have := daysIn_bounds (t.year + 1) 1
  unfold nextDay
  split
  · exact ⟨begun, monthPos, monthLe, by dsimp only; omega, by dsimp only; omega⟩
  · split
    · exact ⟨begun, by dsimp only; omega, by dsimp only; omega, Nat.le_refl 1,
        by dsimp only; omega⟩
    · exact ⟨by dsimp only; omega, Nat.le_refl 1, by dsimp only; omega, Nat.le_refl 1,
        by dsimp only; omega⟩

theorem Exists.dayNumber_nextDay (h : t.Exists) :
    dayNumber t.nextDay.year t.nextDay.month t.nextDay.day =
      dayNumber t.year t.month t.day + 1 := by
  obtain ⟨begun, monthPos, monthLe, dayPos, dayLe⟩ := h.day
  unfold nextDay
  split
  · simp only [dayNumber]
    omega
  · next full =>
    split
    · simp only [dayNumber, daysBeforeMonth_succ t.year monthPos]
      omega
    · have last : t.month = 12 := by omega
      have first : daysBeforeMonth (t.year + 1) 1 = 0 := rfl
      have december : daysBeforeMonth t.year 13 = daysBeforeMonth t.year 12 + daysIn t.year 12 :=
        daysBeforeMonth_succ t.year (by omega)
      rw [last] at full dayLe
      simp only [dayNumber, last, daysBefore_succ begun, first]
      omega

theorem Exists.seconds_nextSecond (h : t.Exists) : t.nextSecond.seconds = t.seconds + 1 := by
  have number := h.dayNumber_nextDay
  have := h.hour
  have := h.minute
  have := h.second
  unfold nextSecond
  split
  · simp only [seconds]
    omega
  · split
    · simp only [seconds]
      omega
    · split
      · simp only [seconds]
        omega
      · simp only [seconds, number]
        omega

theorem Exists.ticks_next (h : t.Exists) : t.next.ticks = t.ticks + 1 := by
  have later := h.seconds_nextSecond
  have := h.micro
  unfold next
  split
  · simp only [ticks, seconds]
    omega
  · have same : ({ t.nextSecond with micro := 0 } : Moment).seconds = t.nextSecond.seconds := rfl
    simp only [ticks, same]
    omega

@[simp] theorem nextDay_micro (t : Moment) : t.nextDay.micro = t.micro := by
  unfold nextDay
  split_ifs <;> rfl

theorem Exists.nextSecond (h : t.Exists) : t.nextSecond.Exists := by
  have hour := h.hour
  have minute := h.minute
  have micro := h.micro
  unfold Moment.nextSecond
  split
  · refine ⟨h.day, ?_, ?_, ?_, ?_⟩ <;> dsimp only <;> omega
  · split
    · refine ⟨h.day, ?_, ?_, ?_, ?_⟩ <;> dsimp only <;> omega
    · split
      · refine ⟨h.day, ?_, ?_, ?_, ?_⟩ <;> dsimp only <;> omega
      · refine ⟨h.isDay_nextDay, ?_, ?_, ?_, ?_⟩ <;> simp only [nextDay_micro] <;> omega

theorem Exists.next (h : t.Exists) : t.next.Exists := by
  obtain ⟨day, hour, minute, second, -⟩ := h.nextSecond
  unfold Moment.next
  split
  · exact ⟨h.day, h.hour, h.minute, h.second, by dsimp only; omega⟩
  · exact ⟨day, hour, minute, second, by dsimp only; omega⟩

/-! ### Numbers and moments -/

/-- No two moments have the same number. -/
theorem ticks_injective (hs : s.Exists) (ht : t.Exists) (eq : s.ticks = t.ticks) : s = t := by
  obtain ⟨sDay, sHour, sMinute, sSecond, sMicro⟩ := hs
  obtain ⟨tDay, tHour, tMinute, tSecond, tMicro⟩ := ht
  cases s
  cases t
  simp only [ticks, seconds] at *
  obtain ⟨rfl, rfl, rfl⟩ := sDay.eq_of_dayNumber_eq tDay (by omega)
  simp only [mk.injEq, true_and]
  omega

/-- Every number is that of a moment. -/
theorem ticks_ofTicks (n : Nat) : (ofTicks n).Exists ∧ (ofTicks n).ticks = n := by
  obtain ⟨year, month, day, found, isDay, number⟩ := ofDayNumber_spec (n / 1000000 / 86400)
  simp only [ofTicks, found]
  refine ⟨⟨isDay, ?_, ?_, ?_, ?_⟩, ?_⟩
  · dsimp only
    omega
  · dsimp only
    omega
  · dsimp only
    omega
  · dsimp only
    omega
  · simp only [ticks, seconds, number]
    omega

/-- A step that leads from moments to moments and raises their numbers by one counts steps. -/
theorem Exists.iterate {step : Moment → Moment} {number : Moment → Nat}
    (exist : ∀ {t}, t.Exists → (step t).Exists)
    (count : ∀ {t}, t.Exists → number (step t) = number t + 1) (h : t.Exists) (n : Nat) :
    (step^[n] t).Exists ∧ number (step^[n] t) = number t + n := by
  induction n with
  | zero => exact ⟨h, (Nat.add_zero _).symm⟩
  | succ n ih =>
    rw [Function.iterate_succ_apply']
    exact ⟨exist ih.1, by rw [count ih.1, ih.2, Nat.add_assoc]⟩

/-- A moment comes so many microseconds after another one just if their numbers are so far apart. -/
theorem iterate_next_eq_iff (hs : s.Exists) (ht : t.Exists) (n : Nat) :
    Moment.next^[n] s = t ↔ s.ticks + n = t.ticks := by
  obtain ⟨there, number⟩ := hs.iterate Exists.next Exists.ticks_next n
  constructor
  · rintro rfl
    exact number.symm
  · intro apart
    exact ticks_injective there ht (number.trans apart)

/-! ### Whole seconds -/

theorem Exists.truncated (h : t.Exists) : t.truncated.Exists :=
  ⟨h.day, h.hour, h.minute, h.second, Nat.succ_pos 999999⟩

/-- Whole seconds leave the microseconds as they are. -/
theorem iterate_nextSecond_micro (n : Nat) (t : Moment) :
    (Moment.nextSecond^[n] t).micro = t.micro := by
  have step : micro ∘ Moment.nextSecond = micro := by
    funext t
    simp only [Function.comp_apply, Moment.nextSecond]
    split_ifs <;> simp
  exact congrFun (Function.iterate_invariant step n) t

/-- Truncated moments are so many seconds apart just if the numbers of their seconds are. -/
theorem iterate_nextSecond_eq_iff (hs : s.Exists) (ht : t.Exists) (n : Nat) :
    Moment.nextSecond^[n] s.truncated = t.truncated ↔ s.seconds + n = t.seconds := by
  obtain ⟨there, number⟩ := hs.truncated.iterate Exists.nextSecond Exists.seconds_nextSecond n
  have same (t : Moment) : t.truncated.seconds = t.seconds := rfl
  rw [same] at number
  constructor
  · intro eq
    rw [← number, eq, same]
  · intro apart
    refine ticks_injective there ht.truncated ?_
    have whole : (Moment.nextSecond^[n] s.truncated).micro = t.truncated.micro :=
      iterate_nextSecond_micro n s.truncated
    rw [ticks, ticks, number, whole, same, apart]

/-! ### Earlier and later -/

theorem Exists.year_le_of_ticks_le (ht : t.Exists) (le : s.ticks ≤ t.ticks) :
    s.year ≤ t.year := by
  by_contra later
  have before : dayNumber t.year t.month t.day < dayNumber s.year s.month s.day :=
    ht.day.dayNumber_lt_of_year_lt (by omega)
  have := ht.hour
  have := ht.minute
  have := ht.second
  have := ht.micro
  simp only [ticks, seconds] at le
  omega

/-- What a calendar and a clock show of the moment, the largest unit first. -/
def fields (t : Moment) : List Nat :=
  [t.year, t.month, t.day, t.hour, t.minute, t.second, t.micro]

theorem fields_injective : Function.Injective fields := by
  rintro ⟨⟩ ⟨⟩ same
  simpa [fields] using same

theorem Exists.ticks_lt_of_dayNumber_lt (hs : s.Exists)
    (lt : dayNumber s.year s.month s.day < dayNumber t.year t.month t.day) :
    s.ticks < t.ticks := by
  have := hs.hour
  have := hs.minute
  have := hs.second
  have := hs.micro
  simp only [ticks, seconds]
  omega

theorem Exists.ticks_lt_of_fields_lt (hs : s.Exists) (lt : s.fields < t.fields) :
    s.ticks < t.ticks := by
  simp only [fields, List.cons_lt_cons_iff] at lt
  rcases lt with year | ⟨year, month | ⟨month, day | ⟨day, clock⟩⟩⟩
  · exact hs.ticks_lt_of_dayNumber_lt (hs.day.dayNumber_lt_of_year_lt year)
  · refine hs.ticks_lt_of_dayNumber_lt ?_
    rw [← year]
    exact hs.day.dayNumber_lt_of_month_lt month
  · have := hs.day.day_pos
    refine hs.ticks_lt_of_dayNumber_lt ?_
    rw [← year, ← month, dayNumber, dayNumber]
    omega
  · have := hs.minute
    have := hs.second
    have := hs.micro
    have nothing : ¬ ([] : List Nat) < [] := List.not_lt_nil _
    simp only [nothing, and_false, or_false] at clock
    simp only [ticks, seconds, year, month, day]
    omega

/-- **Moments come one after the other as their fields say, the largest unit first.** -/
theorem fields_lt_iff (hs : s.Exists) (ht : t.Exists) :
    s.fields < t.fields ↔ s.ticks < t.ticks := by
  refine ⟨hs.ticks_lt_of_fields_lt, fun less => ?_⟩
  by_contra other
  rcases List.le_iff_lt_or_eq.1 (List.not_lt.1 other) with later | same
  · exact Nat.lt_asymm less (ht.ticks_lt_of_fields_lt later)
  · rw [fields_injective same] at less
    exact Nat.lt_irrefl _ less

end Moment

end Footage.Calendar
