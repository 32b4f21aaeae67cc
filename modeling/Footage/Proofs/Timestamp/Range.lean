import Footage.Proofs.Calendar.Counting
import Footage.Proofs.Timestamp.Duration
import Footage.Proofs.Timestamp.Writing
import Mathlib.Data.Rat.Floor
import Mathlib.Tactic.Linarith

/-!
# Time ranges

`range` takes a duration and the moment at which it ends.  The range starts as many microseconds
earlier as the duration lasts, by the calendar and the clock (`Starts`), if there is such a moment
in the years from 1 on.

`range_exact` states that the texts of a range say just which moments these are, to the second, and
how many seconds lie between them.  There are three checks on the way to a range, on the number of
days as a machine word, on that of a duration, and on the year 1; together they refuse just the
ranges that would start before the year 1, as the calendar has fewer days (`ticks_div_le`).
-/

namespace Footage.Timestamp

open Calendar (Moment)
open Number (Quantity Binary64)

variable {q : Quantity} {D : Nat} {start stop : Moment}

/-! ### Where a range starts -/

/-- A moment of the years from 1 on that comes so many microseconds before another one. -/
def Starts (D : Nat) (stop start : Moment) : Prop := start.Valid ∧ Moment.next^[D] start = stop

theorem starts_iff (hs : stop.Valid) :
    Starts D stop start ↔ start.Valid ∧ start.ticks + D = stop.ticks := by
  refine and_congr_right fun valid => ?_
  exact Moment.iterate_next_eq_iff valid.toExists hs.toExists D

theorem starts_ofTicks (hs : stop.Valid) (le : D ≤ stop.ticks) :
    Starts D stop (Moment.ofTicks (stop.ticks - D)) := by
  obtain ⟨there, last⟩ := (Moment.valid_iff stop).1 hs
  obtain ⟨here, number⟩ := Moment.ticks_ofTicks (stop.ticks - D)
  have year := there.year_le_of_ticks_le (s := Moment.ofTicks (stop.ticks - D)) (by omega)
  exact (starts_iff hs).2 ⟨(Moment.valid_iff _).2 ⟨here, by omega⟩, by omega⟩

/-- There is such a moment just if the duration does not reach back beyond the year 1. -/
theorem exists_starts_iff (hs : stop.Valid) : (∃ start, Starts D stop start) ↔ D ≤ stop.ticks := by
  constructor
  · rintro ⟨start, starts⟩
    have apart := ((starts_iff hs).1 starts).2
    omega
  · intro le
    exact ⟨_, starts_ofTicks hs le⟩

/-- There is no other one. -/
theorem Starts.eq_ofTicks (h : Starts D stop start) (hs : stop.Valid) :
    start = Moment.ofTicks (stop.ticks - D) := by
  obtain ⟨valid, apart⟩ := (starts_iff hs).1 h
  obtain ⟨here, same⟩ := Moment.ticks_ofTicks (stop.ticks - D)
  exact Moment.ticks_injective valid.toExists here (by omega)

/-! ### How far apart its ends are -/

/-- From one moment to a later one the seconds advance by the time in between less the microseconds
of the later one, rounded up. -/
theorem exists_seconds_add (hstart : start.Exists) (hstop : stop.Exists)
    (apart : start.ticks + D = stop.ticks) :
    ∃ k : ℕ, (k : ℤ) = ⌈((D : ℚ) - stop.micro) / 1000000⌉ ∧ start.seconds + k = stop.seconds := by
  have small := hstart.micro
  have small' := hstop.micro
  simp only [Moment.ticks] at apart
  obtain ⟨k, later⟩ : ∃ k, start.seconds + k = stop.seconds :=
    ⟨stop.seconds - start.seconds, by omega⟩
  refine ⟨k, ?_, later⟩
  have gap : D + start.micro = k * 1000000 + stop.micro := by omega
  have gap' : (D : ℚ) + start.micro = k * 1000000 + stop.micro := by exact_mod_cast gap
  have low : (0 : ℚ) ≤ start.micro := Nat.cast_nonneg _
  have high : (start.micro : ℚ) < 1000000 := by exact_mod_cast small
  rw [eq_comm, Int.ceil_eq_iff, lt_div_iff₀ (by norm_num), div_le_iff₀ (by norm_num)]
  push_cast
  constructor <;> linarith

/-- Whole seconds lie between just as many seconds. -/
theorem ceil_whole (n : ℕ) (hstop : stop.Exists) :
    ⌈(((n * 1000000 : ℕ) : ℚ) - stop.micro) / 1000000⌉ = n := by
  have low : (0 : ℚ) ≤ stop.micro := Nat.cast_nonneg _
  have high : (stop.micro : ℚ) < 1000000 := by exact_mod_cast hstop.micro
  rw [Int.ceil_eq_iff, lt_div_iff₀ (by norm_num), div_le_iff₀ (by norm_num)]
  push_cast
  constructor <;> linarith

/-! ### The range -/

/-- The days of the calendar are fewer than those that a duration may have. -/
theorem ticks_div_le (hs : stop.Valid) : stop.ticks / dayTicks ≤ mostDays := by
  obtain ⟨there, last⟩ := (Moment.valid_iff stop).1 hs
  have day := there.day.dayNumber_lt
  have year := Calendar.daysBefore_mono (show stop.year + 1 ≤ 10000 by omega)
  rw [show Calendar.daysBefore 10000 = 3652059 by decide] at year
  have hour := there.hour
  have minute := there.minute
  have second := there.second
  have micro := there.micro
  simp only [Moment.ticks, Moment.seconds, dayTicks, mostDays]
  omega

theorem range_of_duration_ok (h : duration q = .ok D) :
    range q stop = (earlier stop D).bind fun start => .ok (format start, format stop) := by
  rw [range, show duration q = pure D from h, pure_bind]
  rfl

theorem range_of_le (h : Lasts q D) (hs : stop.Valid) (le : D ≤ stop.ticks) :
    range q stop = .ok (format (Moment.ofTicks (stop.ticks - D)), format stop) := by
  have few : D / dayTicks ≤ mostDays :=
    Nat.le_trans (Nat.div_le_div_right le) (ticks_div_le hs)
  rw [range_of_duration_ok (duration_of_lasts h few), earlier, if_neg (Nat.not_lt.2 le)]
  rfl

theorem range_of_duration_error {e : RangeFault} (h : duration q = .error e) :
    range q stop = .error e := by
  rw [range, h]
  rfl

theorem range_of_lt (h : Lasts q D) (lt : stop.ticks < D) :
    ∃ e, range q stop = .error e ∧ e.kind = .overflow := by
  rcases Nat.lt_or_ge mostDays (D / dayTicks) with many | few
  · obtain ⟨e, refused, kind⟩ := duration_of_lasts_long h many
    exact ⟨e, range_of_duration_error refused, kind⟩
  · refine ⟨.startOutOfRange, ?_, rfl⟩
    rw [range_of_duration_ok (duration_of_lasts h few), earlier, if_pos lt]
    rfl

theorem exists_range_iff (h : Lasts q D) (hs : stop.Valid) :
    (∃ texts, range q stop = .ok texts) ↔ ∃ start, Starts D stop start := by
  rw [exists_starts_iff hs]
  constructor
  · rintro ⟨texts, ranged⟩
    by_contra later
    obtain ⟨e, refused, -⟩ := range_of_lt h (Nat.lt_of_not_le later)
    cases ranged.symm.trans refused
  · intro le
    exact ⟨_, range_of_le h hs le⟩

theorem range_of_starts (h : Lasts q D) (hs : stop.Valid) (starts : Starts D stop start) :
    range q stop = .ok (format start, format stop) := by
  rw [starts.eq_ofTicks hs]
  exact range_of_le h hs ((exists_starts_iff hs).1 ⟨start, starts⟩)

/-- The truncated ends are so many seconds apart. -/
theorem exists_iterate_nextSecond (hs : stop.Valid) (starts : Starts D stop start) :
    ∃ k : ℕ, (k : ℤ) = ⌈((D : ℚ) - stop.micro) / 1000000⌉ ∧
      Moment.nextSecond^[k] start.truncated = stop.truncated := by
  obtain ⟨valid, apart⟩ := (starts_iff hs).1 starts
  obtain ⟨k, count, later⟩ := exists_seconds_add valid.toExists hs.toExists apart
  exact ⟨k, count, (Moment.iterate_nextSecond_eq_iff valid.toExists hs.toExists k).2 later⟩

/-- **Ranges are exact to the second.**  A duration lasts for one number of microseconds.  There is
a range just if it starts in the year 1 or later; otherwise the fault is an overflow.  Its texts say
which moments its start and its end are, without their microseconds; these are so many seconds apart
as the duration lasts beyond the microseconds of the end, rounded up, and for a whole number of
seconds they are this number apart.  What is negative or not a number is refused as an unsuitable
value, and the infinity as an overflow. -/
theorem range_exact (q : Quantity) (stop : Moment) (hs : stop.Valid) :
    (IsDuration q → ∃! D, Lasts q D) ∧
      (∀ D, Lasts q D →
        ((∃ texts, range q stop = .ok texts) ↔ ∃ start, Starts D stop start) ∧
        ((¬ ∃ start, Starts D stop start) →
          ∃ e, range q stop = .error e ∧ (Fault.range e).kind = .overflow) ∧
        ∀ start, Starts D stop start → ∃ first last, range q stop = .ok (first, last) ∧
          (∀ t, Says first t ↔ t = start.truncated) ∧
          (∀ t, Says last t ↔ t = stop.truncated) ∧
          ∃ k : ℕ, (k : ℤ) = ⌈((D : ℚ) - stop.micro) / 1000000⌉ ∧
            Moment.nextSecond^[k] start.truncated = stop.truncated ∧
            ∀ n : ℕ, q = .whole n → k = n) ∧
      (IsNegative q ∨ (∃ x, q = .real x ∧ x.isNaN = true) →
        ∃ e, range q stop = .error e ∧ (Fault.range e).kind = .value) ∧
      ((∃ x, q = .real x ∧ x.form = .infinite false) →
        ∃ e, range q stop = .error e ∧ (Fault.range e).kind = .overflow) := by
  refine ⟨fun lasts => ?_, fun D lasts => ⟨exists_range_iff lasts hs, fun none => ?_,
    fun start starts => ?_⟩, ?_, ?_⟩
  · obtain ⟨D, here⟩ := lasts_iff.2 lasts
    exact ⟨D, here, fun D' there => there.unique here⟩
  · rw [exists_starts_iff hs, Nat.not_le] at none
    exact range_of_lt lasts none
  · obtain ⟨k, count, apart⟩ := exists_iterate_nextSecond hs starts
    refine ⟨_, _, range_of_starts lasts hs starts, fun _ => says_format_iff,
      fun _ => says_format_iff, k, count, apart, ?_⟩
    rintro n rfl
    cases lasts
    rw [ceil_whole n hs.toExists] at count
    exact Int.natCast_inj.1 count
  · rintro (negative | ⟨x, rfl, nan⟩)
    · exact ⟨_, range_of_duration_error (duration_of_isNegative negative), rfl⟩
    · exact ⟨_, range_of_duration_error (duration_of_isNaN nan), rfl⟩
  · rintro ⟨x, rfl, infinite⟩
    exact ⟨_, range_of_duration_error (duration_of_infinite infinite), rfl⟩

/-- A day that ends in March of a leap year begins in February. -/
theorem range_exact_leapDay :
    let start : Moment := { year := 2024, month := 2, day := 29, micro := 250000 }
    let stop : Moment := { year := 2024, month := 3, day := 1, micro := 250000 }
    stop.Valid ∧ Lasts (.whole 86400) 86400000000 ∧ Starts 86400000000 stop start ∧
      ∃ first last, range (.whole 86400) stop = .ok (first, last) ∧
        (∀ t, Says first t ↔ t = { year := 2024, month := 2, day := 29 }) ∧
        (∀ t, Says last t ↔ t = { year := 2024, month := 3, day := 1 }) := by
  intro start stop
  have valid : stop.Valid := by decide
  have lasts : Lasts (.whole 86400) 86400000000 := .whole 86400
  have starts : Starts 86400000000 stop start := (starts_iff valid).2 (by decide)
  obtain ⟨first, last, ranged, from', to', -⟩ :=
    ((range_exact (.whole 86400) stop valid).2.1 _ lasts).2.2 start starts
  exact ⟨valid, lasts, starts, first, last, ranged, from', to'⟩

end Footage.Timestamp
