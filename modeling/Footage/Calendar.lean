/-!
# The proleptic Gregorian calendar

Days are counted from the first of January of the year 1, which is day 0, and moments in
microseconds from its start.  `Moment.ticks` numbers a moment and `Moment.ofTicks` reads the
number back, so that moments are shifted by arithmetic on naturals.
-/

namespace Footage.Calendar

/-- Whether the year has a 29th of February. -/
def isLeap (year : Nat) : Bool := year % 4 == 0 && (year % 100 != 0 || year % 400 == 0)

/-- The number of days in a month of a year. -/
def daysIn (year month : Nat) : Nat :=
  match month with
  | 2 => if isLeap year then 29 else 28
  | 4 | 6 | 9 | 11 => 30
  | _ => 31

/-- The number of days before the first of January of a year. -/
def daysBefore (year : Nat) : Nat :=
  let past := year - 1
  365 * past + past / 4 - past / 100 + past / 400

/-- The number of days of a year before the first of a month. -/
def daysBeforeMonth (year : Nat) : Nat → Nat
  | 0 | 1 => 0
  | month + 1 => daysBeforeMonth year month + daysIn year month

/-- The number of a day. -/
def dayNumber (year month day : Nat) : Nat :=
  daysBefore year + daysBeforeMonth year month + (day - 1)

/-- The greatest year up to the given one that has begun on the numbered day. -/
def yearUpTo (number : Nat) : Nat → Nat
  | 0 => 1
  | year + 1 => if daysBefore (year + 1) ≤ number then year + 1 else yearUpTo number year

/-- The year of a day.  A year has at least 365 days, which bounds the search. -/
def yearOf (number : Nat) : Nat := yearUpTo number (number / 365 + 1)

/-- The month and the day in it, for a day counted from the first of the given month; months
after the given number of further ones do not come into question. -/
def monthFrom (year : Nat) : Nat → Nat → Nat → Nat × Nat
  | 0, month, rest => (month, rest + 1)
  | more + 1, month, rest =>
    if rest < daysIn year month then (month, rest + 1)
    else monthFrom year more (month + 1) (rest - daysIn year month)

/-- The year, the month and the day with a number. -/
def ofDayNumber (number : Nat) : Nat × Nat × Nat :=
  let year := yearOf number
  let (month, day) := monthFrom year 11 1 (number - daysBefore year)
  (year, month, day)

/-- A moment as it reads on a calendar and a clock. -/
structure Moment where
  year : Nat
  month : Nat := 1
  day : Nat := 1
  hour : Nat := 0
  minute : Nat := 0
  second : Nat := 0
  micro : Nat := 0
deriving DecidableEq, Repr

namespace Moment

/-- Whether the moment exists in the years 1 to 9999. -/
def Valid (t : Moment) : Prop :=
  1 ≤ t.year ∧ t.year ≤ 9999 ∧ 1 ≤ t.month ∧ t.month ≤ 12 ∧ 1 ≤ t.day ∧
    t.day ≤ daysIn t.year t.month ∧ t.hour < 24 ∧ t.minute < 60 ∧ t.second < 60 ∧
    t.micro < 1000000

instance (t : Moment) : Decidable t.Valid := inferInstanceAs (Decidable (_ ∧ _))

/-- The seconds from the start of the year 1 to the start of the moment's second. -/
def seconds (t : Moment) : Nat :=
  ((dayNumber t.year t.month t.day * 24 + t.hour) * 60 + t.minute) * 60 + t.second

/-- The microseconds from the start of the year 1. -/
def ticks (t : Moment) : Nat := t.seconds * 1000000 + t.micro

/-- The moment that is a number of microseconds after the start of the year 1. -/
def ofTicks (n : Nat) : Moment :=
  let seconds := n / 1000000
  let (year, month, day) := ofDayNumber (seconds / 86400)
  { year, month, day
    hour := seconds / 3600 % 24
    minute := seconds / 60 % 60
    second := seconds % 60
    micro := n % 1000000 }

/-- The moment without its microseconds. -/
def truncated (t : Moment) : Moment := { t with micro := 0 }

end Moment

end Footage.Calendar
