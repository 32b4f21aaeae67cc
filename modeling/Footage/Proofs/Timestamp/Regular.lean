import Footage.Proofs.Calendar.Counting
import Footage.Proofs.Timestamp.Writing

/-!
# Regular timestamps

A timestamp is regular if it has four digits of ASCII for the year and two for each of the other
fields (`Regular`).  A moment of the years from 1000 on is written so, and what is written so is
read, whatever moment it holds (`Fields.Regular.denote`).  In shorter years the year is written with
fewer digits than are read.

`parse_format_inverse` states that reading what was written gives the moment to the second, just for
the years from 1000 on, and that writing what was read gives the one regular text of the moment,
however irregular the text was.  Moments are as their own clocks show them; how far such a clock is
from universal time is neither written nor read.
-/

namespace Footage.Timestamp

open Calendar (Moment)
open Number (IsDigits)

/-! ### Regular texts -/

/-- Four digits for the year, two for each of the other fields. -/
structure Fields.Regular (f : Fields) : Prop where
  year : IsDigits 4 f.year
  month : IsDigits 2 f.month
  day : IsDigits 2 f.day
  hour : IsDigits 2 f.hour
  minute : IsDigits 2 f.minute
  second : IsDigits 2 f.second

/-- The text consists of regular fields. -/
def Regular (text : String) : Prop := ∃ f : Fields, f.Regular ∧ text = String.ofList f.chars

/-- Digits of a fixed width that hold the same number are the same. -/
theorem eq_of_plain {width n : Nat} {front front' : List Char} (h : IsDigits width front)
    (h' : IsDigits width front') (plain : Plain front n) (plain' : Plain front' n) :
    front = front' := by
  refine h.eq_of_value_eq h' ?_
  rw [← worth_eq_ofDigitChars h.2, ← worth_eq_ofDigitChars h'.2, ← plain.2, ← plain'.2]

/-- Regular fields hold the numbers of a moment, whether it exists or not. -/
theorem Fields.Regular.exists_hold {f : Fields} (h : f.Regular) : ∃ t, f.Hold t :=
  ⟨⟨worth f.year, worth f.month, worth f.day, worth f.hour, worth f.minute, worth f.second, 0⟩,
    plain_worth h.year.2, plain_worth h.month.2, plain_worth h.day.2, plain_worth h.hour.2,
    plain_worth h.minute.2, plain_worth h.second.2, rfl⟩

/-- There is one way to write a moment regularly. -/
theorem Fields.Regular.unique {f f' : Fields} {t : Moment} (h : f.Regular) (h' : f'.Regular)
    (hold : f.Hold t) (hold' : f'.Hold t) : f = f' := by
  have year := eq_of_plain h.year h'.year hold.year hold'.year
  have month := eq_of_plain h.month h'.month hold.month hold'.month
  have day := eq_of_plain h.day h'.day hold.day hold'.day
  have hour := eq_of_plain h.hour h'.hour hold.hour hold'.hour
  have minute := eq_of_plain h.minute h'.minute hold.minute hold'.minute
  have second := eq_of_plain h.second h'.second hold.second hold'.second
  cases f
  cases f'
  simp_all

/-! ### What is regular is read -/

theorem exists_isAscii_of_isDigits_two {front : List Char} {n : Nat} (h : IsDigits 2 front)
    (plain : Plain front n) :
    ∃ c c' t u, front = [c, c'] ∧ IsAscii c t ∧ IsAscii c' u ∧ n = 10 * t + u := by
  obtain ⟨c, rest, rfl, tens, others⟩ := h.exists_cons
  obtain ⟨c', rest, rfl, units, none⟩ := others.exists_cons
  obtain rfl := List.eq_nil_of_length_eq_zero none.1
  refine ⟨c, c', _, _, rfl, isAscii_of_isDigit tens, isAscii_of_isDigit units, ?_⟩
  exact plain.2.trans (plain_two (isDigit_of_ascii tens) (isDigit_of_ascii units)).2.symm

theorem yearForm_of_isDigits {front : List Char} {n : Nat} (h : IsDigits 4 front)
    (plain : Plain front n) : YearForm front n := by
  obtain ⟨a, rest, rfl, ha, others⟩ := h.exists_cons
  obtain ⟨b, rest, rfl, hb, others⟩ := others.exists_cons
  obtain ⟨c, rest, rfl, hc, others⟩ := others.exists_cons
  obtain ⟨d, rest, rfl, hd, none⟩ := others.exists_cons
  obtain rfl := List.eq_nil_of_length_eq_zero none.1
  have form := YearForm.digits (isDigit_of_ascii ha) (isDigit_of_ascii hb) (isDigit_of_ascii hc)
    (isDigit_of_ascii hd)
  rwa [plain.2, ← form.plain.2]

theorem monthForm_of_isDigits {front : List Char} {n : Nat} (h : IsDigits 2 front)
    (plain : Plain front n) (low : 1 ≤ n) (high : n ≤ 12) : MonthForm front n := by
  obtain ⟨c, c', t, u, rfl, tens, units, rfl⟩ := exists_isAscii_of_isDigits_two h plain
  exact .two tens units low high

theorem dayForm_of_isDigits {front : List Char} {n : Nat} (h : IsDigits 2 front)
    (plain : Plain front n) (low : 1 ≤ n) (high : n ≤ 31) : DayForm front n := by
  obtain ⟨c, c', t, u, rfl, tens, units, rfl⟩ := exists_isAscii_of_isDigits_two h plain
  by_cases zero : t = 0
  · subst zero
    obtain rfl := tens.eq isAscii_zero
    simpa using DayForm.padded units (by omega)
  · by_cases less : t ≤ 2
    · exact .two tens (by omega) less units.isDigit
    · obtain rfl : t = 3 := by omega
      obtain rfl := tens.eq isAscii_three
      exact .thirty units (by omega)

theorem hourForm_of_isDigits {front : List Char} {n : Nat} (h : IsDigits 2 front)
    (plain : Plain front n) (high : n < 24) : HourForm front n := by
  obtain ⟨c, c', t, u, rfl, tens, units, rfl⟩ := exists_isAscii_of_isDigits_two h plain
  by_cases less : t ≤ 1
  · exact .two tens less units.isDigit
  · obtain rfl : t = 2 := by omega
    obtain rfl := tens.eq isAscii_two
    exact .twenty units (by omega)

theorem sixtyForm_of_isDigits {front : List Char} {n : Nat} (h : IsDigits 2 front)
    (plain : Plain front n) (high : n < 60) : SixtyForm front n := by
  obtain ⟨c, c', t, u, rfl, tens, units, rfl⟩ := exists_isAscii_of_isDigits_two h plain
  exact .two tens (by omega) units.isDigit

/-- Regular fields that hold the numbers of a moment are in the forms of the grammar. -/
theorem Fields.Regular.denote {f : Fields} {t : Moment} (h : f.Regular) (hold : f.Hold t)
    (valid : t.Valid) : f.Denote t := by
  obtain ⟨begun, -, monthPos, monthLe, dayPos, dayLe, hour, minute, second, -⟩ := valid
  have most := (Calendar.daysIn_bounds t.year t.month).2
  exact ⟨yearForm_of_isDigits h.year hold.year, begun,
    monthForm_of_isDigits h.month hold.month monthPos monthLe,
    dayForm_of_isDigits h.day hold.day dayPos (Nat.le_trans dayLe most), dayLe,
    hourForm_of_isDigits h.hour hold.hour hour, sixtyForm_of_isDigits h.minute hold.minute minute,
    sixtyForm_of_isDigits h.second hold.second second, hold.micro⟩

/-! ### What is read exists -/

theorem YearForm.length {front : List Char} {n : Nat} (h : YearForm front n) :
    front.length = 4 := by
  cases h
  rfl

theorem YearForm.le {front : List Char} {n : Nat} (h : YearForm front n) : n ≤ 9999 := by
  obtain ⟨ha, hb, hc, hd⟩ := h
  have := Text.digit?_lt_ten ha
  have := Text.digit?_lt_ten hb
  have := Text.digit?_lt_ten hc
  have := Text.digit?_lt_ten hd
  omega

theorem MonthForm.bounds {front : List Char} {n : Nat} (h : MonthForm front n) :
    1 ≤ n ∧ n ≤ 12 := by
  cases h with
  | one digit pos =>
    have := digit.1
    omega
  | two _ _ low high => exact ⟨low, high⟩

theorem DayForm.pos {front : List Char} {n : Nat} (h : DayForm front n) : 1 ≤ n := by
  cases h <;> omega

theorem HourForm.lt {front : List Char} {n : Nat} (h : HourForm front n) : n < 24 := by
  cases h with
  | one digit =>
    have := Text.digit?_lt_ten digit
    omega
  | two _ high units =>
    have := Text.digit?_lt_ten units
    omega
  | twenty _ high => omega

/-- Fields in the forms of the grammar denote a moment of the calendar. -/
theorem Fields.Denote.valid {f : Fields} {t : Moment} (h : f.Denote t) : t.Valid := by
  obtain ⟨monthPos, monthLe⟩ := h.month.bounds
  refine ⟨h.begun, h.year.le, monthPos, monthLe, h.day.pos, h.exists_day, h.hour.lt,
    h.minute.lt_sixty, h.second.lt_sixty, ?_⟩
  rw [h.micro]
  omega

theorem truncated_of_parse {text : String} {t : Moment} (h : parse text = .ok t) :
    t.Valid ∧ t.truncated = t := by
  obtain ⟨f, denote, -⟩ := exists_fields_of_parse h
  refine ⟨denote.valid, ?_⟩
  rw [Moment.truncated, ← denote.micro]

/-! ### What is written -/

/-- A moment of the years from 1000 on is written in regular fields. -/
theorem regular_written {t : Moment} (valid : t.Valid) (late : 1000 ≤ t.year) :
    (Fields.written t).Regular := by
  obtain ⟨-, last, -, monthLe, -, dayLe, hour, minute, second, -⟩ := valid
  have most := (Calendar.daysIn_bounds t.year t.month).2
  refine ⟨?_, Number.isDigits_padded (by decide) (by omega),
    Number.isDigits_padded (by decide) (by omega), Number.isDigits_padded (by decide) (by omega),
    Number.isDigits_padded (by decide) (by omega), Number.isDigits_padded (by decide) (by omega)⟩
  have four : Number.padded 4 t.year = Number.decimalDigits t.year :=
    Number.padded_eq_decimalDigits late
  rw [Fields.written, ← four]
  exact Number.isDigits_padded (by decide) (by omega)

/-- What was written is read, if it is read at all, as the moment without its microseconds. -/
theorem eq_truncated_of_parse_format {t t' : Moment} (h : parse (format t) = .ok t') :
    (Fields.written t).Denote t' ∧ t' = t.truncated := by
  obtain ⟨f, denote, eq⟩ := exists_fields_of_parse h
  rw [format_eq_written] at eq
  obtain ⟨rfl, rfl⟩ := denote.hold.unique (hold_written t) (String.ofList_injective eq.symm)
  exact ⟨denote, rfl⟩

theorem parse_format {t : Moment} (valid : t.Valid) (late : 1000 ≤ t.year) :
    parse (format t) = .ok t.truncated := by
  have valid' : t.truncated.Valid := by
    obtain ⟨begun, last, monthPos, monthLe, dayPos, dayLe, hour, minute, second, -⟩ := valid
    exact ⟨begun, last, monthPos, monthLe, dayPos, dayLe, hour, minute, second,
      show 0 < 1000000 by decide⟩
  rw [format_eq_written]
  exact parse_of_denote ((regular_written valid late).denote (hold_written t) valid')

/-- The year is read in four digits. -/
theorem year_of_parse_format {t t' : Moment} (h : parse (format t) = .ok t') : 1000 ≤ t.year := by
  obtain ⟨denote, -⟩ := eq_truncated_of_parse_format h
  have four : (Number.decimalDigits t.year).length = 4 := denote.year.length
  by_contra early
  have short : (Number.decimalDigits t.year).length ≤ 3 :=
    (Nat.length_toDigits_le_iff (by decide) (by decide)).2 (by omega)
  omega

/-- The written text is the one regular text of a moment. -/
theorem regular_and_parse_iff {t : Moment} (valid : t.Valid) (late : 1000 ≤ t.year)
    (whole : t.truncated = t) (text : String) :
    Regular text ∧ parse text = .ok t ↔ text = format t := by
  have written : (Fields.written t).Hold t := by simpa only [whole] using hold_written t
  have regular := regular_written valid late
  constructor
  · rintro ⟨⟨f, regular', rfl⟩, read⟩
    obtain ⟨f', denote, eq⟩ := exists_fields_of_parse read
    obtain ⟨t', hold⟩ := regular'.exists_hold
    obtain ⟨rfl, rfl⟩ := hold.unique denote.hold (String.ofList_injective eq)
    rw [regular'.unique regular hold written, format_eq_written]
  · rintro rfl
    exact ⟨⟨_, regular, format_eq_written t⟩, by rw [parse_format valid late, whole]⟩

/-! ### The inverse -/

/-- **From the year 1000 on reading and writing are inverse.**  A written moment is read just if its
year is 1000 or later, and then as the moment without its microseconds.  Of the texts that are read
as a moment of these years the written one is the one that is regular. -/
theorem parse_format_inverse :
    (∀ t : Moment, t.Valid →
      ((∃ t', parse (format t) = .ok t') ↔ 1000 ≤ t.year) ∧
      ∀ t', parse (format t) = .ok t' → t' = t.truncated) ∧
    ∀ (text : String) (t : Moment), parse text = .ok t → 1000 ≤ t.year →
      parse (format t) = .ok t ∧
      ∀ text', Regular text' ∧ parse text' = .ok t ↔ text' = format t := by
  refine ⟨fun t valid => ⟨⟨?_, ?_⟩, ?_⟩, fun text t read late => ?_⟩
  · rintro ⟨t', read⟩
    exact year_of_parse_format read
  · intro late
    exact ⟨_, parse_format valid late⟩
  · intro t' read
    exact (eq_truncated_of_parse_format read).2
  · obtain ⟨valid, whole⟩ := truncated_of_parse read
    exact ⟨by rw [parse_format valid late, whole], regular_and_parse_iff valid late whole⟩

/-- The last moment before the year 1000 is not read again, the first moment of it is, and the
regular text takes the place of one with a space and digits of two scripts. -/
theorem parse_format_inverse_turn :
    let before : Moment := {
      year := 999, month := 12, day := 31, hour := 23, minute := 59, second := 59, micro := 999999 }
    let after : Moment := { year := 1000 }
    before.Valid ∧ (¬ ∃ t, parse (format before) = .ok t) ∧
      after.Valid ∧ (∃ t, parse (format after) = .ok t) ∧
      parse "１０００-1- 1_0-٠-00" = .ok after ∧
      ∀ text, Regular text ∧ parse text = .ok after ↔ text = "1000-01-01_00-00-00" := by
  intro before after
  have valid : before.Valid := by decide
  have valid' : after.Valid := by decide
  have late : 1000 ≤ after.year := by decide
  have early : ¬ 1000 ≤ before.year := by decide
  have read : parse "１０００-1- 1_0-٠-00" = .ok after := by
    have told : (parse "１０００-1- 1_0-٠-00").toOption = some after := by decide +kernel
    cases read : parse "１０００-1- 1_0-٠-00" with
    | error e =>
      rw [read] at told
      cases told
    | ok t =>
      rw [read] at told
      rw [Option.some.inj told]
  have written : format after = "1000-01-01_00-00-00" := by decide +kernel
  refine ⟨valid, ?_, valid', ?_, read, ?_⟩
  · rw [(parse_format_inverse.1 before valid).1]
    exact early
  · exact (parse_format_inverse.1 after valid').1.2 late
  · rw [← written]
    exact (parse_format_inverse.2 _ after read late).2

end Footage.Timestamp
