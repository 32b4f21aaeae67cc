import Footage.Proofs.Timestamp.Range
import Footage.Proofs.Timestamp.Regular
import Mathlib.Data.String.Basic

/-!
# The order of timestamps

The fields of a regular timestamp have fixed widths and stand with the largest unit first, so such
texts are ordered as their fields are, one after the other (`Fields.Regular.chars_lt_iff`), and this
is the order of time (`Moment.fields_lt_iff`).

`format_sorts` states that written moments of the years from 1000 on are ordered as the moments are
to the second.  The two ends of a range are truncated each for itself, so a range that lasts for
some time has two equal timestamps just if it lies within the second in which it ends.
-/

namespace Footage.Timestamp

open Calendar (Moment)
open Number (IsDigits Quantity)

/-! ### Regular texts -/

/-- Two texts with fronts of one length are ordered as the fronts, and then as the rests. -/
theorem append_lt_append_iff {front front' rest rest' : List Char}
    (h : front.length = front'.length) :
    front ++ rest < front' ++ rest' ↔ front < front' ∨ front = front' ∧ rest < rest' := by
  induction front generalizing front' with
  | nil =>
    obtain rfl := List.eq_nil_of_length_eq_zero h.symm
    simp
  | cons c front ih =>
    obtain ⟨c', front', rfl⟩ := List.exists_cons_of_length_eq_add_one h.symm
    simp only [List.cons_append, List.cons_lt_cons_iff, ih (Nat.succ.inj h), List.cons.injEq]
    tauto

/-- A field of a fixed width comes before the text that follows it. -/
theorem field_append_lt_iff {width n n' : Nat} {front front' : List Char} (h : IsDigits width front)
    (h' : IsDigits width front') (plain : Plain front n) (plain' : Plain front' n') (sep : Char)
    (rest rest' : List Char) :
    front ++ sep :: rest < front' ++ sep :: rest' ↔ n < n' ∨ n = n' ∧ rest < rest' := by
  have less : front < front' ↔ n < n' := by
    rw [Number.lt_iff_ofDigitChars_lt h h', ← worth_eq_ofDigitChars h.2,
      ← worth_eq_ofDigitChars h'.2, ← plain.2, ← plain'.2]
  have same : front = front' ↔ n = n' := by
    constructor
    · rintro rfl
      rw [plain.2, plain'.2]
    · rintro rfl
      exact eq_of_plain h h' plain plain'
  rw [append_lt_append_iff (h.1.trans h'.1.symm), less, same, List.cons_lt_cons_iff]
  simp

/-- Regular fields are ordered as the numbers that they hold. -/
theorem Fields.Regular.chars_lt_iff {f f' : Fields} {t t' : Moment} (h : f.Regular)
    (h' : f'.Regular) (hold : f.Hold t) (hold' : f'.Hold t') :
    f.chars < f'.chars ↔ t.fields < t'.fields := by
  have second : f.second < f'.second ↔ t.second < t'.second := by
    rw [Number.lt_iff_ofDigitChars_lt h.second h'.second, ← worth_eq_ofDigitChars h.second.2,
      ← worth_eq_ofDigitChars h'.second.2, ← hold.second.2, ← hold'.second.2]
  rw [Fields.chars, Fields.chars, field_append_lt_iff h.year h'.year hold.year hold'.year,
    field_append_lt_iff h.month h'.month hold.month hold'.month,
    field_append_lt_iff h.day h'.day hold.day hold'.day,
    field_append_lt_iff h.hour h'.hour hold.hour hold'.hour,
    field_append_lt_iff h.minute h'.minute hold.minute hold'.minute, second]
  simp [Moment.fields, List.cons_lt_cons_iff, hold.micro, hold'.micro]

/-! ### Written moments -/

variable {s t : Moment}

/-- Written moments of the years from 1000 on are ordered as their fields to the second. -/
theorem format_lt_iff_fields_lt (hs : s.Valid) (ht : t.Valid) (late : 1000 ≤ s.year)
    (late' : 1000 ≤ t.year) : format s < format t ↔ s.truncated.fields < t.truncated.fields := by
  rw [String.lt_iff_toList_lt, format_eq_written, format_eq_written, String.toList_ofList,
    String.toList_ofList]
  exact (regular_written hs late).chars_lt_iff (regular_written ht late') (hold_written s)
    (hold_written t)

/-- The number of a truncated moment counts whole seconds. -/
theorem ticks_truncated (t : Moment) : t.truncated.ticks = t.seconds * 1000000 := by
  have same : t.truncated.seconds = t.seconds := rfl
  rw [Moment.ticks, same, Moment.truncated, Nat.add_zero]

theorem format_lt_iff (hs : s.Valid) (ht : t.Valid) (late : 1000 ≤ s.year)
    (late' : 1000 ≤ t.year) : format s < format t ↔ s.seconds < t.seconds := by
  rw [format_lt_iff_fields_lt hs ht late late',
    Moment.fields_lt_iff hs.toExists.truncated ht.toExists.truncated, ticks_truncated,
    ticks_truncated]
  omega

/-- Moments of any years are written alike just if they lie in the same second. -/
theorem format_eq_iff_seconds_eq (hs : s.Valid) (ht : t.Valid) :
    format s = format t ↔ s.seconds = t.seconds := by
  rw [format_eq_iff]
  constructor
  · intro same
    have ticks := congrArg Moment.ticks same
    rw [ticks_truncated, ticks_truncated] at ticks
    omega
  · intro same
    refine Moment.ticks_injective hs.toExists.truncated ht.toExists.truncated ?_
    rw [ticks_truncated, ticks_truncated, same]

/-! ### Ranges -/

variable {q : Quantity} {D : Nat} {start stop : Moment}

/-- What has a range lasts for some time, and the range starts that long before its end. -/
theorem exists_starts_of_range {texts : String × String} (hs : stop.Valid)
    (h : range q stop = .ok texts) :
    ∃ D start, Lasts q D ∧ Starts D stop start ∧ texts = (format start, format stop) := by
  by_cases some : IsDuration q
  · obtain ⟨D, lasts⟩ := lasts_iff.2 some
    obtain ⟨start, starts⟩ := (exists_range_iff lasts hs).1 ⟨texts, h⟩
    have ranged := range_of_starts lasts hs starts
    rw [h] at ranged
    exact ⟨D, start, lasts, starts, Except.ok.inj ranged⟩
  · obtain ⟨e, refused⟩ := exists_duration_error some
    rw [range_of_duration_error refused] at h
    cases h

/-- A range that starts in the year 1000 or later has its timestamps in order, and they are equal
just if it does not reach back beyond the microseconds of its end. -/
theorem format_le_of_starts (hs : stop.Valid) (starts : Starts D stop start)
    (late : 1000 ≤ start.year) :
    format start ≤ format stop ∧ (format start = format stop ↔ D ≤ stop.micro) := by
  obtain ⟨valid, apart⟩ := (starts_iff hs).1 starts
  have late' : 1000 ≤ stop.year :=
    Nat.le_trans late (hs.toExists.year_le_of_ticks_le (by omega))
  have small := valid.toExists.micro
  have small' := hs.toExists.micro
  rw [Moment.ticks, Moment.ticks] at apart
  constructor
  · rw [← String.not_lt, format_lt_iff hs valid late' late]
    omega
  · rw [format_eq_iff_seconds_eq valid hs]
    omega

/-- **Timestamps sort like time.**  Written moments of the years from 1000 on are ordered by the
codes of their characters as the moments without their microseconds by their fields, and this is
their order in time; they are equal just if those are.  A range has the timestamps of the moment in
which it starts and of its end; if it starts in the year 1000 or later the first of them does not
come after the other one, and they are equal just if the range lasts for no more microseconds than
have passed in the last second. -/
theorem format_sorts :
    (∀ s t : Moment, s.Valid → t.Valid → 1000 ≤ s.year → 1000 ≤ t.year →
      (format s < format t ↔ s.truncated.fields < t.truncated.fields) ∧
      (format s = format t ↔ s.truncated.fields = t.truncated.fields) ∧
      (s.truncated.fields < t.truncated.fields ↔ s.seconds < t.seconds)) ∧
    ∀ (q : Quantity) (stop : Moment) (first last : String), stop.Valid →
      range q stop = .ok (first, last) →
      ∃ D start, Lasts q D ∧ Starts D stop start ∧ first = format start ∧ last = format stop ∧
        (1000 ≤ start.year → first ≤ last ∧ (first = last ↔ D ≤ stop.micro)) := by
  refine ⟨fun s t hs ht late late' => ?_, fun q stop first last hs ranged => ?_⟩
  · have less := format_lt_iff_fields_lt hs ht late late'
    exact ⟨less, format_eq_iff.trans Moment.fields_injective.eq_iff.symm,
      less.symm.trans (format_lt_iff hs ht late late')⟩
  · obtain ⟨D, start, lasts, starts, texts⟩ := exists_starts_of_range hs ranged
    obtain ⟨rfl, rfl⟩ := Prod.mk.inj texts
    exact ⟨D, start, lasts, starts, rfl, rfl, format_le_of_starts hs starts⟩

/-- The last minute of a month comes before the next month, whose number has one digit more, and a
range of one second ends later than it starts. -/
theorem format_sorts_october :
    let september : Moment := { year := 1000, month := 9, day := 30, hour := 23, minute := 59 }
    let october : Moment := { year := 1000, month := 10, day := 1, micro := 250000 }
    september.Valid ∧ october.Valid ∧ format september < format october ∧
      ∃ first last, range (.whole 1) october = .ok (first, last) ∧ first ≤ last ∧
        first ≠ last := by
  intro september october
  have hs : september.Valid := by decide
  have ho : october.Valid := by decide
  have late : 1000 ≤ september.year := by decide
  have late' : 1000 ≤ october.year := by decide
  have lasts : Lasts (.whole 1) 1000000 := .whole 1
  have starts : Starts 1000000 october { september with second := 59, micro := 250000 } :=
    (starts_iff ho).2 (by decide)
  have ranged := range_of_starts lasts ho starts
  obtain ⟨less, -, later⟩ := format_sorts.1 september october hs ho late late'
  obtain ⟨D, start, lasts', starts', -, -, order⟩ := format_sorts.2 _ october _ _ ho ranged
  obtain rfl := lasts.unique lasts'
  have same := (starts'.eq_ofTicks ho).trans (starts.eq_ofTicks ho).symm
  obtain ⟨le, equal⟩ := order (by rw [same])
  refine ⟨hs, ho, less.2 (later.2 (by decide)), _, _, ranged, le, fun eq => ?_⟩
  exact absurd (equal.1 eq) (by decide)

end Footage.Timestamp
