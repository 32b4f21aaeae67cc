import Footage.Proofs.Act.Outcome
import Footage.Text.Split
import Footage.Timestamp

/-!
# Which texts are timestamps

The grammar of timestamps says for each field in which forms a number is written (`YearForm`,
`MonthForm` and so on), and a timestamp is written as six fields with separators between them
(`Fields`).  `parse_iff_written` states that the reader accepts just the texts of the grammar and
comes to the moment that they denote, of which there is only one, as there is only one way to divide
a text into fields.

The reader goes through the forms of a field in an order of preference, and a shorter form may match
the front of a longer one.  This does no harm: before a separator a field is read in one way only
(`before_unique`), and among the ways to read the seconds, which end the text, the longer one
comes first (`head?_second`).
-/

namespace Footage.Timestamp

open Calendar (Moment)

/-! ### The grammar -/

/-- A digit of ASCII with its value. -/
def IsAscii (c : Char) (d : Nat) : Prop := d < 10 ∧ c.toNat = 48 + d

/-- A decimal digit of any script with its value. -/
def IsDigit (c : Char) (d : Nat) : Prop := Text.digit? c = some d

instance (c : Char) (d : Nat) : Decidable (IsAscii c d) := inferInstanceAs (Decidable (_ ∧ _))

instance (c : Char) (d : Nat) : Decidable (IsDigit c d) := inferInstanceAs (Decidable (_ = _))

/-- The forms in which numbers are written in a field. -/
abbrev Form := List Char → Nat → Prop

/-- Four digits of any script. -/
inductive YearForm : Form where
  | digits {a b c d : Char} {w x y z : Nat} :
      IsDigit a w → IsDigit b x → IsDigit c y → IsDigit d z →
      YearForm [a, b, c, d] (1000 * w + 100 * x + 10 * y + z)

/-- `1` to `12` in digits of ASCII; two of them may be written for any of these numbers. -/
inductive MonthForm : Form where
  | one {c : Char} {d : Nat} : IsAscii c d → 1 ≤ d → MonthForm [c] d
  | two {c c' : Char} {t u : Nat} :
      IsAscii c t → IsAscii c' u → 1 ≤ 10 * t + u → 10 * t + u ≤ 12 →
      MonthForm [c, c'] (10 * t + u)

/-- `1` to `31` in digits of ASCII, but for the last digit of `10` to `29`; a zero or a space may
stand before a single digit. -/
inductive DayForm : Form where
  | one {c : Char} {d : Nat} : IsAscii c d → 1 ≤ d → DayForm [c] d
  | padded {c : Char} {d : Nat} : IsAscii c d → 1 ≤ d → DayForm ['0', c] d
  | spaced {c : Char} {d : Nat} : IsAscii c d → 1 ≤ d → DayForm [' ', c] d
  | two {c c' : Char} {t u : Nat} : IsAscii c t → 1 ≤ t → t ≤ 2 → IsDigit c' u →
      DayForm [c, c'] (10 * t + u)
  | thirty {c : Char} {u : Nat} : IsAscii c u → u ≤ 1 → DayForm ['3', c] (30 + u)

/-- `0` to `23` in one digit of any script, or in two of which the last may be of any script before
`20`. -/
inductive HourForm : Form where
  | one {c : Char} {d : Nat} : IsDigit c d → HourForm [c] d
  | two {c c' : Char} {t u : Nat} : IsAscii c t → t ≤ 1 → IsDigit c' u →
      HourForm [c, c'] (10 * t + u)
  | twenty {c : Char} {u : Nat} : IsAscii c u → u ≤ 3 → HourForm ['2', c] (20 + u)

/-- `0` to `59` in one digit of any script, or in two of which the last may be of any script. -/
inductive SixtyForm : Form where
  | one {c : Char} {d : Nat} : IsDigit c d → SixtyForm [c] d
  | two {c c' : Char} {t u : Nat} : IsAscii c t → t ≤ 5 → IsDigit c' u →
      SixtyForm [c, c'] (10 * t + u)

/-- The fields of a timestamp as they are written. -/
structure Fields where
  year : List Char
  month : List Char
  day : List Char
  hour : List Char
  minute : List Char
  second : List Char

namespace Fields

/-- The fields with the separators between them. -/
def chars (f : Fields) : List Char :=
  f.year ++ '-' :: (f.month ++ '-' :: (f.day ++ '_' ::
    (f.hour ++ '-' :: (f.minute ++ '-' :: f.second))))

/-- The fields are written in the forms of the grammar, and denote a moment that exists. -/
structure Denote (f : Fields) (t : Moment) : Prop where
  year : YearForm f.year t.year
  begun : 1 ≤ t.year
  month : MonthForm f.month t.month
  day : DayForm f.day t.day
  exists_day : t.day ≤ Calendar.daysIn t.year t.month
  hour : HourForm f.hour t.hour
  minute : SixtyForm f.minute t.minute
  second : SixtyForm f.second t.second
  micro : t.micro = 0

end Fields

/-! ### What the forms have in common -/

/-- The number that digits denote, where a space counts as nothing. -/
def worth (front : List Char) : Nat :=
  front.foldl (fun n c => 10 * n + (Text.digit? c).getD 0) 0

/-- The text consists of digits and spaces, and denotes the number as usual. -/
def Plain : Form := fun front n => (∀ c ∈ front, c = ' ' ∨ Text.isDigit c = true) ∧ n = worth front

theorem IsAscii.isDigit {c : Char} {d : Nat} (h : IsAscii c d) : IsDigit c d := by
  obtain ⟨small, code⟩ := h
  have low : ¬ 48 + d < 48 := by omega
  have high : 48 + d < 48 + 10 := by omega
  have value : 48 + d - 48 = d := by omega
  rw [IsDigit, Text.digit?, code, Text.zeros, Text.digitIn, if_neg low, if_pos high, value]

theorem IsAscii.eq {c c' : Char} {d : Nat} (h : IsAscii c d) (h' : IsAscii c' d) : c = c' :=
  Char.toNat_inj.1 (h.2.trans h'.2.symm)

theorem isAscii_zero : IsAscii '0' 0 := ⟨by decide, by decide⟩

theorem isAscii_two : IsAscii '2' 2 := ⟨by decide, by decide⟩

theorem isAscii_three : IsAscii '3' 3 := ⟨by decide, by decide⟩

theorem IsDigit.isDigit {c : Char} {d : Nat} (h : IsDigit c d) : Text.isDigit c = true := by
  rw [Text.isDigit, h]
  rfl

theorem IsDigit.getD {c : Char} {d : Nat} (h : IsDigit c d) : (Text.digit? c).getD 0 = d := by
  rw [h]
  rfl

theorem plain_one {c : Char} {d : Nat} (h : IsDigit c d) : Plain [c] d := by
  refine ⟨?_, by simp [worth, h.getD]⟩
  simp [h.isDigit]

theorem plain_two {c c' : Char} {t u : Nat} (tens : IsDigit c t) (units : IsDigit c' u) :
    Plain [c, c'] (10 * t + u) := by
  refine ⟨?_, by simp [worth, tens.getD, units.getD]⟩
  simp [tens.isDigit, units.isDigit]

theorem YearForm.plain {front : List Char} {n : Nat} (h : YearForm front n) : Plain front n := by
  obtain ⟨ha, hb, hc, hd⟩ := h
  refine ⟨?_, ?_⟩
  · simp [ha.isDigit, hb.isDigit, hc.isDigit, hd.isDigit]
  · simp only [worth, List.foldl_cons, List.foldl_nil, ha.getD, hb.getD, hc.getD, hd.getD]
    omega

theorem MonthForm.plain {front : List Char} {n : Nat} (h : MonthForm front n) : Plain front n := by
  cases h with
  | one h => exact plain_one h.isDigit
  | two tens units => exact plain_two tens.isDigit units.isDigit

theorem DayForm.plain {front : List Char} {n : Nat} (h : DayForm front n) : Plain front n := by
  cases h with
  | one h => exact plain_one h.isDigit
  | padded h => simpa using plain_two isAscii_zero.isDigit h.isDigit
  | spaced h =>
    have blank : (Text.digit? ' ').getD 0 = 0 := by decide
    refine ⟨?_, by simp [worth, blank, h.isDigit.getD]⟩
    simp [h.isDigit.isDigit]
  | two tens _ _ units => exact plain_two tens.isDigit units
  | thirty units _ => exact plain_two isAscii_three.isDigit units.isDigit

theorem HourForm.plain {front : List Char} {n : Nat} (h : HourForm front n) : Plain front n := by
  cases h with
  | one h => exact plain_one h
  | two tens _ units => exact plain_two tens.isDigit units
  | twenty units _ => exact plain_two isAscii_two.isDigit units.isDigit

theorem SixtyForm.plain {front : List Char} {n : Nat} (h : SixtyForm front n) : Plain front n := by
  cases h with
  | one h => exact plain_one h
  | two tens _ units => exact plain_two tens.isDigit units

theorem SixtyForm.lt_sixty {front : List Char} {n : Nat} (h : SixtyForm front n) : n < 60 := by
  cases h with
  | one h =>
    have := Text.digit?_lt_ten h
    omega
  | two _ _ units =>
    have := Text.digit?_lt_ten units
    omega

/-- The separators of timestamps. -/
def IsSeparator (sep : Char) : Prop := sep = '-' ∨ sep = '_'

theorem Plain.notMem {front : List Char} {n : Nat} (h : Plain front n) {sep : Char}
    (separates : IsSeparator sep) : sep ∉ front := by
  intro mem
  have plain := h.1 sep mem
  rcases separates with rfl | rfl <;> revert plain <;> decide

/-- A plain field before a separator is determined by the text, and so is what follows. -/
theorem Plain.unique {front front' rest rest' : List Char} {n n' : Nat} {sep : Char}
    (separates : IsSeparator sep) (h : Plain front n) (h' : Plain front' n')
    (same : front ++ sep :: rest = front' ++ sep :: rest') :
    front = front' ∧ n = n' ∧ rest = rest' := by
  have cut := Text.cutFirst_append (h.notMem separates) rest
  rw [same, Text.cutFirst_append (h'.notMem separates)] at cut
  obtain ⟨rfl, rfl⟩ : front' = front ∧ rest' = rest := by simpa using cut
  exact ⟨rfl, h.2.trans h'.2.symm, rfl⟩

/-- The fields hold the numbers of a moment in whole seconds, in whatever forms. -/
structure Fields.Hold (f : Fields) (t : Moment) : Prop where
  year : Plain f.year t.year
  month : Plain f.month t.month
  day : Plain f.day t.day
  hour : Plain f.hour t.hour
  minute : Plain f.minute t.minute
  second : Plain f.second t.second
  micro : t.micro = 0

theorem Fields.Denote.hold {f : Fields} {t : Moment} (h : f.Denote t) : f.Hold t :=
  ⟨h.year.plain, h.month.plain, h.day.plain, h.hour.plain, h.minute.plain, h.second.plain, h.micro⟩

/-- A text is divided into fields in one way only, and they hold the numbers of one moment only. -/
theorem Fields.Hold.unique {f f' : Fields} {t t' : Moment} (h : f.Hold t) (h' : f'.Hold t')
    (same : f.chars = f'.chars) : f = f' ∧ t = t' := by
  have dash : IsSeparator '-' := .inl rfl
  obtain ⟨year, hy, afterYear⟩ := h.year.unique dash h'.year same
  obtain ⟨month, hm, afterMonth⟩ := h.month.unique dash h'.month afterYear
  obtain ⟨day, hd, afterDay⟩ := h.day.unique (.inr rfl) h'.day afterMonth
  obtain ⟨hour, hh, afterHour⟩ := h.hour.unique dash h'.hour afterDay
  obtain ⟨minute, hi, second⟩ := h.minute.unique dash h'.minute afterHour
  have hs : t.second = t'.second := by rw [h.second.2, h'.second.2, second]
  have hu : t.micro = t'.micro := by rw [h.micro, h'.micro]
  cases f
  cases f'
  cases t
  cases t'
  dsimp only at *
  subst year month day hour minute second hy hm hd hh hi hs hu
  exact ⟨rfl, rfl⟩

/-! ### What the readers read -/

/-- The ways of a reader are just the fronts of the text in a form. -/
def Reads (r : Reader) (F : Form) : Prop :=
  ∀ cs n rest, (n, rest) ∈ r cs ↔ ∃ front, F front n ∧ cs = front ++ rest

theorem Reads.congr {r : Reader} {F G : Form} (h : Reads r F)
    (same : ∀ front n, F front n ↔ G front n) : Reads r G := by
  intro cs n rest
  simp only [h cs n rest, same]

theorem reads_one (value? : Char → Option Nat) :
    Reads (one value?) fun front n => ∃ c, value? c = some n ∧ front = [c] := by
  intro cs n rest
  constructor
  · intro h
    rcases cs with - | ⟨c, cs⟩
    · cases h
    · simp only [one] at h
      split at h
      · next d hd =>
        obtain ⟨rfl, rfl⟩ : n = d ∧ rest = cs := by simpa using h
        exact ⟨[c], ⟨c, hd, rfl⟩, rfl⟩
      · cases h
  · rintro ⟨_, ⟨c, hd, rfl⟩, rfl⟩
    simp [one, hd]

theorem reads_two (tens? units? : Char → Option Nat) :
    Reads (two tens? units?) fun front n =>
      ∃ c c' t u, tens? c = some t ∧ units? c' = some u ∧ front = [c, c'] ∧ n = 10 * t + u := by
  intro cs n rest
  constructor
  · intro h
    rcases cs with - | ⟨c, - | ⟨c', cs⟩⟩
    · cases h
    · cases h
    · simp only [two] at h
      split at h
      · next t u ht hu =>
        obtain ⟨rfl, rfl⟩ : n = 10 * t + u ∧ rest = cs := by simpa using h
        exact ⟨[c, c'], ⟨c, c', t, u, ht, hu, rfl, rfl⟩, rfl⟩
      · cases h
  · rintro ⟨_, ⟨c, c', t, u, ht, hu, rfl, rfl⟩, rfl⟩
    simp [two, ht, hu]

theorem Reads.or {r s : Reader} {F G : Form} (hr : Reads r F) (hs : Reads s G) :
    Reads (r.or s) fun front n => F front n ∨ G front n := by
  intro cs n rest
  rw [Reader.or, List.mem_append, hr, hs]
  constructor
  · rintro (⟨front, h, eq⟩ | ⟨front, h, eq⟩)
    · exact ⟨front, .inl h, eq⟩
    · exact ⟨front, .inr h, eq⟩
  · rintro ⟨front, h | h, eq⟩
    · exact .inl ⟨front, h, eq⟩
    · exact .inr ⟨front, h, eq⟩

theorem mem_before {r : Reader} {F : Form} (h : Reads r F) {sep : Char} {cs rest : List Char}
    {n : Nat} :
    (n, rest) ∈ r.before sep cs ↔ ∃ front, F front n ∧ cs = front ++ sep :: rest := by
  rw [Reader.before, List.mem_filterMap]
  constructor
  · rintro ⟨⟨m, after⟩, mem, kept⟩
    dsimp only at kept
    split at kept
    · next c after =>
      obtain ⟨rfl, rfl, rfl⟩ : c = sep ∧ m = n ∧ after = rest := by simpa using kept
      exact (h cs m (c :: after)).1 mem
    · cases kept
  · rintro ⟨front, form, eq⟩
    exact ⟨(n, sep :: rest), (h cs n (sep :: rest)).2 ⟨front, form, eq⟩, by simp⟩

theorem asciiDigit?_eq_some_iff {lo hi d : Nat} {c : Char} (h : hi < 10) :
    asciiDigit? lo hi c = some d ↔ IsAscii c d ∧ lo ≤ d ∧ d ≤ hi := by
  simp only [asciiDigit?, IsAscii]
  split
  · next within =>
    simp only [Bool.and_eq_true, decide_eq_true_eq] at within
    rw [Option.some.injEq]
    omega
  · next without =>
    simp only [Bool.and_eq_true, decide_eq_true_eq] at without
    simp only [reduceCtorEq, false_iff]
    omega

theorem reads_year : Reads year YearForm := by
  intro cs n rest
  constructor
  · intro h
    rcases cs with - | ⟨a, - | ⟨b, - | ⟨c, - | ⟨d, cs⟩⟩⟩⟩
    · cases h
    · cases h
    · cases h
    · cases h
    · simp only [year] at h
      split at h
      · next w x y z ha hb hc hd =>
        obtain ⟨rfl, rfl⟩ : n = 1000 * w + 100 * x + 10 * y + z ∧ rest = cs := by simpa using h
        exact ⟨[a, b, c, d], .digits ha hb hc hd, rfl⟩
      · cases h
  · rintro ⟨_, ⟨ha, hb, hc, hd⟩, rfl⟩
    rw [IsDigit] at ha hb hc hd
    simp [year, ha, hb, hc, hd]

theorem reads_month : Reads month MonthForm := by
  refine ((reads_two _ _).or ((reads_two _ _).or (reads_one _))).congr fun front n => ?_
  simp only [asciiDigit?_eq_some_iff, Nat.reduceLT]
  constructor
  · rintro (⟨c, c', t, u, ⟨ht, _, _⟩, ⟨hu, _, _⟩, rfl, rfl⟩ |
      ⟨c, c', t, u, ⟨ht, _, _⟩, ⟨hu, _, _⟩, rfl, rfl⟩ | ⟨c, ⟨hd, low, _⟩, rfl⟩)
    · exact .two ht hu (by omega) (by omega)
    · exact .two ht hu (by omega) (by omega)
    · exact .one hd low
  · intro h
    cases h with
    | one hd low => exact .inr (.inr ⟨_, ⟨hd, low, Nat.le_of_lt_succ hd.1⟩, rfl⟩)
    | @two c c' t u ht hu low high =>
      have := hu.1
      by_cases zero : t = 0
      · exact .inr (.inl ⟨c, c', t, u, ⟨ht, by omega, by omega⟩, ⟨hu, by omega, by omega⟩, rfl,
          rfl⟩)
      · exact .inl ⟨c, c', t, u, ⟨ht, by omega, by omega⟩, ⟨hu, by omega, by omega⟩, rfl, rfl⟩

theorem reads_spaced :
    Reads spaced fun front n => ∃ c, asciiDigit? 1 9 c = some n ∧ front = [' ', c] := by
  intro cs n rest
  constructor
  · intro h
    unfold spaced at h
    split at h
    · obtain ⟨_, ⟨c, hd, rfl⟩, rfl⟩ := (reads_one _ _ _ _).1 h
      exact ⟨[' ', c], ⟨c, hd, rfl⟩, rfl⟩
    · cases h
  · rintro ⟨_, ⟨c, hd, rfl⟩, rfl⟩
    exact (reads_one _ _ _ _).2 ⟨[c], ⟨c, hd, rfl⟩, rfl⟩

theorem reads_day : Reads day DayForm := by
  refine ((reads_two _ _).or ((reads_two _ _).or ((reads_two _ _).or
    ((reads_one _).or reads_spaced)))).congr fun front n => ?_
  simp only [asciiDigit?_eq_some_iff, Nat.reduceLT]
  constructor
  · rintro (⟨c, c', t, u, ⟨ht, _, _⟩, ⟨hu, _, high⟩, rfl, rfl⟩ |
      ⟨c, c', t, u, ⟨ht, low, high⟩, hu, rfl, rfl⟩ |
      ⟨c, c', t, u, ⟨ht, _, _⟩, ⟨hu, low, _⟩, rfl, rfl⟩ | ⟨c, ⟨hd, low, _⟩, rfl⟩ |
      ⟨c, ⟨hd, low, _⟩, rfl⟩)
    · obtain rfl : t = 3 := by omega
      obtain rfl := ht.eq isAscii_three
      exact .thirty hu high
    · exact .two ht low high hu
    · obtain rfl : t = 0 := by omega
      obtain rfl := ht.eq isAscii_zero
      simpa using DayForm.padded hu low
    · exact .one hd low
    · exact .spaced hd low
  · intro h
    cases h with
    | one hd low => exact .inr (.inr (.inr (.inl ⟨_, ⟨hd, low, Nat.le_of_lt_succ hd.1⟩, rfl⟩)))
    | padded hd low =>
      exact .inr (.inr (.inl ⟨'0', _, 0, n, ⟨isAscii_zero, by omega, by omega⟩,
        ⟨hd, low, Nat.le_of_lt_succ hd.1⟩, rfl, by omega⟩))
    | spaced hd low =>
      exact .inr (.inr (.inr (.inr ⟨_, ⟨hd, low, Nat.le_of_lt_succ hd.1⟩, rfl⟩)))
    | two ht low high hu => exact .inr (.inl ⟨_, _, _, _, ⟨ht, low, high⟩, hu, rfl, rfl⟩)
    | @thirty c u hu high =>
      exact .inl ⟨'3', c, 3, u, ⟨isAscii_three, by omega, by omega⟩, ⟨hu, by omega, high⟩, rfl, rfl⟩

theorem reads_hour : Reads hour HourForm := by
  refine ((reads_two _ _).or ((reads_two _ _).or (reads_one _))).congr fun front n => ?_
  simp only [asciiDigit?_eq_some_iff, Nat.reduceLT]
  constructor
  · rintro (⟨c, c', t, u, ⟨ht, _, _⟩, ⟨hu, _, high⟩, rfl, rfl⟩ |
      ⟨c, c', t, u, ⟨ht, _, high⟩, hu, rfl, rfl⟩ | ⟨c, hd, rfl⟩)
    · obtain rfl : t = 2 := by omega
      obtain rfl := ht.eq isAscii_two
      exact .twenty hu high
    · exact .two ht high hu
    · exact .one hd
  · intro h
    cases h with
    | one hd => exact .inr (.inr ⟨_, hd, rfl⟩)
    | two ht high hu => exact .inr (.inl ⟨_, _, _, _, ⟨ht, by omega, high⟩, hu, rfl, rfl⟩)
    | @twenty c u hu high =>
      exact .inl ⟨'2', c, 2, u, ⟨isAscii_two, by omega, by omega⟩, ⟨hu, by omega, high⟩, rfl, rfl⟩

theorem reads_minute : Reads minute SixtyForm := by
  refine ((reads_two _ _).or (reads_one _)).congr fun front n => ?_
  simp only [asciiDigit?_eq_some_iff, Nat.reduceLT]
  constructor
  · rintro (⟨c, c', t, u, ⟨ht, _, high⟩, hu, rfl, rfl⟩ | ⟨c, hd, rfl⟩)
    · exact .two ht high hu
    · exact .one hd
  · intro h
    cases h with
    | one hd => exact .inr ⟨_, hd, rfl⟩
    | two ht high hu => exact .inl ⟨_, _, _, _, ⟨ht, by omega, high⟩, hu, rfl, rfl⟩

/-- Leap seconds are read too. -/
theorem sixtyForm_of_mem_second {cs rest : List Char} {n : Nat} (h : (n, rest) ∈ second cs)
    (small : n ≤ 59) : ∃ front, SixtyForm front n ∧ cs = front ++ rest := by
  rcases List.mem_append.1 h with leap | usual
  · obtain ⟨_, ⟨c, c', t, u, ht, hu, rfl, rfl⟩, rfl⟩ := (reads_two _ _ _ _ _).1 leap
    rw [asciiDigit?_eq_some_iff (by decide)] at ht
    omega
  · exact (reads_minute cs n rest).1 usual

/-- The first way to read seconds takes the whole of a form. -/
theorem head?_second {cs : List Char} {n : Nat} (h : SixtyForm cs n) :
    (second cs).head? = some (n, []) := by
  cases h with
  | @one c d hd =>
    rw [IsDigit] at hd
    simp [second, minute, Reader.or, two, one, hd]
  | @two c c' t u ht high hu =>
    have leap : asciiDigit? 6 6 c = none := by
      rw [Option.eq_none_iff_forall_ne_some]
      intro d six
      rw [asciiDigit?_eq_some_iff (by decide)] at six
      have := ht.2
      have := six.1.2
      omega
    have tens : asciiDigit? 0 5 c = some t :=
      (asciiDigit?_eq_some_iff (by decide)).2 ⟨ht, by omega, high⟩
    rw [IsDigit] at hu
    simp [second, minute, Reader.or, two, leap, tens, hu]

/-! ### The ways to read a timestamp -/

/-- A field before a separator is read in one way only. -/
theorem before_unique {r : Reader} {F : Form} (reads : Reads r F)
    (plain : ∀ {front n}, F front n → Plain front n) {sep : Char} (separates : IsSeparator sep)
    {front rest : List Char} {n : Nat} (form : F front n) :
    ∀ way ∈ r.before sep (front ++ sep :: rest), way = (n, rest) := by
  rintro ⟨m, after⟩ mem
  obtain ⟨front', form', same⟩ := (mem_before reads).1 mem
  obtain ⟨-, rfl, rfl⟩ := (plain form).unique separates (plain form') same
  rfl

/-- So what goes on after a field goes on after that one way. -/
theorem head?_flatMap_before {α : Type} {r : Reader} {F : Form} (reads : Reads r F)
    (plain : ∀ {front n}, F front n → Plain front n) {sep : Char} (separates : IsSeparator sep)
    {front rest : List Char} {n : Nat} (form : F front n) (f : Nat × List Char → List α) :
    ((r.before sep (front ++ sep :: rest)).flatMap f).head? = (f (n, rest)).head? := by
  have only : ∀ way ∈ r.before sep (front ++ sep :: rest), way = (n, rest) :=
    before_unique reads plain separates form
  have mem : (n, rest) ∈ r.before sep (front ++ sep :: rest) :=
    (mem_before reads).2 ⟨front, form, rfl⟩
  rw [List.head?_flatMap, List.eq_replicate_of_mem only,
    List.findSome?_replicate_of_pos (List.length_pos_of_mem mem)]

theorem head?_ways {f : Fields} {t : Moment} (h : f.Denote t) :
    (ways f.chars).head? = some (t, []) := by
  have dash : IsSeparator '-' := .inl rfl
  have line : IsSeparator '_' := .inr rfl
  rw [ways, Fields.chars, head?_flatMap_before reads_year YearForm.plain dash h.year,
    head?_flatMap_before reads_month MonthForm.plain dash h.month,
    head?_flatMap_before reads_day DayForm.plain line h.day,
    head?_flatMap_before reads_hour HourForm.plain dash h.hour,
    head?_flatMap_before reads_minute SixtyForm.plain dash h.minute, List.head?_map,
    head?_second h.second]
  simp [← h.micro]

/-- What is read of a text up to its end, with less than sixty seconds, is written in fields. -/
theorem exists_fields_of_mem_ways {cs : List Char} {t : Moment} (h : (t, []) ∈ ways cs)
    (begun : 1 ≤ t.year) (exists_day : t.day ≤ Calendar.daysIn t.year t.month)
    (small : t.second ≤ 59) : ∃ f : Fields, f.Denote t ∧ f.chars = cs := by
  simp only [ways, List.mem_flatMap, List.mem_map, Prod.exists, Prod.mk.injEq] at h
  obtain ⟨year, afterYear, hy, month, afterMonth, hm, day, afterDay, hd, hour, afterHour, hh,
    minute, afterMinute, hi, second, rest, hs, rfl, rfl⟩ := h
  obtain ⟨yearText, yearForm, rfl⟩ := (mem_before reads_year).1 hy
  obtain ⟨monthText, monthForm, rfl⟩ := (mem_before reads_month).1 hm
  obtain ⟨dayText, dayForm, rfl⟩ := (mem_before reads_day).1 hd
  obtain ⟨hourText, hourForm, rfl⟩ := (mem_before reads_hour).1 hh
  obtain ⟨minuteText, minuteForm, rfl⟩ := (mem_before reads_minute).1 hi
  obtain ⟨secondText, secondForm, rfl⟩ := sixtyForm_of_mem_second hs small
  refine ⟨⟨yearText, monthText, dayText, hourText, minuteText, secondText⟩, ?_, ?_⟩
  · exact ⟨yearForm, begun, monthForm, dayForm, exists_day, hourForm, minuteForm, secondForm, rfl⟩
  · simp [Fields.chars]

/-! ### Reading -/

/-- A text that is written in fields is read as the moment that they denote. -/
theorem parse_of_denote {f : Fields} {t : Moment} (h : f.Denote t) :
    parse (String.ofList f.chars) = .ok t := by
  have second := h.second.lt_sixty
  have begun := h.begun
  have day := h.exists_day
  rw [parse, String.toList_ofList, head?_ways h]
  dsimp only
  rw [if_neg (by simp), if_neg (by omega), if_neg (by omega), if_neg (by omega)]

/-- A text that is read is written in fields that denote the moment. -/
theorem exists_fields_of_parse {text : String} {t : Moment} (h : parse text = .ok t) :
    ∃ f : Fields, f.Denote t ∧ text = String.ofList f.chars := by
  simp only [parse] at h
  split at h
  · cases h
  · next t' rest first =>
    split at h
    · cases h
    · next whole =>
      split at h
      · cases h
      · next begun =>
        split at h
        · cases h
        · next day =>
          split at h
          · cases h
          · next second =>
            cases h
            obtain rfl : rest = [] := by simpa using whole
            obtain ⟨f, denote, eq⟩ := exists_fields_of_mem_ways (List.mem_of_head? first)
              (by omega) (by omega) (by omega)
            exact ⟨f, denote, by rw [eq, String.ofList_toList]⟩

/-- **Just the texts of the grammar are read as timestamps.**  A text is read as a moment if and
only if it consists of fields that denote the moment, without microseconds; the division into fields
and the moment are unique.  Every other text is refused as an unsuitable value. -/
theorem parse_iff_written (text : String) :
    (∀ t, parse text = .ok t ↔ ∃ f : Fields, f.Denote t ∧ text = String.ofList f.chars) ∧
      (∀ (f f' : Fields) (t t' : Moment), f.Denote t → f'.Denote t' →
        text = String.ofList f.chars → text = String.ofList f'.chars → f = f' ∧ t = t') ∧
      ((¬ ∃ (f : Fields) (t : Moment), f.Denote t ∧ text = String.ofList f.chars) →
        ∃ e, parse text = .error e ∧ (Fault.timestamp e).kind = .value) := by
  refine ⟨fun t => ⟨exists_fields_of_parse, ?_⟩, ?_, fun other => ?_⟩
  · rintro ⟨f, denote, rfl⟩
    exact parse_of_denote denote
  · intro f f' t t' h h' eq eq'
    exact h.hold.unique h'.hold (String.ofList_injective (eq.symm.trans eq'))
  · cases read : parse text with
    | ok t =>
      obtain ⟨f, denote, eq⟩ := exists_fields_of_parse read
      exact absurd ⟨f, t, denote, eq⟩ other
    | error e => exact ⟨e, rfl, rfl⟩

/-- A text with digits of three scripts, and one whose day is missing in its year. -/
theorem parse_iff_written_liberal :
    let f : Fields := ⟨['２', '０', '２', '４'], ['2'], ['2', '９'], ['7'], ['٣'], ['5', '٩']⟩
    let t : Moment := { year := 2024, month := 2, day := 29, hour := 7, minute := 3, second := 59 }
    f.Denote t ∧ parse "２０２４-2-2９_7-٣-5٩" = .ok t ∧
      (¬ ∃ (f : Fields) (t : Moment), f.Denote t ∧ "2023-2-29_7-3-59" = String.ofList f.chars) ∧
      ∃ e, parse "2023-2-29_7-3-59" = .error e ∧ (Fault.timestamp e).kind = .value := by
  intro f t
  have denote : f.Denote t := by
    refine ⟨.digits (w := 2) (x := 0) (y := 2) (z := 4) ?_ ?_ ?_ ?_, ?_, .one ?_ ?_,
      .two (t := 2) (u := 9) ?_ ?_ ?_ ?_, ?_, .one ?_, .one ?_, .two (t := 5) (u := 9) ?_ ?_ ?_,
      rfl⟩
      <;> decide
  have other : ¬ ∃ (f : Fields) (t : Moment), f.Denote t ∧
      "2023-2-29_7-3-59" = String.ofList f.chars := by
    rintro ⟨f', t', written⟩
    have read := ((parse_iff_written "2023-2-29_7-3-59").1 t').2 ⟨f', written⟩
    cases read
  exact ⟨denote, ((parse_iff_written _).1 t).2 ⟨f, denote, by decide⟩, other,
    (parse_iff_written _).2.2 other⟩

end Footage.Timestamp
