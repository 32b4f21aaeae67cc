import Footage.Proofs.Number.Digits
import Footage.Proofs.Timestamp.Grammar

/-!
# What a written timestamp says

A text says which moment it is, to the second, if it consists of fields that hold the numbers of the
moment (`Says`).  It says this of one moment only (`Says.unique`).  `says_format_iff` states that a
moment is written as a text that says which one it is without its microseconds, so two moments are
written alike just if they differ in nothing but microseconds (`format_eq_iff`).
-/

namespace Footage.Timestamp

open Calendar (Moment)

/-! ### Written numbers -/

theorem isAscii_of_isDigit {c : Char} (h : c.isDigit = true) : IsAscii c (c.toNat - 48) := by
  have range := Number.toNat_bounds h
  refine ⟨?_, ?_⟩ <;> omega

theorem isDigit_of_ascii {c : Char} (h : c.isDigit = true) : IsDigit c (c.toNat - '0'.toNat) :=
  (isAscii_of_isDigit h).isDigit

theorem worth_eq_ofDigitChars {front : List Char} (h : ∀ c ∈ front, c.isDigit = true) :
    worth front = Nat.ofDigitChars 10 front 0 := by
  rw [worth, Nat.ofDigitChars_eq_foldl]
  refine List.foldl_rel (r := Eq) rfl ?_
  rintro c mem n _ rfl
  rw [(isDigit_of_ascii (h c mem)).getD]

/-- Digits are plain. -/
theorem plain_worth {front : List Char} (h : ∀ c ∈ front, c.isDigit = true) :
    Plain front (worth front) :=
  ⟨fun c mem => .inr (isDigit_of_ascii (h c mem)).isDigit, rfl⟩

/-- Zeros before a number leave it as it is. -/
theorem plain_padded (width n : Nat) : Plain (Number.padded width n) n := by
  have digits : ∀ c ∈ Number.padded width n, c.isDigit = true := fun _ =>
    Number.isDigit_of_mem_padded
  have plain := plain_worth digits
  rwa [worth_eq_ofDigitChars digits, Number.ofDigitChars_padded] at plain

theorem plain_decimalDigits (n : Nat) : Plain (Number.decimalDigits n) n := by
  simpa [Number.padded] using plain_padded 0 n

/-! ### Written moments -/

/-- The text says which moment it is, to the second. -/
def Says (text : String) (t : Moment) : Prop :=
  ∃ f : Fields, f.Hold t ∧ text = String.ofList f.chars

/-- A text says only of one moment that it is this one. -/
theorem Says.unique {text : String} {t t' : Moment} (h : Says text t) (h' : Says text t') :
    t = t' := by
  obtain ⟨f, hold, eq⟩ := h
  obtain ⟨f', hold', eq'⟩ := h'
  exact (hold.unique hold' (String.ofList_injective (eq.symm.trans eq'))).2

/-- The fields in which a moment is written. -/
def Fields.written (t : Moment) : Fields where
  year := Number.decimalDigits t.year
  month := Number.padded 2 t.month
  day := Number.padded 2 t.day
  hour := Number.padded 2 t.hour
  minute := Number.padded 2 t.minute
  second := Number.padded 2 t.second

theorem format_eq_written (t : Moment) : format t = String.ofList (Fields.written t).chars := by
  simp [format, Fields.chars, Fields.written]

theorem hold_written (t : Moment) : (Fields.written t).Hold t.truncated :=
  ⟨plain_decimalDigits _, plain_padded 2 _, plain_padded 2 _, plain_padded 2 _, plain_padded 2 _,
    plain_padded 2 _, rfl⟩

/-- A moment is written as the text that says which one it is without its microseconds. -/
theorem says_format (t : Moment) : Says (format t) t.truncated :=
  ⟨_, hold_written t, format_eq_written t⟩

theorem says_format_iff {t t' : Moment} : Says (format t) t' ↔ t' = t.truncated := by
  constructor
  · intro said
    exact said.unique (says_format t)
  · rintro rfl
    exact says_format t

theorem format_truncated (t : Moment) : format t.truncated = format t := rfl

/-- Two moments are written alike just if they differ in nothing but microseconds. -/
theorem format_eq_iff {s t : Moment} : format s = format t ↔ s.truncated = t.truncated := by
  constructor
  · intro same
    exact says_format_iff.1 (same ▸ says_format s)
  · intro same
    rw [← format_truncated, same, format_truncated]

end Footage.Timestamp
