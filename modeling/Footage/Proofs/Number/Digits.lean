import Footage.Number.Text

/-!
# Digits of a fixed width

Texts of the same number of digits are ordered as the numbers that they denote
(`lt_iff_ofDigitChars_lt`), so each number has one such text at most (`IsDigits.eq_of_value_eq`).
Padding writes a number in a width that it fits into in just so many digits (`isDigits_padded`).
-/

namespace Footage.Number

/-- The text consists of so many digits of ASCII. -/
def IsDigits (width : Nat) (cs : List Char) : Prop :=
  cs.length = width ∧ ∀ c ∈ cs, c.isDigit = true

instance (width : Nat) (cs : List Char) : Decidable (IsDigits width cs) :=
  inferInstanceAs (Decidable (_ ∧ _))

/-- The codes of the digits. -/
theorem toNat_bounds {c : Char} (h : c.isDigit = true) : 48 ≤ c.toNat ∧ c.toNat ≤ 57 := by
  simpa [Char.isDigit, UInt32.le_iff_toNat_le] using h

/-- A text of digits begins with one of them. -/
theorem IsDigits.exists_cons {width : Nat} {cs : List Char} (h : IsDigits (width + 1) cs) :
    ∃ c rest, cs = c :: rest ∧ c.isDigit = true ∧ IsDigits width rest := by
  obtain ⟨length, digits⟩ := h
  obtain ⟨c, rest, rfl⟩ := List.exists_cons_of_length_eq_add_one length
  obtain ⟨first, others⟩ := List.forall_mem_cons.1 digits
  exact ⟨c, rest, rfl, first, Nat.succ.inj length, others⟩

/-- Digits that go on after two numbers keep the order of the numbers, and between equal numbers the
order of the texts decides. -/
theorem ofDigitChars_lt_iff {width : Nat} {cs cs' : List Char} (h : IsDigits width cs)
    (h' : IsDigits width cs') (m m' : Nat) :
    Nat.ofDigitChars 10 cs m < Nat.ofDigitChars 10 cs' m' ↔ m < m' ∨ m = m' ∧ cs < cs' := by
  induction width generalizing cs cs' m m' with
  | zero =>
    obtain rfl := List.eq_nil_of_length_eq_zero h.1
    obtain rfl := List.eq_nil_of_length_eq_zero h'.1
    simp
  | succ width ih =>
    obtain ⟨c, rest, rfl, digit, others⟩ := h.exists_cons
    obtain ⟨c', rest', rfl, digit', others'⟩ := h'.exists_cons
    have bounds := toNat_bounds digit
    have bounds' := toNat_bounds digit'
    have lt_iff : c < c' ↔ c.toNat < c'.toNat := UInt32.lt_iff_toNat_lt
    have eq_iff : c = c' ↔ c.toNat = c'.toNat := Char.toNat_inj.symm
    have zero : '0'.toNat = 48 := rfl
    rw [Nat.ofDigitChars_cons, Nat.ofDigitChars_cons, ih others others', List.cons_lt_cons_iff,
      lt_iff, eq_iff, zero]
    -- What remains compares two numbers with one more digit each.
    generalize (rest < rest') = later
    by_cases h : later
    · simp only [h, and_true]
      omega
    · simp only [h, and_false, or_false]
      omega

/-- **Texts of the same number of digits are ordered as the numbers that they denote.** -/
theorem lt_iff_ofDigitChars_lt {width : Nat} {cs cs' : List Char} (h : IsDigits width cs)
    (h' : IsDigits width cs') :
    cs < cs' ↔ Nat.ofDigitChars 10 cs 0 < Nat.ofDigitChars 10 cs' 0 := by
  simp [ofDigitChars_lt_iff h h']

/-- In a fixed width there is one way to write a number. -/
theorem IsDigits.eq_of_value_eq {width : Nat} {cs cs' : List Char} (h : IsDigits width cs)
    (h' : IsDigits width cs') (same : Nat.ofDigitChars 10 cs 0 = Nat.ofDigitChars 10 cs' 0) :
    cs = cs' := by
  have not_less : ¬ cs < cs' := by rw [lt_iff_ofDigitChars_lt h h']; omega
  have not_greater : ¬ cs' < cs := by rw [lt_iff_ofDigitChars_lt h' h]; omega
  exact List.le_antisymm (List.not_lt.1 not_greater) (List.not_lt.1 not_less)

/-- Padded numbers consist of digits. -/
theorem isDigit_of_mem_padded {width n : Nat} {c : Char} (h : c ∈ padded width n) :
    c.isDigit = true := by
  rcases List.mem_append.1 h with zero | digit
  · rw [List.eq_of_mem_replicate zero]
    rfl
  · exact Nat.isDigit_of_mem_toDigits (by decide) (by decide) digit

/-- A number that fits into a width is padded to just this width. -/
theorem isDigits_padded {width n : Nat} (pos : 0 < width) (fits : n < 10 ^ width) :
    IsDigits width (padded width n) := by
  refine ⟨?_, fun c mem => isDigit_of_mem_padded mem⟩
  have short : (decimalDigits n).length ≤ width :=
    (Nat.length_toDigits_le_iff (by decide) pos).2 fits
  rw [padded, List.length_append, List.length_replicate]
  omega

theorem ofDigitChars_padded (width n : Nat) : Nat.ofDigitChars 10 (padded width n) 0 = n := by
  rw [padded, Nat.ofDigitChars_append, Nat.ofDigitChars_replicate_zero, Nat.mul_zero,
    decimalDigits, Nat.ofDigitChars_toDigits (by decide) (by decide)]

/-- A number with as many digits as the width, or with more, is not padded at all. -/
theorem padded_eq_decimalDigits {width n : Nat} (le : 10 ^ width ≤ n) :
    padded (width + 1) n = decimalDigits n := by
  have long : width < (decimalDigits n).length := by
    rcases Nat.eq_zero_or_pos width with rfl | pos
    · exact Nat.length_toDigits_pos
    · rw [← Nat.not_le]
      intro short
      exact Nat.not_lt.2 le ((Nat.length_toDigits_le_iff (by decide) pos).1 short)
  rw [padded, show width + 1 - (decimalDigits n).length = 0 by omega]
  rfl

end Footage.Number
