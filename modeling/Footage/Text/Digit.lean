/-!
# Decimal digits

The decimal digits of all scripts, by the Unicode character database, version 14.  Each script
has its ten digits in a row, so the table `Text.zeros` lists the code points of the zeros and
`Text.digit?` gives a character's value.
-/

namespace Footage.Text

/-- The code points of the digits zero, in increasing order. -/
def zeros : List Nat := [
  48, 1632, 1776, 1984, 2406, 2534, 2662, 2790, 2918, 3046, 3174, 3302, 3430, 3558, 3664, 3792,
  3872, 4160, 4240, 6112, 6160, 6470, 6608, 6784, 6800, 6992, 7088, 7232, 7248, 42528, 43216,
  43264, 43472, 43504, 43600, 44016, 65296, 66720, 68912, 69734, 69872, 69942, 70096, 70384,
  70736, 70864, 71248, 71360, 71472, 71904, 72016, 72784, 73040, 73120, 92768, 92864, 93008,
  120782, 120792, 120802, 120812, 120822, 123200, 123632, 125264, 130032]

/-- The value of `n` as a digit of one of the rows that begin at the given zeros. -/
def digitIn : List Nat → Nat → Option Nat
  | [], _ => none
  | first :: rest, n =>
    if n < first then none else if n < first + 10 then some (n - first) else digitIn rest n

/-- The value of a decimal digit of any script. -/
def digit? (c : Char) : Option Nat := digitIn zeros c.toNat

/-- Whether the character is a decimal digit of some script. -/
def isDigit (c : Char) : Bool := (digit? c).isSome

theorem digitIn_lt_ten {zs : List Nat} {n d : Nat} (h : digitIn zs n = some d) : d < 10 := by
  induction zs with
  | nil => simp [digitIn] at h
  | cons first rest ih =>
    simp only [digitIn] at h
    split at h
    · simp at h
    · split at h
      · simp at h; omega
      · exact ih h

/-- A digit's value is below ten. -/
theorem digit?_lt_ten {c : Char} {d : Nat} (h : digit? c = some d) : d < 10 :=
  digitIn_lt_ten h

end Footage.Text
