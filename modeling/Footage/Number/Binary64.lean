import Footage.Number.Rounding
/-!
# Doubles

A double is its 64 bits.  `Binary64.form` reads them as a sign, a significand and an exponent,
an infinity or not a number; `Binary64.ofRatio` rounds a quotient of naturals to the nearest
double, a tie to the even significand.  All arithmetic is exact arithmetic on naturals and
integers, so every double has one meaning that proofs can compute with.
-/

namespace Footage.Number

/-- A double, as its 64 bits. -/
structure Binary64 where
  bits : UInt64
deriving DecidableEq, Repr, Inhabited

namespace Binary64

/-- What a double stands for: `finite s m e` is `m · 2 ^ e`, negated when `s`. -/
inductive Form where
  | nan
  | infinite (negative : Bool)
  | finite (negative : Bool) (significand : Nat) (exponent : Int)
deriving DecidableEq, Repr

/-- The sign bit. -/
def negative (x : Binary64) : Bool := x.bits.toNat / 2 ^ 63 == 1

/-- The eleven exponent bits. -/
def field (x : Binary64) : Nat := x.bits.toNat / 2 ^ 52 % 2048

/-- The 52 fraction bits. -/
def fraction (x : Binary64) : Nat := x.bits.toNat % 2 ^ 52

/-- The meaning of the bits. -/
def form (x : Binary64) : Form :=
  if x.field = 2047 then
    if x.fraction = 0 then .infinite x.negative else .nan
  else if x.field = 0 then .finite x.negative x.fraction (-1074)
  else .finite x.negative (2 ^ 52 + x.fraction) ((x.field : Int) - 1075)

/-- The double with the given sign whose other 63 bits are `magnitude`. -/
def ofMagnitude (negative : Bool) (magnitude : Nat) : Binary64 :=
  ⟨UInt64.ofNat ((if negative then 2 ^ 63 else 0) + magnitude)⟩

/-- The 63 bits of an infinity. -/
def infinityMagnitude : Nat := 2047 * 2 ^ 52

/-- The infinity of a sign. -/
def infinity (negative : Bool) : Binary64 := ofMagnitude negative infinityMagnitude

/-- The quiet value that is not a number. -/
def nan (negative : Bool) : Binary64 := ofMagnitude negative (infinityMagnitude + 2 ^ 51)

/-- The zero of a sign. -/
def zero (negative : Bool) : Binary64 := ofMagnitude negative 0

/-- Whether the double is not a number. -/
def isNaN (x : Binary64) : Bool := x.form = .nan

/-- Whether the double is an infinity. -/
def isInfinite (x : Binary64) : Bool := x.form = .infinite x.negative

/-- `num / den` in units of `2 ^ e`, rounded. -/
def scaled (num den : Nat) (e : Int) : Nat :=
  if 0 ≤ e then roundDiv num (den * 2 ^ e.toNat) else roundDiv (num * 2 ^ (-e).toNat) den

/-- The exponent at which `num / den` has 53 significant bits, but at least that of the
subnormal doubles. -/
def unitExponent (num den : Nat) : Int :=
  let guess : Int := (Nat.log2 num : Int) - Nat.log2 den - 53
  let wide :=
    if 0 ≤ guess then den * 2 ^ guess.toNat * 2 ^ 53 ≤ num
    else den * 2 ^ 53 ≤ num * 2 ^ (-guess).toNat
  max (if wide then guess + 1 else guess) (-1074)

/-- The 63 bits of the double nearest to `num / den`, a tie to the even significand; what is too
large becomes an infinity. -/
def roundedMagnitude (num den : Nat) : Nat :=
  if num = 0 then 0
  else
    let e := unitExponent num den
    let m := scaled num den e
    min infinityMagnitude (if m < 2 ^ 52 then m else (e + 1075).toNat * 2 ^ 52 + (m - 2 ^ 52))

/-- The double nearest to `num / den`, with the given sign. -/
def ofRatio (negative : Bool) (num den : Nat) : Binary64 :=
  ofMagnitude negative (roundedMagnitude num den)

/-- The double nearest to an integer, or `none` when the integer is too large for one. -/
def ofInt? (n : Int) : Option Binary64 :=
  let x := ofRatio (n < 0) n.natAbs 1
  if x.isInfinite then none else some x

/-- The double nearest to `digits · 10 ^ exponent`, with the given sign.  What lies far outside
the range of the doubles is decided by its number of digits alone. -/
def ofDecimal (negative : Bool) (digits : Nat) (exponent : Int) : Binary64 :=
  if digits = 0 then zero negative
  else
    let magnitude : Int := (Nat.toDigits 10 digits).length + exponent
    if 310 < magnitude then infinity negative
    else if magnitude < -400 then zero negative
    else if 0 ≤ exponent then ofRatio negative (digits * 10 ^ exponent.toNat) 1
    else ofRatio negative digits (10 ^ (-exponent).toNat)

/-- Whether the double is below zero; neither zero is, nor what is not a number. -/
def isBelowZero (x : Binary64) : Bool :=
  match x.form with
  | .nan => false
  | .infinite s => s
  | .finite s m _ => s && m != 0

/-- Whether the double is zero, of either sign. -/
def isZero (x : Binary64) : Bool :=
  match x.form with
  | .finite _ m _ => m == 0
  | _ => false

/-- The integer part of the magnitude `m · 2 ^ e`. -/
def wholePart (m : Nat) (e : Int) : Nat :=
  if 0 ≤ e then m * 2 ^ e.toNat else m / 2 ^ (-e).toNat

/-- The magnitude `m · 2 ^ e` rounded to a natural, a tie to the even one. -/
def roundedPart (m : Nat) (e : Int) : Nat :=
  if 0 ≤ e then m * 2 ^ e.toNat else roundDiv m (2 ^ (-e).toNat)

/-- `factor` times the fractional part of the magnitude `m · 2 ^ e`, as a double. -/
def scaledFraction (factor m : Nat) (e : Int) : Binary64 :=
  if 0 ≤ e then zero false
  else ofRatio false (factor * (m % 2 ^ (-e).toNat)) (2 ^ (-e).toNat)

end Binary64

end Footage.Number
