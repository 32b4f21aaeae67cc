import Footage.Number.Text
/-!
# Quantities

A number as callers give it: whole, or a double, or a flag that counts as one or zero.  A
quantity keeps the form in which it was given.
-/

namespace Footage.Number

/-- A number in the form in which it was given. -/
inductive Quantity where
  | flag (b : Bool)
  | whole (n : Int)
  | real (x : Binary64)
deriving DecidableEq, Repr

namespace Quantity

/-- The quantity as it is shown.  A whole number is shown with all its digits, however many they
are: that a number may be too long to be shown is not modelled. -/
def text : Quantity → String
  | flag b => if b then "True" else "False"
  | whole n => toString n
  | real x => x.text

/-- Whether the quantity lies below zero. -/
def isBelowZero : Quantity → Bool
  | flag _ => false
  | whole n => n < 0
  | real x => x.isBelowZero

/-- Whether the quantity is zero or lies below it; what is not a number does neither. -/
def isAtMostZero : Quantity → Bool
  | flag b => !b
  | whole n => n ≤ 0
  | real x => x.isBelowZero || x.isZero

end Quantity

end Footage.Number
