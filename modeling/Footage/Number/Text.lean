import Footage.Number.Shortest
/-!
# Doubles as text

`Binary64.text` writes a double with its shortest decimal, and `Layout` collects the decisions of
the format: from which magnitudes on a number is written with an exponent, and how.
-/

namespace Footage.Number

/-- How a decimal number is laid out. -/
structure Layout where
  /-- Numbers from `10 ^ positionalFrom` on are written without an exponent … -/
  positionalFrom : Int
  /-- … if they lie below `10 ^ positionalBelow`. -/
  positionalBelow : Int
  /-- The fewest digits of an exponent. -/
  exponentWidth : Nat
  infinity : String
  nan : String

/-- Numbers from `0.0001` to below `1e+16` are positional, with at least one decimal; an exponent
has a sign and two digits or more. -/
def Layout.plain : Layout where
  positionalFrom := -4
  positionalBelow := 16
  exponentWidth := 2
  infinity := "inf"
  nan := "nan"

/-- The decimal digits of a natural number. -/
def decimalDigits (n : Nat) : List Char := Nat.toDigits 10 n

/-- The digits with leading zeros up to `width` places. -/
def padded (width n : Nat) : List Char :=
  let digits := decimalDigits n
  List.replicate (width - digits.length) '0' ++ digits

/-- The digits without the zeros at the end. -/
def dropZeros (digits : List Char) : List Char := (digits.reverse.dropWhile (· == '0')).reverse

/-- A magnitude in a layout: the significant digits, of which `point` stand before the decimal
point. -/
def Layout.magnitude (layout : Layout) (digits : List Char) (point : Int) : List Char :=
  if layout.positionalFrom < point && point ≤ layout.positionalBelow then
    if point ≤ 0 then '0' :: '.' :: List.replicate (-point).toNat '0' ++ digits
    else if digits.length ≤ point.toNat then
      digits ++ List.replicate (point.toNat - digits.length) '0' ++ ['.', '0']
    else digits.take point.toNat ++ '.' :: digits.drop point.toNat
  else
    let exponent := point - 1
    let fraction := digits.drop 1
    digits.take 1 ++ (if fraction.isEmpty then [] else '.' :: fraction) ++
      'e' :: (if exponent < 0 then '-' else '+') :: padded layout.exponentWidth exponent.natAbs

/-- A double in a layout. -/
def Layout.text (layout : Layout) (x : Binary64) : String :=
  match x.form with
  | .nan => layout.nan
  | .infinite s => (if s then "-" else "") ++ layout.infinity
  | .finite s m e =>
    let body :=
      if m = 0 then ['0', '.', '0']
      else
        let d := Shortest.decimal m e
        let digits := decimalDigits d.digits
        layout.magnitude (dropZeros digits) (digits.length + d.exponent)
    String.ofList ((if s then ['-'] else []) ++ body)

/-- The double as it is shown everywhere in this library. -/
def Binary64.text (x : Binary64) : String := Layout.plain.text x

end Footage.Number
