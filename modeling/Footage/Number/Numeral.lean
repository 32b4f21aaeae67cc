import Footage.Number.Binary64
import Footage.Text.Blank
import Footage.Text.Digit
/-!
# Numerals

The texts that denote a double: a decimal with an optional fraction and exponent, or a word for
infinity or for what is not a number, in any case and with an optional sign.  White space may
surround the numeral, the digits may be those of any script, and a single underscore may stand
between two digits.  `Numeral.read?` reads such a text and refuses every other.
-/

namespace Footage.Number.Numeral

/-- The characters without the underscores that stand between two digits; `none` when an
underscore stands elsewhere.  `after` tells whether the character before was a digit. -/
def joinDigits (after : Bool) : List Char → Option (List Char)
  | [] => some []
  | '_' :: rest =>
    match rest with
    | c :: _ => if after && Text.isDigit c then joinDigits false rest else none
    | [] => none
  | c :: rest => (joinDigits (Text.isDigit c) rest).map (c :: ·)

/-- The values of the digits at the front, and what follows them. -/
def spanDigits : List Char → List Nat × List Char
  | [] => ([], [])
  | c :: rest =>
    match Text.digit? c with
    | some d => let (ds, rest') := spanDigits rest; (d :: ds, rest')
    | none => ([], c :: rest)

/-- The natural number with these decimal digits. -/
def ofDigits (ds : List Nat) : Nat := ds.foldl (fun n d => 10 * n + d) 0

/-- A sign at the front: whether it is a minus, and what follows. -/
def takeSign : List Char → Bool × List Char
  | '-' :: rest => (true, rest)
  | '+' :: rest => (false, rest)
  | rest => (false, rest)

/-- An exponent that makes up all of the text, or no text at all. -/
def exponent? : List Char → Option Int
  | [] => some 0
  | c :: rest =>
    if c = 'e' || c = 'E' then
      let (negative, rest) := takeSign rest
      match spanDigits rest with
      | (d :: ds, []) =>
        let n : Int := ofDigits (d :: ds)
        some (if negative then -n else n)
      | _ => none
    else none

/-- An unsigned decimal: its digits as one natural number, and the exponent of ten. -/
def decimal? (cs : List Char) : Option (Nat × Int) :=
  let (whole, rest) := spanDigits cs
  let (fraction, rest) :=
    match rest with
    | '.' :: rest => spanDigits rest
    | rest => ([], rest)
  if whole.isEmpty && fraction.isEmpty then none
  else (exponent? rest).map fun e => (ofDigits (whole ++ fraction), e - fraction.length)

/-- The double that the characters denote. -/
def ofChars? (cs : List Char) : Option Binary64 :=
  let (negative, rest) := takeSign cs
  let word := rest.map Char.toLower
  if word = "inf".toList || word = "infinity".toList then some (.infinity negative)
  else if word = "nan".toList then some (.nan negative)
  else (decimal? rest).map fun (digits, e) => .ofDecimal negative digits e

/-- The double that a text denotes. -/
def read? (s : String) : Option Binary64 :=
  (joinDigits false (Text.trim Text.isBlank s.toList)).bind ofChars?

end Footage.Number.Numeral
