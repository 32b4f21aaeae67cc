import Footage.Text.Printable
/-!
# Quoted texts

A text or a byte string shown inside a message stands in quotes: single ones, unless the text
holds a single quote and no double one.  The backslash and the quote in use are escaped, as are
line feed, carriage return, tab and every character that is not printable.  `Text.quote` and
`Text.quoteBytes` write this form; `Text.quoteMark` is the rule for the quotes.
-/

namespace Footage.Text

/-- `n` in lower-case hexadecimal, in at least `width` places. -/
def hex (width n : Nat) : List Char :=
  let digits := Nat.toDigits 16 n
  List.replicate (width - digits.length) '0' ++ digits

/-- The quotes around a text: single, unless it holds a single quote and no double one. -/
def quoteMark (cs : List Char) : Char :=
  if cs.contains '\'' && !cs.contains '"' then '"' else '\''

/-- A character in a text that stands in the quotes `mark`. -/
def escape (mark c : Char) : List Char :=
  if c == mark || c == '\\' then ['\\', c]
  else if c == '\n' then ['\\', 'n']
  else if c == '\r' then ['\\', 'r']
  else if c == '\t' then ['\\', 't']
  else if printable c then [c]
  else if c.toNat < 256 then '\\' :: 'x' :: hex 2 c.toNat
  else if c.toNat < 65536 then '\\' :: 'u' :: hex 4 c.toNat
  else '\\' :: 'U' :: hex 8 c.toNat

/-- The text in quotes. -/
def quote (s : String) : String :=
  let mark := quoteMark s.toList
  String.ofList (mark :: s.toList.flatMap (escape mark) ++ [mark])

/-- A byte in a byte string that stands in the quotes `mark`: it shows as its ASCII character
or as two hexadecimal digits. -/
def escapeByte (mark : Char) (b : UInt8) : List Char :=
  let c := Char.ofNat b.toNat
  if b.toNat < 127 then escape mark c else '\\' :: 'x' :: hex 2 b.toNat

/-- The byte string in quotes, marked by a leading `b`. -/
def quoteBytes (bytes : List UInt8) : String :=
  let mark := quoteMark (bytes.map fun b => Char.ofNat b.toNat)
  String.ofList ('b' :: mark :: bytes.flatMap (escapeByte mark) ++ [mark])

end Footage.Text
