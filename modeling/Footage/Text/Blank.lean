/-!
# Blank characters

The white space that may surround a numeral: the six of ASCII and the white-space characters of
the other scripts.  Around other texts the four separators of ASCII are white space as well.
-/

namespace Footage.Text

/-- The code points of the blank characters, in ranges of increasing order. -/
def blanks : List (Nat × Nat) := [
  (9, 13), (32, 32), (133, 133), (160, 160), (5760, 5760), (8192, 8202), (8232, 8233),
  (8239, 8239), (8287, 8287), (12288, 12288)]

/-- Whether the character is white space. -/
def isBlank (c : Char) : Bool := blanks.any fun (lo, hi) => lo ≤ c.toNat && c.toNat ≤ hi

/-- Whether the character is blank or one of the separators of files, groups, records and
units. -/
def isSpace (c : Char) : Bool := isBlank c || (28 ≤ c.toNat && c.toNat ≤ 31)

/-- The characters without those at either end that satisfy a test. -/
def trim (p : Char → Bool) (cs : List Char) : List Char :=
  ((cs.dropWhile p).reverse.dropWhile p).reverse

end Footage.Text
