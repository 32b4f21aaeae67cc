/-!
# Words on lines

`fill` puts words on lines, each on the line of the word before it as long as that one does not
grow beyond a width.  No word is lost, doubled or moved: `flatten_fillFrom`.

`closeUp` takes the surplus empty lines out of a text.
-/

namespace Footage.Text

/-- The lines that words make when `line` is begun and the next word would stand at `column`.
Lines after the first one start at `indent`. -/
def fillFrom (width indent : Nat) : (column : Nat) → (line words : List String) →
    List (List String)
  | _, line, [] => if line.isEmpty then [] else [line]
  | column, line, w :: ws =>
    if column + w.length > width ∧ line ≠ [] then
      line :: fillFrom width indent (indent + w.length + 1) [w] ws
    else fillFrom width indent (column + w.length + 1) (line ++ [w]) ws

theorem flatten_fillFrom (width indent column : Nat) (line words : List String) :
    (fillFrom width indent column line words).flatten = line ++ words := by
  induction words generalizing column line with
  | nil => cases line <;> simp [fillFrom]
  | cons w ws ih =>
    simp only [fillFrom]
    split <;> simp [ih]

/-- The lines of the words, of which the first one starts at `column` and the others at
`indent`, without the white space in front. -/
def fill (width indent column : Nat) (words : List String) : List String :=
  (fillFrom width indent column [] words).map fun line => " ".intercalate line

/-- The characters with at most two line breaks in a row, of which `breaks` have passed. -/
def closeUpFrom : (breaks : Nat) → List Char → List Char
  | _, [] => []
  | breaks, c :: rest =>
    if c ≠ '\n' then c :: closeUpFrom 0 rest
    else if breaks < 2 then c :: closeUpFrom (breaks + 1) rest
    else closeUpFrom breaks rest

/-- The text with one empty line wherever there were more. -/
def closeUp (s : String) : String := String.ofList (closeUpFrom 0 s.toList)

/-- So many blanks. -/
def blanksOf (n : Nat) : String := String.ofList (List.replicate n ' ')

end Footage.Text
