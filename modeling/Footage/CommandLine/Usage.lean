import Footage.CommandLine.Switch
import Footage.Text.Fill
/-!
# Usage and help

How a form is described: the usage, which names every switch on a few lines, and the help, which
tells what each switch and command does.
-/

namespace Footage.CommandLine

open Text (fill closeUp blanksOf)

variable {α : Type}

/-- How long the lines may grow. -/
def lineWidth : Nat := 78

/-- Where the explanations in the help stand. -/
def helpColumn : Nat := 24

/-! ### Usage -/

/-- The parts of the usage for a switch; one that need not be given stands in brackets. -/
def Switch.usageParts (s : Switch α) : List String :=
  let words := s.names.take 1 ++ s.metavar?.toList
  if s.required then words else ["[" ++ " ".intercalate words ++ "]"]

namespace Form

/-- The commands in one word. -/
def commandWord (f : Form α) : String :=
  "\x7b" ++ ",".intercalate (f.commands.map (·.1)) ++ "\x7d"

/-- The parts of the usage for the commands. -/
def commandParts (f : Form α) : List String :=
  if f.commands.isEmpty then [] else [f.commandWord, "..."]

/-- How the program is used.  What does not fit on one line starts below the first switch, or,
where the name of the program is too long for that, below that name; the commands then have lines
of their own. -/
def usage (f : Form α) : String :=
  let lead := "usage: "
  let parts := f.switches.flatMap Switch.usageParts
  let whole := " ".intercalate (([f.program] ++ parts ++ f.commandParts).filter (· ≠ ""))
  let besides := lead.length + f.program.length + 1
  let (indent, lines) :=
    if lead.length + whole.length ≤ lineWidth then (0, [whole])
    else if 4 * (lead.length + f.program.length) ≤ 3 * lineWidth then
      (besides,
        if parts.isEmpty then fill lineWidth besides lead.length (f.program :: f.commandParts)
        else fill lineWidth besides lead.length (f.program :: parts) ++
          fill lineWidth besides besides f.commandParts)
    else
      let below := fill lineWidth lead.length lead.length
      let all := below (parts ++ f.commandParts)
      (lead.length,
        f.program :: if all.length > 1 then below parts ++ below f.commandParts else all)
  closeUp (lead ++ ("\n" ++ blanksOf indent).intercalate lines) ++ "\n"

/-- What is said when a command line is refused. -/
def complaint (f : Form α) (message : String) : String :=
  f.usage ++ f.program ++ ": error: " ++ message ++ "\n"

end Form

/-! ### Help -/

/-- An entry of the help, with its explanation beside it if there is room and else below. -/
def helpEntry (indent : Nat) (head explanation : String) : String :=
  let beside := indent + head.length + 2 ≤ helpColumn
  let lines := fill (lineWidth - helpColumn) 0 0 (explanation.splitOn " ")
  let gap := if beside then blanksOf (helpColumn - indent - head.length)
    else "\n" ++ blanksOf helpColumn
  blanksOf indent ++ head ++ gap ++ ("\n" ++ blanksOf helpColumn).intercalate lines ++ "\n"

/-- A switch as the help heads it, with all its names. -/
def Switch.helpHead (s : Switch α) : String :=
  ", ".intercalate (s.names.map fun name => " ".intercalate (name :: s.metavar?.toList))

namespace Form

/-- The help on the commands. -/
def commandHelp (f : Form α) : String :=
  "positional arguments:\n" ++ blanksOf 2 ++ f.commandWord ++ "\n" ++
    String.join (f.commands.map fun (name, help) => helpEntry 4 name help)

/-- The help on the switches. -/
def switchHelp (f : Form α) : String :=
  "options:\n" ++ String.join (f.switches.map fun s => helpEntry 2 s.helpHead s.help)

/-- All that can be said about the form. -/
def help (f : Form α) : String :=
  let description := if f.description = "" then []
    else ["\n".intercalate (fill lineWidth 0 0 (f.description.splitOn " ")) ++ "\n"]
  let commands := if f.commands.isEmpty then [] else [f.commandHelp]
  "\n".intercalate ([f.usage] ++ description ++ commands ++ [f.switchHelp])

end Form

end Footage.CommandLine
