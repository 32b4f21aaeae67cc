import Footage.Act
/-!
# Reading a journal

What a journal says about a run: the texts that were shown, the chunks that were handed over, and
what became of the disk.
-/

namespace Footage.Journal

/-- The text on the standard output. -/
def output (journal : List Event) : String :=
  String.join (journal.filterMap fun
    | .printed text => some text
    | _ => none)

/-- The text on the standard error output, on a console that stamps the log with a time. -/
def errorOutput (time : String) (c : Log.Console) : List Event → String
  | [] => ""
  | .configured level :: rest => errorOutput time (c.add level) rest
  | .logged entry :: rest => String.join (c.lines time entry) ++ errorOutput time c rest
  | .complained text :: rest => text ++ errorOutput time c rest
  | _ :: rest => errorOutput time c rest

/-- The chunks that were handed to a callback or a writer, in order. -/
def deliveries (journal : List Event) : List Bytes :=
  journal.filterMap fun
    | .delivered chunk => some chunk
    | _ => none

/-- The changes of the disk, in order. -/
def changes (journal : List Event) : List Disk.Change :=
  journal.filterMap fun
    | .changed c => some c
    | _ => none

end Footage.Journal
