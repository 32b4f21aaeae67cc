import Footage.CommandLine.Reading
import Footage.Log
import Footage.Number.Numeral
import Footage.Text.Upper
import Footage.Timestamp
/-!
# The options of the program

What can be said on the command line: how the store is reached (`Connection`), and what is to be
done with which range (`Job`).  A range is given by both of its ends or by its length up to now
(`Job.range`), and the address may come from the environment (`Connection.addressOr`).
-/

namespace Footage.CommandLine

open Number (Binary64 Quantity)

namespace Setting

/-- The setting as it is shown. -/
def shown : Setting String → String
  | blank => "[]"
  | value s => s

/-- The fault of using a blank setting where only a text makes sense. -/
def blankInRequest : Fault := .unsuitable "bad argument type for built-in operation"

/-- The text of a setting that goes into a request. -/
def inRequest : Setting String → Except Fault String
  | blank => .error blankInRequest
  | value s => .ok s

end Setting

/-! ### The connection -/

/-- How the store is reached, and how much of the log is shown. -/
structure Connection where
  logLevel : Option (Setting Log.Level) := none
  address : Option (Setting String) := none
  name : Setting String := .value "vs-1"
  remote : Setting String := .value ""
  /-- The deadline of each call in seconds. -/
  timeout : Option (Setting Binary64) := none
  secure : Bool := false
deriving DecidableEq, Repr

namespace Connection

/-- The levels that can be asked for. -/
def levels : List Log.Level := [.critical, .error, .warning, .info, .debug]

/-- The level of a name in any case. -/
def readLevel (text : String) : Except Objection Log.Level :=
  let name := Text.upper text
  match levels.find? (·.name == name) with
  | some level => .ok level
  | none => .error (.notAmong name (levels.map Log.Level.name))

/-- The number of seconds that a text denotes. -/
def readSeconds (text : String) : Except Objection Binary64 :=
  match Number.Numeral.read? text with
  | some x => .ok x
  | none => .error (.notANumber text)

/-- The version of the program. -/
def version : String := "0.1.0"

/-- The variable of the environment that holds the address. -/
def addressVariable : String := "VIDEOSTORE_ADDRESS"

/-- The switches for the connection. -/
def switches : List (Switch Connection) := [
  { names := ["--version"]
    effect := .announce ("videostore version " ++ version ++ "\n")
    help := "show program's version number and exit" },
  .setting ["--log-level"] ("\x7b" ++ ",".intercalate (levels.map Log.Level.name) ++ "\x7d")
    "Optionally configure console logging to the indicated level." readLevel
    fun level c => { c with logLevel := some level },
  .text ["--address"] "ADDRESS"
    ("Server address as HOST:PORT. (Default: $" ++ addressVariable ++ ")")
    fun address c => { c with address := some address },
  .text ["--name"] "NAME" "Video store resource name. (Default: vs-1)"
    fun name c => { c with name },
  .text ["--remote"] "REMOTE" "Remote through which the resource is reached."
    fun remote c => { c with remote },
  .setting ["--timeout"] "TIMEOUT" "Per-call deadline in seconds." readSeconds
    fun timeout c => { c with timeout := some timeout },
  { names := ["--tls"]
    effect := .mark fun c => { c with secure := true }
    help := "Use a secure channel with default SSL credentials." }]

/-- The form of the connection alone. -/
def form (withHelp : Bool) : Form Connection where
  program := "videostore"
  switches := (if withHelp then [Switch.showHelp] else []) ++ switches

/-- The address of the server: the one given, unless that is empty, or else the default. -/
def addressOr (c : Connection) (default : Option String) : Except Fault String :=
  let given := match c.address with
    | some (.value a) => if a = "" then none else some a
    | _ => none
  match given.or default with
  | some a => if a = "" then .error (.misfit .addressMissing) else .ok a
  | none => .error (.misfit .addressMissing)

/-- The deadline as it was given. -/
def deadline (c : Connection) : Value :=
  match c.timeout with
  | none => .null
  | some .blank => .list []
  | some (.value x) => .real x

end Connection

/-! ### The job -/

/-- What is to be done with the range. -/
inductive Task where
  /-- Fetches it in one response and writes it to a file. -/
  | fetch (output : Setting String)
  /-- Saves it on the server. -/
  | save (metadata : Setting String) (background : Bool)
  /-- Streams it to a file. -/
  | stream (output : Setting String)
deriving DecidableEq, Repr

namespace Task

/-- The command that asks for the task. -/
def name : Task → String
  | fetch _ => "fetch"
  | save .. => "save"
  | stream _ => "stream"

/-- The task with another file. -/
def setOutput (output : Setting String) : Task → Task
  | fetch _ => fetch output
  | stream _ => stream output
  | task => task

/-- The task with other metadata. -/
def setMetadata (metadata : Setting String) : Task → Task
  | save _ background => save metadata background
  | task => task

/-- The task, done in the background where that is possible. -/
def inBackground : Task → Task
  | save metadata _ => save metadata true
  | task => task

end Task

/-- A task with the range that it is for. -/
structure Job where
  start : Option (Setting String) := none
  stop : Option (Setting String) := none
  /-- The length of a range that ends now, in seconds. -/
  last : Option (Setting Quantity) := none
  container : Setting String := .value "mp4"
  task : Task
deriving DecidableEq, Repr

namespace Job

/-- The switches for the range. -/
def rangeSwitches : List (Switch Job) := [
  .text ["--from"] "TIMESTAMP" "Start of the range (YYYY-MM-DD_HH-MM-SS)."
    fun start j => { j with start := some start },
  .text ["--to"] "TIMESTAMP" "End of the range (YYYY-MM-DD_HH-MM-SS)."
    fun stop j => { j with stop := some stop },
  .setting ["--last"] "SECONDS" "Use the most recent SECONDS, ending now (UTC)."
    (fun text => (Connection.readSeconds text).map Quantity.real)
    fun last j => { j with last := some last },
  .text ["--container"] "CONTAINER" "Output container format. (Default: mp4)"
    fun container j => { j with container }]

/-- The switch for the file that the video goes to. -/
def outputSwitch : Switch Job :=
  .text ["-o", "--output"] "OUTPUT" "File to write the video to."
    (fun output j => { j with task := j.task.setOutput output }) true

/-- The switches for a file on the server. -/
def saveSwitches : List (Switch Job) := [
  .text ["--metadata"] "METADATA" "Metadata to attach to the saved file."
    fun metadata j => { j with task := j.task.setMetadata metadata },
  { names := ["--async"]
    effect := .mark fun j => { j with task := j.task.inBackground }
    help := "Return before the file is complete." }]

/-- A command for a task, with its own switches. -/
def command (task : Task) (help : String) (own : List (Switch Job)) : Command Job where
  name := task.name
  help
  start := { task }
  switches := .showHelp :: rangeSwitches ++ own

/-- The commands of the program. -/
def commands : List (Command Job) := [
  command (.fetch .blank) "Fetch a range in one response." [outputSwitch],
  command (.save (.value "") false) "Save a range to a file on the server." saveSwitches,
  command (.stream .blank) "Stream a range in chunks." [outputSwitch]]

/-- The ends of the range, given the time now. -/
def range (j : Job) (now : Calendar.Moment) : Except Fault (Setting String × Setting String) :=
  match j.last, j.start, j.stop with
  | none, some start, some stop => .ok (start, stop)
  | none, _, _ => .error (.misfit .rangeMissing)
  | some .blank, none, none => .error (.unordered "<" "list" "int")
  | some (.value seconds), none, none =>
    match Timestamp.range seconds now with
    | .ok (start, stop) => .ok (.value start, .value stop)
    | .error e => .error (.range e)
  | some _, _, _ => .error (.misfit .lastWithRange)

end Job

/-! ### The whole command line -/

/-- The command lines of the program, which may be called by another name. -/
def grammar (program : String := "videostore") : Grammar Connection Job where
  program
  description := "Fetch, save, or stream ranges of stored video from a videostore service."
  start := {}
  switches := .showHelp :: Connection.switches
  commands := Job.commands

end Footage.CommandLine
