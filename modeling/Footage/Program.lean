import Footage.Client
import Footage.CommandLine.Options
import Footage.Files
/-!
# The program

Fetches, saves or streams a range of video as a command line asks for.  `Program.execute` ends with
a status: 0 for success, 1 when the remote call failed, and 2 when the command line was at fault;
any other fault goes on.

A streamed file is all or nothing: chunks go to a temporary file beside the output, which takes
the place of the output only when the stream is complete (`Program.download`).
-/

namespace Footage.Program

open CommandLine

/-- What the program finds when it starts. -/
structure Environment where
  now : Calendar.Moment
  /-- The address to use where the command line gives none. -/
  address : Option String
  /-- Opens a channel to an address, secure or not. -/
  connect : String → Bool → Channel Disk

/-- Logs what the program does. -/
def log (message : String) : Act Disk Unit := Act.log "videostore.__main__" .info message

/-- The text of a setting that goes into a request. -/
def inRequest (s : Setting String) : Act Disk String := Act.ofExcept s.inRequest

/-- The path that a setting gives. -/
def asPath : Setting String → Act Disk String
  | .blank => throw (.unsuitable "expected str, bytes or os.PathLike object, not list")
  | .value path => return path

/-- The client that the connection settings describe. -/
def client (c : Connection) (channel : Channel Disk) (options : Client.Options) :
    Except Fault (Client Disk) :=
  match c.name with
  | .blank => .error (.unoffered "list" "prepend_remote")
  | .value name =>
    match Resource.Name.ofBase name with
    | .error e => .error (.misuse e)
    | .ok name =>
      .ok (Client.make channel name options
        (match c.remote with
          | .blank => ""
          | .value remote => remote))

/-- Writes bytes to a file. -/
def writeFile (path : Setting String) (bytes : Bytes) : Act Disk Unit := do
  let place ← Files.create (← asPath path)
  Files.append place bytes
  Files.close

/-- Streams a range to a file and counts the bytes.  The temporary file is removed when the
stream fails; when it cannot be closed or moved after that, it stays. -/
def download (c : Client Disk) (start stop container output : Setting String) :
    Act Disk Nat := do
  let path ← asPath output
  let file ← Files.createTemporary ((← Act.state).absolute path).parent
  let total ← Act.guarding
    (do c.streamInto (← inRequest start) (← inRequest stop) (← inRequest container)
          (Files.append file.place))
    fun _ => do
      Files.close
      Files.remove file.place
  Files.close
  Files.move file path
  return total

/-- Carries out a task for a range. -/
def perform (c : Client Disk) (start stop container : Setting String) : Task → Act Disk Unit
  | .fetch output => do
    let video ← c.fetch (← inRequest start) (← inRequest stop) (← inRequest container)
    writeFile output video
    log ("Wrote " ++ toString video.length ++ " bytes to " ++ output.shown)
  | .save metadata background => do
    let filename ← c.save (← inRequest start) (← inRequest stop) (← inRequest container)
      (← inRequest metadata) background
    Act.note (.printed (filename ++ "\n"))
  | .stream output => do
    let total ← download c start stop container output
    log ("Stream complete: wrote " ++ toString total ++ " bytes to " ++ output.shown)

/-- Does a job over a connection.  The range, the address and the deadline are accepted before a
channel is opened, and an open channel is closed whatever happens. -/
def run (env : Environment) (c : Connection) (j : Job) : Act Disk Unit := do
  let (start, stop) ← Act.ofExcept (j.range env.now)
  let address ← Act.ofExcept (c.addressOr env.address)
  let options ← Act.ofExcept (Client.Options.make (.value .null) c.deadline)
  Act.note (.opened address c.secure)
  Act.ensuring
    (do
      let store ← Act.ofExcept (client c (env.connect address c.secure) options)
      log (j.task.name ++ " " ++ store.name.text ++ " from " ++ start.shown ++ " to " ++
        stop.shown ++ " (" ++ j.container.shown ++ ")")
      perform store start stop j.container j.task)
    (Act.note .closed)

/-- Sets the console up as the command line asks for. -/
def configure : Option (Setting Log.Level) → Act Disk Unit
  | none => pure ()
  | some .blank => throw (.unsuitable "Level not an integer or a valid string: []")
  | some (.value level) => Act.note (.configured level)

/-- What the program makes of a fault: a complaint and a status, or the fault itself. -/
def report (task : Task) (e : Fault) : Act Disk Nat :=
  if e.isOwn then do
    Act.note (.complained ((grammar).form.complaint e.message))
    return 2
  else match e with
    | .rpc code details => do
      Act.note (.complained (task.name ++ " failed: " ++ code.name ++ ": " ++ details ++ "\n"))
      return 1
    | e => throw e

/-- Runs the program and yields its status. -/
def execute (env : Environment) (args : List String) : Act Disk Nat := do
  match (grammar).parse args with
  | .error (.answer text) =>
    Act.note (.printed text)
    return 0
  | .error (.complaint text) =>
    Act.note (.complained text)
    return 2
  | .ok (c, j) =>
    configure c.logLevel
    match ← Act.attempt (run env c j) with
    | .ok () => return 0
    | .error e => report j.task e

end Footage.Program
