import Footage.Store
import Footage.Wire.Tree.Value
/-!
# The service

A service answers requests from the stores in a table.  Each operation looks the addressed name
up in the table that it is given, so the table may change from one request to the next; a name
that is not there ends the call with the status `NOT_FOUND`.  Faults of a store go on unchanged.
-/

namespace Footage.Service

variable {σ : Type}

/-- Logs a message of the service. -/
def log (message : String) : Act σ Unit := Act.log "videostore.service" .debug message

/-- Logs that a request with an id has arrived. -/
def received (method : Wire.Method) (requestId name : String) : Act σ Unit :=
  log ("Received " ++ method.name ++ " request: " ++ requestId ++ " for " ++ name)

/-- The store under a name. -/
def resolve (table : Store.Table σ) (name : String) : Act σ (Store σ) :=
  match table.lookup name with
  | some store => pure store
  | none => throw (.aborted .notFound ("No videostore resource named " ++ Text.quote name ++ "."))

/-- The video that the addressed store has for a range. -/
def fetch (table : Store.Table σ) (r : Wire.FetchRequest) : Act σ Wire.FetchResponse := do
  received .fetch r.requestId r.name
  let store ← resolve table r.name
  return { video := ← store.fetch r.start r.stop r.container, requestId := r.requestId }

/-- Has the addressed store save a range, and reports the name of the file. -/
def save (table : Store.Table σ) (r : Wire.SaveRequest) : Act σ Wire.SaveResponse := do
  received .save r.requestId r.name
  let store ← resolve table r.name
  let filename ← store.save r.start r.stop r.container r.metadata r.background
  return { filename, requestId := r.requestId }

/-- The responses of a stream, one for each chunk that the store produces. -/
def fetchStream (table : Store.Table σ) (r : Wire.FetchStreamRequest) :
    Act σ (Feed σ Wire.FetchStreamResponse) := do
  received .fetchStream r.requestId r.name
  let store ← resolve table r.name
  return (← store.fetchStream r.start r.stop r.container).map fun chunk =>
    return { video := chunk, requestId := r.requestId }

/-- Writes the responses of a stream, each before the store goes on to the next chunk. -/
def relay (table : Store.Table σ) (r : Wire.FetchStreamRequest)
    (write : Wire.FetchStreamResponse → Act σ Unit) : Act σ Unit := do
  (← fetchStream table r).forEach fun response => do
    write response
    Act.note (.written response)

/-- Carries out a command.  An empty result is left out of the response. -/
def doCommand (table : Store.Table σ) (r : Wire.DoCommandRequest) :
    Act σ Wire.DoCommandResponse := do
  log ("Received DoCommand request for " ++ r.name)
  let store ← resolve table r.name
  let command ← Act.ofExcept ((r.command.getD {}).toRecord.mapError Fault.conversion)
  let result ← store.doCommand command
  if result.isEmpty then return {}
  let answer ← Act.ofExcept ((Value.toStruct result).mapError Fault.conversion)
  return { result := some answer }

/-- A server with the methods of the service. -/
structure Server where
  address : String
  port : Int
  methods : List Wire.Method := Wire.Method.all
deriving DecidableEq, Repr

/-- The address that leaves the choice of the port to the system. -/
def Server.anyAddress : String := "[::]:0"

/-- A server for an address, given the port that binding it came to; zero means failure. -/
def Server.bind (address : String) (bound : Int) : Act σ Server :=
  if bound = 0 then throw (.misuse (.unbound address))
  else do
    log ("Videostore server bound to port " ++ toString bound ++ ".")
    return { address, port := bound }

end Footage.Service
