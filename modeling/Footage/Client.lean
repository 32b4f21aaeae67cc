import Footage.Resource.Name
import Footage.Store
/-!
# Clients

A client reaches a video store through a channel.  It sends one request per operation, shows
every request to its hook before it is sent, and passes on what comes back unchanged; it checks
nothing, retries nothing and remembers nothing.

A streaming operation is a map of feeds (`Client.feed`).  When it fails with an ordinary fault,
wherever that came from, the client logs the failure, cancels the call and shows the fault to the
hook, in this order, before the fault goes on.  A fault of the hook itself is logged and
forgotten, if it is ordinary.

The callbacks and writers of a stream are called while the operation is waited for, so a fault of
theirs that is an exhaustion reaches the caller as another one (`Act.awaited`); the log and the hook
see the exhaustion itself.  What a channel does is waited for too, and its faults are such as they
reach the one who waits.

`Client.asStore` is the client seen as a store.
-/

namespace Footage

open Number (Quantity)

/-- Something that should be of one sort and may turn out to be a value that is not. -/
inductive Candidate (α : Type) where
  | usable (a : α)
  | value (v : Value)

/-- A diagnostic hook: from all that has happened and the item that it is shown, the fault that
it raises, if any. -/
abbrev Hook := List Event → Item → Option Fault

/-- What a callback comes back with. -/
inductive Reply (σ : Type) where
  /-- A value, in which no one is interested. -/
  | value (v : Value)
  /-- Something to be waited for, which then comes to a value. -/
  | awaitable (rest : Act σ Value)

/-- Waits for a reply that is to be waited for. -/
def Reply.settle {σ : Type} : Reply σ → Act σ Unit
  | value _ => pure ()
  | awaitable rest => do discard rest.awaited

/-- The settings of a client. -/
structure Client.Options where
  hook : Option Hook := none
  /-- How many seconds a call may take. -/
  deadline : Option Quantity := none

/-- A deadline as it was given: nothing, or a quantity above zero. -/
def Client.Options.checkDeadline (given : Value) : Except Fault (Option Quantity) :=
  match given with
  | .null => .ok none
  | v =>
    match v.quantity? with
    | none => .error (.unordered "<=" v.sortName "int")
    | some q => if q.isAtMostZero then .error (.misuse (.timeout q)) else .ok (some q)

/-- The settings with a hook and a deadline as they were given; a null stands for neither. -/
def Client.Options.make (hook : Candidate Hook) (deadline : Value) :
    Except Fault Client.Options := do
  let hook ← match hook with
    | .usable h => .ok (some h)
    | .value .null => .ok none
    | .value v => .error (.misuse (.hook v))
  return { hook, deadline := ← checkDeadline deadline }

/-- A way to a server: each operation sends a request, with a deadline, and yields the
response. -/
structure Channel (σ : Type) where
  fetch : Wire.FetchRequest → Option Quantity → Act σ Wire.FetchResponse
  save : Wire.SaveRequest → Option Quantity → Act σ Wire.SaveResponse
  fetchStream : Wire.FetchStreamRequest → Option Quantity → Act σ (Feed σ Wire.FetchStreamResponse)
  doCommand : Wire.DoCommandRequest → Act σ Wire.DoCommandResponse

/-- A video store that is reached through a channel. -/
structure Client (σ : Type) where
  channel : Channel σ
  name : Resource.Name
  options : Client.Options := {}

namespace Client

variable {σ : Type}

/-- A client for a resource that is reached through a remote, or directly if that is empty. -/
def make (channel : Channel σ) (name : Resource.Name) (options : Options := {})
    (remote : String := "") : Client σ :=
  { channel, name := name.via remote, options }

/-- The client as an expression. -/
def shown (c : Client σ) : String := "<VideoStoreClient " ++ c.name.text ++ ">"

/-- Logs a message about the client's resource. -/
def log (c : Client σ) (level : Log.Level) (message : String)
    (about : Option Fault.Kind := none) : Act σ Unit :=
  Act.log "videostore.client" level (c.name.text ++ ": " ++ message) about

/-- Logs the type of an item and shows the item to the hook. -/
def present (c : Client σ) (item : Item) : Act σ Unit := do
  c.log .debug item.typeName
  match c.options.hook with
  | none => pure ()
  | some hook =>
    let past ← Act.history
    Act.note (.hooked item)
    match hook past item with
    | none => pure ()
    | some e =>
      if e.isOrdinary then
        c.log .error ("request_logger raised while handling " ++ item.typeName ++ ".") e.kind
      else throw e

/-- Presents a request and notes that it is sent. -/
def send (c : Client σ) (r : Request) : Act σ Unit := do
  c.present (.request r)
  Act.note (.called r c.options.deadline)

/-- The encoded video of a range. -/
def fetch (c : Client σ) (start stop : String) (container : String := "") : Act σ Bytes := do
  let requestId ← Act.drawId
  let r : Wire.FetchRequest := { name := c.name.short, start, stop, container, requestId }
  c.send (.fetch r)
  return (← c.channel.fetch r c.options.deadline).video

/-- Saves a range to a file on the server, which reports the name of the file. -/
def save (c : Client σ) (start stop : String) (container metadata : String := "")
    (background : Bool := false) : Act σ String := do
  let requestId ← Act.drawId
  let r : Wire.SaveRequest :=
    { name := c.name.short, start, stop, container, metadata, background, requestId }
  c.send (.save r)
  return (← c.channel.save r c.options.deadline).filename

/-- Reacts to a fault of a stream after `count` chunks; `cancel` is what the far side does when it
is told, for which no one waits. -/
def streamFailed (c : Client σ) (cancel : Act σ Unit) (count : Nat) (e : Fault) : Act σ Unit :=
  if e.isOrdinary then do
    c.log .error ("FetchStream failed after " ++ toString count ++ " chunk(s): " ++ e.shown)
    Act.note .cancelled
    discard (Act.attempt cancel)
    c.present (.fault e)
  else pure ()

/-- The chunks in the responses of a call. -/
def chunks (c : Client σ) (call : Feed σ Wire.FetchStreamResponse) : Feed σ Bytes where
  items := call.items.mapIdx fun i next =>
    Act.guarding (do return (← next).video) (c.streamFailed (pure ()) i)
  finish := do
    call.finish.guarding (c.streamFailed (pure ()) call.items.length)
    c.log .debug ("FetchStream finished after " ++ toString call.items.length ++ " chunk(s).")
  abandon taken e := c.streamFailed (call.abandon taken .cancelled) (taken - 1) e

/-- The encoded video of a range in chunks, as they come. -/
def feed (c : Client σ) (start stop container : String) : Act σ (Feed σ Bytes) := do
  let requestId ← Act.drawId
  let r : Wire.FetchStreamRequest := { name := c.name.short, start, stop, container, requestId }
  c.send (.fetchStream r)
  return c.chunks (← c.channel.fetchStream r c.options.deadline)

/-- Hands a chunk to a callback, and waits for what the callback comes back with if that is to be
waited for. -/
def hand (callback : Bytes → Act σ (Reply σ)) (chunk : Bytes) : Act σ Unit := do
  Act.note (.delivered chunk)
  (← callback chunk).settle

/-- Streams a range, with a callback on each chunk. -/
def fetchStream (c : Client σ) (start stop container : String)
    (onChunk : Candidate (Bytes → Act σ (Reply σ))) : Act σ Unit :=
  match onChunk with
  | .value v => throw (.misuse (.callback v))
  | .usable callback =>
    Act.awaited do (← c.feed start stop container).forEach (hand callback)

/-- Hands a chunk to a writer, and adds its bytes to those that were counted before.  No one is
interested in what the writer comes back with. -/
def handOn {α : Type} (write : Bytes → Act σ α) (total : Nat) (chunk : Bytes) : Act σ Nat := do
  Act.note (.delivered chunk)
  let _ ← write chunk
  return total + chunk.length

/-- Streams a range into a writer and counts the bytes. -/
def streamInto {α : Type} (c : Client σ) (start stop container : String)
    (write : Bytes → Act σ α) : Act σ Nat :=
  Act.awaited do (← c.feed start stop container).fold (handOn write) 0

/-- Commands are not sent on: the result is always empty. -/
def doCommand (_ : Client σ) (_ : List (String × Value)) : Act σ (List (String × Value)) :=
  return []

/-- The channel belongs to the caller, so there is nothing to release. -/
def close (_ : Client σ) : Act σ Unit := return ()

/-- The client as a store. -/
def asStore (c : Client σ) : Store σ where
  fetch := fun start stop container => c.fetch start stop container
  save := fun start stop container metadata background =>
    c.save start stop container metadata background
  fetchStream := c.feed
  doCommand := c.doCommand

end Client

end Footage
