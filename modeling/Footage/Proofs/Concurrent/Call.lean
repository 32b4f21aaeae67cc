import Footage.Proofs.Act.Within
import Footage.Proofs.Client.Session
import Footage.Proofs.Service.Dispatch

/-!
# One call, step by step

A call goes on in steps, some of which the caller's side takes and some the serving side.  The
caller's side sends the request, takes the messages that have come, one at a time, and waits for
what its callback comes back with (`Call.caller`).  The serving side looks up the resource, calls
it, produces the chunks and writes them (`Call.server`); once the caller has given the call up it
may stop (`Call.stop`).  Between the two sides are the messages that are on their way, in order.

Each step does what the operation of the client, the handler of the service or the channel between
them does at this place; a fault of the serving side becomes a message, and a fault on the caller's
side ends the call.
-/

namespace Footage

variable {σ : Type}

/-- A request after a trip as bytes. -/
def Request.carry : Request → Act σ Request
  | fetch r => do return fetch (← Channel.carry r)
  | save r => do return save (← Channel.carry r)
  | fetchStream r => do return fetchStream (← Channel.carry r)
  | doCommand r => do return doCommand (← Channel.carry r)

namespace Concurrent

/-- What the serving side sends for a call. -/
inductive Message where
  | video (response : Wire.FetchResponse)
  | saved (response : Wire.SaveResponse)
  | chunk (response : Wire.FetchStreamResponse)
  /-- The stream has come to its end. -/
  | finished
  /-- The call has failed, with a fault as the caller sees it. -/
  | failed (e : Fault)

/-- The id of the request that the message answers, if it has one. -/
def Message.id? : Message → Option String
  | video response => some response.requestId
  | saved response => some response.requestId
  | chunk response => some response.requestId
  | finished | failed _ => none

/-- An operation that makes a call. -/
inductive Asked (σ : Type) where
  | fetch (start stop container : String)
  | save (start stop container metadata : String) (background : Bool)
  | fetchStream (start stop container : String) (callback : Bytes → Act σ (Reply σ))
  | streamInto (start stop container : String) (write : Bytes → Act σ Unit)

namespace Asked

/-- The operation of a client that makes the call. -/
def operation : Asked σ → Client.Operation σ
  | fetch start stop container => .fetch start stop container
  | save start stop container metadata background => .save start stop container metadata background
  | fetchStream start stop container callback =>
    .fetchStream start stop container (.usable callback)
  | streamInto start stop container write => .streamInto start stop container write

/-- The request of the call, with an id. -/
def request (c : Client σ) (requestId : String) : Asked σ → Request
  | fetch start stop container => .fetch (c.fetchRequest start stop container requestId)
  | save start stop container metadata background =>
    .save (c.saveRequest start stop container metadata background requestId)
  | fetchStream start stop container _ | streamInto start stop container _ =>
    .fetchStream (c.streamRequest start stop container requestId)

/-- Whether the call is a stream. -/
def isStream : Asked σ → Bool
  | fetch .. | save .. => false
  | fetchStream .. | streamInto .. => true

/-- What becomes of a chunk; a writer comes back with nothing to wait for. -/
def accept (chunk : Bytes) : Asked σ → Act σ (Reply σ)
  | fetchStream _ _ _ callback => callback chunk
  | streamInto _ _ _ write => do
    write chunk
    return .value .null
  | _ => return .value .null

/-- What a stream returns after so many bytes. -/
def result (total : Nat) : Asked σ → Client.Result
  | streamInto .. => .written total
  | _ => .done

/-- A fault of the call as it reaches the caller. -/
def raised (e : Fault) (asked : Asked σ) : Fault := if asked.isStream then e.awaited else e

/-- How the client reacts to a fault of the call after a number of chunks. -/
def failed (c : Client σ) (count : Nat) (e : Fault) (asked : Asked σ) : Act σ Unit :=
  if asked.isStream then c.streamFailed (pure ()) count e else pure ()

end Asked

/-! ### The caller's side -/

/-- How far the caller's side of a call has come. -/
inductive Near (σ : Type) where
  | idle
  /-- The next message is waited for, after so many chunks and bytes. -/
  | waiting (count total : Nat)
  /-- The reply of the callback to a chunk is to be waited for. -/
  | settling (reply : Reply σ) (count total : Nat)
  | ended (outcome : Except Fault Client.Result)

namespace Near

/-- The outcome of the call, if it has ended. -/
def outcome? : Near σ → Option (Except Fault Client.Result)
  | ended outcome => some outcome
  | _ => none

theorem outcome?_eq_some_iff {near : Near σ} {outcome : Except Fault Client.Result} :
    near.outcome? = some outcome ↔ near = ended outcome := by
  cases near <;> simp [outcome?]

variable (c : Client σ) (asked : Asked σ)

/-- Draws an id and sends the request. -/
def ask : Act σ Request := do
  let r := asked.request c (← Act.drawId)
  c.send r
  return r

/-- Goes on after a number of chunks; a fault ends the call when the client has reacted to it. -/
def landing (count : Nat) (x : Act σ (Near σ)) : Act σ (Near σ) :=
  tryCatch (x.guarding fun e => asked.failed c count e) fun e =>
    return ended (.error (asked.raised e))

/-- Takes a message, after so many chunks and bytes. -/
def take (count total : Nat) : Message → Act σ (Near σ)
  | .video r => do return ended (.ok (.video (← Channel.carry r).video))
  | .saved r => do return ended (.ok (.filename (← Channel.carry r).filename))
  | .chunk r => do
    let r ← Channel.carry r
    Act.note (.delivered r.video)
    return settling (← asked.accept r.video) count (total + r.video.length)
  | .finished => do
    c.log .debug ("FetchStream finished after " ++ toString count ++ " chunk(s).")
    return ended (.ok (asked.result total))
  | .failed e => throw e

/-- Waits for the reply to a chunk. -/
def settle (reply : Reply σ) (count total : Nat) : Act σ (Near σ) := do
  reply.settle
  return waiting (count + 1) total

end Near

/-! ### The serving side -/

/-- How far the serving side of a call has come. -/
inductive Far (σ : Type) where
  | absent
  /-- A request is on its way. -/
  | called (r : Request)
  /-- The request has been dispatched to a store. -/
  | resolved (r : Request) (s : Store σ)
  /-- The next chunk is to be produced, after so many, for the request with an id. -/
  | streaming (requestId : String) (feed : Feed σ Bytes) (taken : Nat) (rest : List (Act σ Bytes))
  /-- A chunk is to be written. -/
  | holding (chunk : Bytes) (requestId : String) (feed : Feed σ Bytes) (taken : Nat)
      (rest : List (Act σ Bytes))
  | closed

namespace Far

/-- Calls a store for a request. -/
def serve (s : Store σ) : Request → Act σ (Far σ × List Message)
  | .fetch r => do
    let video ← s.fetch r.start r.stop r.container
    return (closed, [.video { video, requestId := r.requestId }])
  | .save r => do
    let filename ← s.save r.start r.stop r.container r.metadata r.background
    return (closed, [.saved { filename, requestId := r.requestId }])
  | .fetchStream r => do
    let feed ← s.fetchStream r.start r.stop r.container
    return (streaming r.requestId feed 0 feed.items, [])
  | .doCommand _ => return (closed, [])

/-- One step, with the messages that it sends.  A request that is on its way is dispatched from the
table as it is now; no other step looks at the table. -/
def advance (table : Store.Table σ) : Far σ → Act σ (Far σ × List Message)
  | called r => do
    let r ← r.carry
    Act.note r.receipt
    return (resolved r (← Service.resolve table r.name), [])
  | resolved r s => serve s r
  | streaming _ feed _ [] => do
    feed.finish
    return (closed, [.finished])
  | streaming requestId feed taken (next :: rest) => do
    return (holding (← next) requestId feed (taken + 1) rest, [])
  | holding chunk requestId feed taken rest =>
    return (streaming requestId feed taken rest, [.chunk { video := chunk, requestId }])
  | far => return (far, [])

/-- One step, of which a fault is sent to the caller. -/
def next (table : Store.Table σ) (far : Far σ) : Act σ (Far σ × List Message) :=
  tryCatch (far.advance table) fun e => return (closed, [.failed e.atCaller])

/-- The stream in progress, with the number of items that were taken. -/
def stream? : Far σ → Option (Feed σ Bytes × Nat)
  | streaming _ feed taken _ | holding _ _ feed taken _ => some (feed, taken)
  | _ => none

end Far

/-! ### A call -/

/-- A call with both its sides, the messages between them, and what belongs to it. -/
structure Call (σ : Type) where
  near : Near σ := .idle
  far : Far σ := .absent
  inbox : List Message := []
  state : σ

namespace Call

/-- The caller's side goes on, if it can. -/
def caller (c : Client σ) (asked : Asked σ) (call : Call σ) : Act σ (Call σ) :=
  match call.near, call.inbox with
  | .idle, _ =>
    tryCatch
      (do
        let r ← Near.ask c asked
        return { call with near := .waiting 0 0, far := .called r })
      fun e => return { call with near := .ended (.error (asked.raised e)) }
  | .waiting count total, message :: inbox => do
    let near ← Near.landing c asked count (Near.take c asked count total message)
    return { call with near, inbox }
  | .settling reply count total, _ => do
    let near ← Near.landing c asked count (Near.settle reply count total)
    return { call with near }
  | _, _ => return call

/-- The serving side goes on, if it can. -/
def server (table : Store.Table σ) (call : Call σ) : Act σ (Call σ) := do
  let (far, messages) ← call.far.next table
  return { call with far, inbox := call.inbox ++ messages }

/-- The serving side of a stream that the caller has given up stops. -/
def stop (call : Call σ) : Act σ (Call σ) :=
  match call.near, call.far.stream? with
  | .ended (.error _), some (feed, taken) => do
    discard (Act.attempt (feed.abandon taken .cancelled))
    return { call with far := .closed }
  | _, _ => return call

end Call

end Concurrent

end Footage
