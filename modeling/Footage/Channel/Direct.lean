import Footage.Client
import Footage.Service
/-!
# The direct channel

A channel to a service in the same program.  Requests and responses travel as bytes, and a stream
goes on in lock-step: the store produces the next chunk when the client asks for it.  A fault on
the serving side reaches the client as a remote fault (`Fault.atCaller`).

`Store.remote` is a store behind one such hop, which is again a store.
-/

namespace Footage

variable {σ : Type}

/-- A fault of a servicer as its caller sees it: the status of a call that it ended, or the
unknown status with a description of the fault. -/
def Fault.atCaller : Fault → Fault
  | .aborted code details => .rpc code details
  | e => .rpc .unknown e.unexpected

namespace Channel

/-- A message after a trip as bytes. -/
def carry {M : Type} [Wire.Message M] (m : M) : Act σ M :=
  Act.ofExcept (Wire.parse (Wire.Message.encode m))

/-- An act of the serving side, as its caller sees it. -/
def served {α : Type} (x : Act σ α) : Act σ α := tryCatch x fun e => throw e.atCaller

/-- A feed of the serving side, as its caller sees it.  Cancelling it reaches the producer. -/
def servedFeed {M : Type} [Wire.Message M] (feed : Feed σ M) : Feed σ M where
  items := feed.items.map fun next => do carry (← served next)
  finish := served feed.finish
  abandon := feed.abandon

/-- The channel to the service of a table. -/
def direct (table : Store.Table σ) : Channel σ where
  fetch r _ := do carry (← served (do Service.fetch table (← carry r)))
  save r _ := do carry (← served (do Service.save table (← carry r)))
  fetchStream r _ := do
    match ← Act.attempt (do Service.fetchStream table (← carry r)) with
    | .ok feed => return servedFeed feed
    | .error e => return .failing e.atCaller
  doCommand r := do carry (← served (do Service.doCommand table (← carry r)))

/-- A channel on which every call fails with the same fault. -/
def broken (e : Fault) : Channel σ where
  fetch _ _ := throw e
  save _ _ := throw e
  fetchStream _ _ := return .failing e
  doCommand _ := throw e

end Channel

/-- A store behind a client and a service that serves it under the name that the client sends. -/
def Store.remote (name : Resource.Name) (options : Client.Options) (s : Store σ) : Store σ :=
  (Client.make (Channel.direct [(name.short, s)]) name options).asStore

end Footage
