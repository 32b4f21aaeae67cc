import Footage.Disk
import Footage.Log
import Footage.Wire.Schema
/-!
# Acts and the journal

An `Act` is a step of a run: it may fail with a fault, and it changes a `World`.  The world keeps
a journal of everything that can be seen from outside, in the order in which it happened, and
next to it a state of the surroundings.  What happened before a fault stays in the journal.

`Act.guarding` is the clean-up rule used throughout: on a fault a handler runs first, and then
the same fault goes on, unless the handler ends with one of its own.

What an act does is said by equations for its run from a world: `Act.run_note`,
`Act.run_tryCatch`, `Act.run_guarding` and the like.
-/

namespace Footage

open Number (Quantity)

/-- A request of any type. -/
inductive Request where
  | fetch (r : Wire.FetchRequest)
  | save (r : Wire.SaveRequest)
  | fetchStream (r : Wire.FetchStreamRequest)
  | doCommand (r : Wire.DoCommandRequest)

namespace Request

/-- The method that the request is for. -/
def method : Request → Wire.Method
  | fetch _ => .fetch
  | save _ => .save
  | fetchStream _ => .fetchStream
  | doCommand _ => .doCommand

/-- The short name of the resource that is addressed. -/
def name : Request → String
  | fetch r => r.name
  | save r => r.name
  | fetchStream r => r.name
  | doCommand r => r.name

end Request

/-- What a request hook is shown. -/
inductive Item where
  /-- A request that is about to be sent. -/
  | request (r : Request)
  /-- The fault with which a stream failed. -/
  | fault (e : Fault)

/-- The name of the item's type. -/
def Item.typeName : Item → String
  | request r => r.method.input
  | fault e => e.kind.name

/-- What a store notes down about the calls made to it. -/
inductive Note where
  | fetch (start stop container : String)
  | save (start stop container metadata : String) (background : Bool)
  | fetchStream (start stop container : String)
  /-- A stream ended after so many chunks. -/
  | done (count : Nat)
  /-- A stream was stopped by a fault after so many chunks. -/
  | stopped (kind : Fault.Kind) (count : Nat)
  | command (entries : List (String × Value))

/-- Something that can be seen from outside. -/
inductive Event where
  | logged (entry : Log.Entry)
  /-- A request was handed to the channel, with the deadline for the call. -/
  | called (request : Request) (deadline : Option Quantity)
  /-- A client cancelled the streaming call in progress. -/
  | cancelled
  /-- A hook was called with an item. -/
  | hooked (item : Item)
  /-- A chunk was handed to a callback or a writer. -/
  | delivered (chunk : Bytes)
  /-- A servicer wrote a response to a stream. -/
  | written (response : Wire.FetchStreamResponse)
  /-- The store under a key noted something down. -/
  | noted (key : String) (note : Note)
  /-- A channel was opened. -/
  | opened (address : String) (secure : Bool)
  /-- The channel was closed. -/
  | closed
  /-- A handler of a level was added to the console. -/
  | configured (level : Log.Level)
  /-- The disk was changed. -/
  | changed (change : Disk.Change)
  /-- Text went to the standard output. -/
  | printed (text : String)
  /-- Text went to the standard error output. -/
  | complained (text : String)

/-- What acts change. -/
structure World (σ : Type) where
  journal : List Event := []
  /-- How many request ids have been drawn. -/
  drawn : Nat := 0
  /-- The supply of request ids. -/
  supply : Nat → String
  /-- The state of the surroundings. -/
  state : σ

namespace World

variable {σ : Type}

/-- The world with more events in its journal, and with more ids drawn. -/
def grow (w : World σ) (events : List Event) (ids : Nat := 0) : World σ :=
  { w with journal := w.journal ++ events, drawn := w.drawn + ids }

@[simp] theorem grow_journal (w : World σ) (events : List Event) (ids : Nat) :
    (w.grow events ids).journal = w.journal ++ events := rfl

@[simp] theorem grow_drawn (w : World σ) (events : List Event) (ids : Nat) :
    (w.grow events ids).drawn = w.drawn + ids := rfl

@[simp] theorem grow_supply (w : World σ) (events : List Event) (ids : Nat) :
    (w.grow events ids).supply = w.supply := rfl

@[simp] theorem grow_state (w : World σ) (events : List Event) (ids : Nat) :
    (w.grow events ids).state = w.state := rfl

@[simp] theorem grow_nil (w : World σ) : w.grow [] = w := by
  simp [grow]

theorem grow_grow (w : World σ) (first second : List Event) (m n : Nat) :
    (w.grow first m).grow second n = w.grow (first ++ second) (m + n) := by
  simp [grow, Nat.add_assoc]

end World

/-- A step of a run. -/
abbrev Act (σ α : Type) := EStateM Fault (World σ) α

namespace Act

variable {σ α : Type}

/-- Adds an event to the journal. -/
def note (e : Event) : Act σ Unit := modify fun w => { w with journal := w.journal ++ [e] }

/-- All that has happened so far. -/
def history : Act σ (List Event) := do return (← get).journal

/-- Takes the next request id. -/
def drawId : Act σ String := modifyGet fun w => (w.supply w.drawn, { w with drawn := w.drawn + 1 })

/-- The state of the surroundings. -/
def state : Act σ σ := do return (← get).state

/-- Puts another state in place of the one of the surroundings. -/
def setState (s : σ) : Act σ Unit := modify fun w => { w with state := s }

/-- Logs a message. -/
def log (logger : String) (level : Log.Level) (message : String)
    (about : Option Fault.Kind := none) : Act σ Unit :=
  note (.logged { logger, level, message, about })

/-- The outcome of an act, whose faults do not end the run. -/
def attempt (x : Act σ α) : Act σ (Except Fault α) :=
  tryCatch (do return .ok (← x)) fun e => return .error e

/-- Goes on with an outcome. -/
def ofExcept : Except Fault α → Act σ α
  | .ok a => pure a
  | .error e => throw e

/-- Runs a handler on a fault before the fault goes on. -/
def guarding (x : Act σ α) (handler : Fault → Act σ Unit) : Act σ α :=
  tryCatch x fun e => do
    handler e
    throw e

/-- What an act comes to for the one who waits for it. -/
def awaited (x : Act σ α) : Act σ α := tryCatch x fun e => throw e.awaited

/-- Runs another act after an act, whether it fails or not. -/
def ensuring (x : Act σ α) (last : Act σ Unit) : Act σ α := do
  let a ← x.guarding fun _ => last
  last
  return a

/-! ### Runs -/

@[simp] theorem run_throw (e : Fault) (w : World σ) :
    (throw e : Act σ α).run w = .error e w := rfl

@[simp] theorem run_note (e : Event) (w : World σ) :
    (note e).run w = .ok () (w.grow [e]) := by
  simp [note, World.grow]

@[simp] theorem run_log (logger : String) (level : Log.Level) (message : String)
    (about : Option Fault.Kind) (w : World σ) :
    (log logger level message about).run w =
      .ok () (w.grow [.logged { logger, level, message, about }]) := by
  simp [log]

@[simp] theorem run_history (w : World σ) : (history).run w = .ok w.journal w := rfl

@[simp] theorem run_drawId (w : World σ) :
    (drawId).run w = .ok (w.supply w.drawn) (w.grow [] 1) := by
  simp [drawId, World.grow]

@[simp] theorem run_state (w : World σ) : (state).run w = .ok w.state w := rfl

@[simp] theorem run_setState (s : σ) (w : World σ) :
    (setState s).run w = .ok () { w with state := s } := rfl

@[simp] theorem run_ofExcept_ok (a : α) (w : World σ) :
    (ofExcept (.ok a)).run w = .ok a w := rfl

@[simp] theorem run_ofExcept_error (e : Fault) (w : World σ) :
    (ofExcept (.error e) : Act σ α).run w = .error e w := rfl

theorem run_tryCatch (x : Act σ α) (handler : Fault → Act σ α) (w : World σ) :
    (tryCatch x handler).run w =
      match x.run w with
      | .ok a w => .ok a w
      | .error e w => (handler e).run w := by
  show EStateM.tryCatch x handler w = _
  delta EStateM.tryCatch EStateM.run
  cases x w with
  | ok a w' => rfl
  | error e w' => rfl

theorem run_attempt (x : Act σ α) (w : World σ) :
    (attempt x).run w =
      match x.run w with
      | .ok a w => .ok (.ok a) w
      | .error e w => .ok (.error e) w := by
  simp only [attempt, run_tryCatch, EStateM.run_bind]
  cases x.run w <;> rfl

/-- What a run comes to for the one who waits for it. -/
def waited : EStateM.Result Fault (World σ) α → EStateM.Result Fault (World σ) α
  | .ok a w => .ok a w
  | .error e w => .error e.awaited w

theorem run_awaited (x : Act σ α) (w : World σ) : x.awaited.run w = waited (x.run w) := by
  rw [awaited, run_tryCatch]
  cases x.run w <;> rfl

theorem run_guarding (x : Act σ α) (handler : Fault → Act σ Unit) (w : World σ) :
    (x.guarding handler).run w =
      match x.run w with
      | .ok a w => .ok a w
      | .error e w =>
        match (handler e).run w with
        | .ok _ w => .error e w
        | .error e' w => .error e' w := by
  simp only [guarding, run_tryCatch, EStateM.run_bind, run_throw]
  cases x.run w with
  | ok a w => rfl
  | error e w =>
    dsimp only
    cases (handler e).run w <;> rfl

end Act

end Footage
