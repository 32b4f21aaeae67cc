import Footage.Act
/-!
# Feeds

A feed is a run of items that one side produces and the other side takes, in lock-step: the
producer goes on to the next item only when it is asked for.  `Feed.fold` takes all items with a
step for each; when a step fails, the feed is abandoned with the fault before the fault goes on.

Clients, services and channels are maps between feeds, so that a store behind any number of them
is again one feed.
-/

namespace Footage

/-- Items that are produced one at a time. -/
structure Feed (σ α : Type) where
  /-- The acts that produce the items, in order; one that fails ends the feed. -/
  items : List (Act σ α)
  /-- What the producer does when it is asked for more than there is. -/
  finish : Act σ Unit
  /-- What the producer does when the taker fails with a fault on the latest of the given number
  of items. -/
  abandon : Nat → Fault → Act σ Unit

namespace Feed

variable {σ α β : Type}

/-- A feed that fails as soon as it is asked. -/
def failing (e : Fault) : Feed σ α where
  items := []
  finish := throw e
  abandon _ _ := pure ()

/-- The items with an act after each. -/
def map (f : α → Act σ β) (feed : Feed σ α) : Feed σ β where
  items := feed.items.map fun next => do f (← next)
  finish := feed.finish
  abandon := feed.abandon

/-- Takes items with a step, when `taken` were taken before. -/
def foldFrom (feed : Feed σ α) (step : β → α → Act σ β) : Nat → β → List (Act σ α) → Act σ β
  | _, b, [] => do
    feed.finish
    return b
  | taken, b, next :: rest => do
    let a ← next
    let b ← (step b a).guarding (feed.abandon (taken + 1))
    foldFrom feed step (taken + 1) b rest

/-- Takes all items with a step. -/
def fold (feed : Feed σ α) (step : β → α → Act σ β) (init : β) : Act σ β :=
  feed.foldFrom step 0 init feed.items

/-- Takes all items with an act on each. -/
def forEach (feed : Feed σ α) (act : α → Act σ Unit) : Act σ Unit :=
  feed.fold (fun _ a => act a) ()

end Feed

end Footage
