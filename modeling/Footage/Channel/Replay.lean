import Footage.Client
/-!
# The replaying channel

A channel that answers from a script, whatever it is asked.  A streamed answer is a run of
chunks, which may end with a fault.
-/

namespace Footage.Channel

variable {σ : Type}

/-- What a replaying channel answers to each operation. -/
structure Replies where
  video : Except Fault Bytes := .ok []
  filename : Except Fault String := .ok ""
  chunks : List Bytes := []
  /-- The fault with which the chunks end, if they do not just end. -/
  failure : Option Fault := none
  result : Except Fault (Option Wire.Struct) := .ok none

/-- The feed of the scripted chunks. -/
def Replies.feed (r : Replies) (requestId : String) : Feed σ Wire.FetchStreamResponse where
  items := r.chunks.map fun video => return { video, requestId }
  finish := match r.failure with
    | none => pure ()
    | some e => throw e
  abandon _ _ := pure ()

/-- The channel that answers from a script. -/
def replay (r : Replies) : Channel σ where
  fetch q _ := do return { video := ← Act.ofExcept r.video, requestId := q.requestId }
  save q _ := do return { filename := ← Act.ofExcept r.filename, requestId := q.requestId }
  fetchStream q _ := return r.feed q.requestId
  doCommand _ := do return { result := ← Act.ofExcept r.result }

end Footage.Channel
