import Footage.Proofs.Client.Asking
import Footage.Proofs.Feed.Taking

/-!
# Streams of a client

A client makes a feed of chunks out of the responses of a call (`Client.chunks`).  Taking the
chunks is taking the responses (`Client.takes_chunks`): the same items in the same order, each as
it came, with the client's own reaction at the end.  It logs how many items went through, and it
reacts to a fault as `Client.afterFailure` says.

From this follows what any step makes of a stream (`Client.run_feed_fold`), and what the stream
then comes to for the one who waits for it (`Client.run_awaited_feed_fold`).
-/

namespace Footage.Client

open Feed (Takes Ending)

variable {σ β : Type} (c : Client σ)

/-- The entry of the log about a stream that came to its end. -/
def finishedEntry (count : Nat) : Event :=
  c.entry .debug ("FetchStream finished after " ++ toString count ++ " chunk(s).")

/-- The entry of the log about a stream that failed. -/
def failedEntry (count : Nat) (e : Fault) : Event :=
  c.entry .error ("FetchStream failed after " ++ toString count ++ " chunk(s): " ++ e.shown)

/-- The world when the client has reacted to a fault after `count` chunks: an ordinary fault is
logged, the call is cancelled, and the fault is presented; any other fault passes. -/
def afterFailure (cancel : Act σ Unit) (count : Nat) (e : Fault) (w : World σ) : World σ :=
  if e.isOrdinary then
    let cancelled := cancel.after (w.grow [c.failedEntry count e, .cancelled])
    cancelled.grow (c.presented cancelled.journal (.fault e))
  else w

/-- The world when the client has reacted to the way in which the responses ended, `count` of which
went through.  When the step failed, it is still to react. -/
def afterResponses {α : Type} (count : Nat) (w : World σ) : Ending α β → World σ
  | .complete _ => w.grow [c.finishedEntry count]
  | .broken e => c.afterFailure (pure ()) count e w
  | .refused _ _ => w

variable {c}

theorem run_streamFailed (hook : c.options.HasOrdinaryHook) (cancel : Act σ Unit) (count : Nat)
    (e : Fault) (w : World σ) :
    (c.streamFailed cancel count e).run w = .ok () (c.afterFailure cancel count e w) := by
  unfold streamFailed afterFailure
  split
  · simp only [EStateM.run_bind, run_log, Act.run_note, World.grow_grow,
      Act.run_discard_attempt, run_present hook]
    rfl
  · rfl

theorem run_guarded_video (hook : c.options.HasOrdinaryHook) (count : Nat)
    (next : Act σ Wire.FetchStreamResponse) (w : World σ) :
    (Act.guarding (do return (← next).video) (c.streamFailed (pure ()) count)).run w =
      match next.run w with
      | .ok r w => .ok r.video w
      | .error e w => .error e (c.afterFailure (pure ()) count e w) := by
  rw [Act.run_guarding, EStateM.run_bind]
  cases next.run w with
  | ok r w => rfl
  | error e w => simp only [run_streamFailed hook]

/-- Taking the rest of the chunks, when some were taken before, is taking the responses. -/
theorem takes_chunksFrom (hook : c.options.HasOrdinaryHook)
    {call : Feed σ Wire.FetchStreamResponse} {step : β → Bytes → Act σ β} {n : Nat}
    {items : List (Act σ Wire.FetchStreamResponse)} {b : β} {w w' : World σ}
    {rs : List Wire.FetchStreamResponse} {ending : Ending Wire.FetchStreamResponse β}
    (h : Takes call.finish (fun b r => step b r.video) items b w rs ending w')
    (hn : call.items.length = n + items.length) :
    Takes (c.chunks call).finish step
      (items.mapIdx fun i next =>
        Act.guarding (do return (← next).video) (c.streamFailed (pure ()) (n + i)))
      b w (rs.map (·.video)) (ending.map (·.video))
      (c.afterResponses (n + rs.length) w' ending) := by
  -- The index of the first item goes up with the number of those that went through.
  induction h generalizing n with
  | complete h =>
    refine .complete ?_
    simp only [List.length_nil] at hn
    simp only [chunks, EStateM.run_bind, Act.run_guarding, h, run_log, hn]
    rfl
  | unfinished h =>
    refine .unfinished ?_
    simp only [List.length_nil] at hn
    simp only [chunks, EStateM.run_bind, Act.run_guarding, h, run_streamFailed hook, hn]
    rfl
  | broken h =>
    rw [List.mapIdx_cons]
    refine .broken ?_
    rw [run_guarded_video hook, h]
    rfl
  | refused h hs =>
    rw [List.mapIdx_cons]
    refine .refused ?_ hs
    rw [run_guarded_video hook, h]
  | @taken next rest b b' w w₁ w₂ w' r rs ending h hs _ ih =>
    rw [List.mapIdx_cons, List.map_cons, List.length_cons]
    refine .taken ?_ hs ?_
    · rw [run_guarded_video hook, h]
    · have shifted := ih (n := n + 1) (by rw [hn, List.length_cons]; omega)
      simpa only [Nat.add_assoc, Nat.add_comm 1] using shifted

/-- **Taking the chunks of a call is taking its responses**, with the client's reaction at the
end. -/
theorem takes_chunks (hook : c.options.HasOrdinaryHook) {call : Feed σ Wire.FetchStreamResponse}
    {step : β → Bytes → Act σ β} {b : β} {w w' : World σ} {rs : List Wire.FetchStreamResponse}
    {ending : Ending Wire.FetchStreamResponse β}
    (h : Takes call.finish (fun b r => step b r.video) call.items b w rs ending w') :
    Takes (c.chunks call).finish step (c.chunks call).items b w (rs.map (·.video))
      (ending.map (·.video)) (c.afterResponses rs.length w' ending) := by
  have := takes_chunksFrom hook h (n := 0) (by simp)
  simpa only [chunks, Nat.zero_add] using this

/-- The request that a client makes for a stream with an id. -/
def streamRequest (c : Client σ) (start stop container requestId : String) :
    Wire.FetchStreamRequest :=
  { name := c.name.short, start, stop, container, requestId }

/-- The call of a stream is opened by the channel and goes on from a world. -/
def Opens (c : Client σ) (start stop container : String) (w : World σ)
    (call : Feed σ Wire.FetchStreamResponse) (w₁ : World σ) : Prop :=
  let r := c.streamRequest start stop container (w.supply w.drawn)
  (c.channel.fetchStream r c.options.deadline).run (c.afterSending (.fetchStream r) w) = .ok call w₁

/-- Opening a stream is calling the channel when the request has been sent. -/
theorem run_feed_eq (hook : c.options.HasOrdinaryHook) {start stop container : String}
    {r : Wire.FetchStreamRequest} {w : World σ}
    (hr : r = c.streamRequest start stop container (w.supply w.drawn)) :
    (c.feed start stop container).run w =
      Act.mapOk c.chunks ((c.channel.fetchStream r c.options.deadline).run
        (c.afterSending (.fetchStream r) w)) := by
  simp only [hr, feed, streamRequest, EStateM.run_bind, Act.run_drawId, run_send hook, grow_sent]
  generalize EStateM.run _ _ = call
  cases call <;> rfl

theorem run_feed (hook : c.options.HasOrdinaryHook) {start stop container : String}
    {w w₁ : World σ} {call : Feed σ Wire.FetchStreamResponse}
    (opened : c.Opens start stop container w call w₁) :
    (c.feed start stop container).run w = .ok (c.chunks call) w₁ := by
  simp only [Opens] at opened
  rw [run_feed_eq hook rfl, opened]
  rfl

/-- What a stream comes to for its taker: the reaction to a step that failed tells the far side. -/
def outcome (c : Client σ) (call : Feed σ Wire.FetchStreamResponse) (count : Nat) (w : World σ) :
    Ending Wire.FetchStreamResponse β → EStateM.Result Fault (World σ) β
  | .complete b => .ok b (w.grow [c.finishedEntry count])
  | .broken e => .error e (c.afterFailure (pure ()) count e w)
  | .refused _ e => .error e (c.afterFailure (call.abandon (count + 1) .cancelled) count e w)

/-- **What a step makes of a stream.**  The outcome is that of taking the responses of the call. -/
theorem run_feed_fold (hook : c.options.HasOrdinaryHook) {start stop container : String}
    {w w₁ w₂ : World σ} {call : Feed σ Wire.FetchStreamResponse}
    (opened : c.Opens start stop container w call w₁) {step : β → Bytes → Act σ β} {b : β}
    {rs : List Wire.FetchStreamResponse} {ending : Ending Wire.FetchStreamResponse β}
    (h : Takes call.finish (fun b r => step b r.video) call.items b w₁ rs ending w₂) :
    (do (← c.feed start stop container).fold step b).run w =
      c.outcome call rs.length w₂ ending := by
  rw [EStateM.run_bind, run_feed hook opened]
  simp only [Feed.run_fold _ (takes_chunks hook h), List.length_map]
  cases ending with
  | complete b => rfl
  | broken e => rfl
  | refused r e =>
    simp only [Ending.map, Feed.conclude, chunks, run_streamFailed hook, Nat.add_sub_cancel]
    rfl

/-- What a stream comes to for the one who waits for it. -/
theorem run_awaited_feed_fold (hook : c.options.HasOrdinaryHook) {start stop container : String}
    {w w₁ w₂ : World σ} {call : Feed σ Wire.FetchStreamResponse}
    (opened : c.Opens start stop container w call w₁) {step : β → Bytes → Act σ β} {b : β}
    {rs : List Wire.FetchStreamResponse} {ending : Ending Wire.FetchStreamResponse β}
    (h : Takes call.finish (fun b r => step b r.video) call.items b w₁ rs ending w₂) :
    (Act.awaited do (← c.feed start stop container).fold step b).run w =
      Act.waited (c.outcome call rs.length w₂ ending) := by
  rw [Act.run_awaited, run_feed_fold hook opened h]

end Footage.Client
