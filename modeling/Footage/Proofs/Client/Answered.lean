import Footage.Channel.Replay
import Footage.Proofs.Act.Yielding

/-!
# How a client passes on what comes back

A client without a hook yields what its channel does: the video that a channel answers with
(`Client.yields_fetch`), and the chunks that come in a stream, each as it was cut
(`Client.yields_feed`).
-/

namespace Footage

variable {σ α β γ : Type}

/-- Every call for a video is answered with this one. -/
def Channel.Answers (video : Bytes) (ch : Channel σ) : Prop :=
  ∀ r deadline, (ch.fetch r deadline).Yields (·.video = video)

/-- Every call for a stream is answered with these chunks, one after the other, and then ends. -/
def Channel.Streams (chunks : List Bytes) (ch : Channel σ) : Prop :=
  ∀ r deadline, (ch.fetchStream r deadline).Yields (Feed.Yields (·.video) chunks)

theorem Channel.answers_replay {r : Channel.Replies} {video : Bytes} (h : r.video = .ok video) :
    (Channel.replay r : Channel σ).Answers video := by
  intro q deadline
  have answered : (Act.ofExcept r.video : Act σ Bytes).Yields (· = video) := by
    rw [h]
    exact Act.yields_pure rfl
  exact answered.bind fun _ same => Act.yields_pure same

theorem Channel.streams_replay {r : Channel.Replies} (h : r.failure = none) :
    (Channel.replay r : Channel σ).Streams r.chunks := by
  intro q deadline
  refine Act.yields_pure ⟨?_, ?_⟩
  · rw [Replies.feed, List.forall₂_map_left_iff, List.forall₂_same]
    intro chunk _
    exact Act.yields_pure rfl
  · rw [Replies.feed, h]
    exact Act.yields_pure trivial

/-- What holds of items one by one holds of them when each is changed at its index. -/
theorem forall₂_mapIdx {R : α → γ → Prop} {S : β → γ → Prop} {f : Nat → α → β} {as : List α}
    {cs : List γ} (h : List.Forall₂ R as cs) (imp : ∀ i a c, R a c → S (f i a) c) :
    List.Forall₂ S (as.mapIdx f) cs := by
  induction h generalizing f with
  | nil => exact .nil
  | cons first _ ih =>
    rw [List.mapIdx_cons]
    exact .cons (imp 0 _ _ first) (ih fun i a c related => imp (i + 1) a c related)

namespace Client

variable {c : Client σ} (unhooked : c.options.hook = none)

include unhooked

theorem yields_send (r : Request) : (c.send r).Yields fun _ => True := by
  refine Act.Yields.bind (P := fun _ => True) ?_ fun _ _ => Act.yields_note _
  refine (Act.yields_note _).bind fun _ _ => ?_
  rw [unhooked]
  exact Act.yields_pure trivial

theorem yields_fetch {video : Bytes} (answers : c.channel.Answers video)
    (start stop container : String) : (c.fetch start stop container).Yields (· = video) :=
  Act.yields_drawId.bind fun _ _ => (yields_send unhooked _).bind fun _ _ =>
    (answers _ _).bind fun _ same => Act.yields_pure same

omit unhooked in
theorem yields_chunks {call : Feed σ Wire.FetchStreamResponse} {chunks : List Bytes}
    (h : call.Yields (·.video) chunks) : (c.chunks call).Yields id chunks where
  items := by
    refine forall₂_mapIdx h.items fun i next chunk come => ?_
    exact (come.bind fun r same => Act.yields_pure same).guarding _
  finish := (h.finish.guarding _).bind fun _ _ => Act.yields_note _

theorem yields_feed {chunks : List Bytes} (streams : c.channel.Streams chunks)
    (start stop container : String) :
    (c.feed start stop container).Yields (Feed.Yields id chunks) :=
  Act.yields_drawId.bind fun _ _ => (yields_send unhooked _).bind fun _ _ =>
    (streams _ _).bind fun _ call => Act.yields_pure (yields_chunks call)

end Client

end Footage
