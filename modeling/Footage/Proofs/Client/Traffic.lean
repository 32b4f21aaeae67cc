import Footage.Channel.Replay
import Footage.Proofs.Client.Presenting
import Footage.Proofs.Feed.Taking

/-!
# What a client does on its own

Apart from what its channel does, a client notes traffic and draws ids for its requests.  So it
respects every relation between worlds that permits this (`Client.Permits`, and `World.Allows` for
all clients) and that its channel respects: `Client.respects_fetch`, `Client.respects_save`,
`Client.respects_feed` and, for the feed that a stream comes in, `Client.respects_chunks`.  Once a
request has been sent only remarks follow, so for that feed a relation need not allow more
(`World.Tolerates`).  No condition on the hook is needed here.
-/

namespace Footage

variable {σ α β : Type}

/-- A relation between worlds allows that traffic is noted and that ids are drawn. -/
structure World.Allows (R : World σ → World σ → Prop) : Prop where
  note : ∀ e w, e.IsTraffic → R w (w.grow [e])
  draw : ∀ w, R w (w.grow [] 1)

/-- The event is of the kind that a client notes besides the requests that it sends. -/
def Event.IsRemark : Event → Prop
  | logged _ | cancelled | hooked _ => True
  | _ => False

/-- A relation between worlds tolerates that a client remarks on something. -/
structure World.Tolerates (R : World σ → World σ → Prop) : Prop where
  note : ∀ e w, e.IsRemark → R w (w.grow [e])

variable {R : World σ → World σ → Prop}

theorem World.Allows.tolerates (allows : World.Allows R) : World.Tolerates R where
  note e w h := allows.note e w (by cases e <;> trivial)

/-- To add events of a kind tolerates remarks if they are of the kind. -/
theorem World.tolerates_adds {P : Event → Prop} (remarks : ∀ e, e.IsRemark → P e) :
    World.Tolerates (World.Adds P (σ := σ)) where
  note e w h := World.adds_grow (fun e' he => by
    obtain rfl := List.mem_singleton.1 he
    exact remarks e' h) w 0

/-- A relation between worlds permits what a client does on its own: that it remarks on something,
draws an id, and calls its channel with its deadline. -/
structure Client.Permits (c : Client σ) (R : World σ → World σ → Prop) : Prop where
  tolerates : World.Tolerates R
  draw : ∀ w, R w (w.grow [] 1)
  call : ∀ r w, R w (w.grow [.called r c.options.deadline])

theorem World.Allows.permits (allows : World.Allows R) (c : Client σ) : c.Permits R where
  tolerates := allows.tolerates
  draw := allows.draw
  call _ w := allows.note _ w trivial

/-- To add events of a kind is permitted to a client if its remarks and its calls are of the
kind. -/
theorem Client.permits_adds {c : Client σ} {P : Event → Prop} (remarks : ∀ e, e.IsRemark → P e)
    (calls : ∀ r, P (.called r c.options.deadline)) : c.Permits (World.Adds P) where
  tolerates := World.tolerates_adds remarks
  draw w := World.adds_grow (by simp) w 1
  call r w := World.adds_grow (fun e he => by
    obtain rfl := List.mem_singleton.1 he
    exact calls r) w 0

theorem World.Tolerates.respects_note (tolerates : World.Tolerates R) (e : Event)
    (h : e.IsRemark) : (Act.note e).Respects R :=
  Act.respects_note fun w => tolerates.note e w h

theorem Client.Permits.respects_drawId {c : Client σ} (permits : c.Permits R) :
    (Act.drawId).Respects R := by
  intro w
  rw [Act.after_of_ok (Act.run_drawId w)]
  exact permits.draw w

theorem Act.respects_discard_attempt {x : Act σ α} (h : x.Respects R) :
    (do discard x.attempt : Act σ Unit).Respects R := by
  intro w
  rw [Act.after_of_ok (run_discard_attempt x w)]
  exact h w

theorem Feed.respects_fold [IsTrans _ R] {feed : Feed σ α} (h : feed.Respects R)
    {step : β → α → Act σ β} (hs : ∀ b a, (step b a).Respects R) (b : β) :
    (feed.fold step b).Respects R := by
  intro w
  obtain ⟨as, ending, w', taken⟩ := exists_takes feed.finish step feed.items b w
  have before := taken.respects h.finish h.items hs
  have run := run_fold feed taken
  cases ending with
  | complete b => rwa [Act.after_of_ok run]
  | broken e => rwa [Act.after_of_error run]
  | refused a e =>
    have told := h.abandon (as.length + 1) e w'
    cases ha : (feed.abandon (as.length + 1) e).run w' with
    | ok u w₂ =>
      rw [conclude, ha] at run
      rw [Act.after_of_ok ha] at told
      rw [Act.after_of_error run]
      exact trans_of R before told
    | error e' w₂ =>
      rw [conclude, ha] at run
      rw [Act.after_of_error ha] at told
      rw [Act.after_of_error run]
      exact trans_of R before told

/-- Everything that happens on a channel respects a relation. -/
structure Channel.Respects (R : World σ → World σ → Prop) (ch : Channel σ) : Prop where
  fetch : ∀ r deadline, (ch.fetch r deadline).Respects R
  save : ∀ r deadline, (ch.save r deadline).Respects R
  fetchStream : ∀ r deadline, (ch.fetchStream r deadline).Respects R
  call : ∀ r deadline w call w', (ch.fetchStream r deadline).run w = .ok call w' →
    call.Respects R

theorem Channel.Respects.mono {R R' : World σ → World σ → Prop} {ch : Channel σ}
    (h : ch.Respects R) (imp : ∀ w w', R w w' → R' w w') : ch.Respects R' where
  fetch r deadline := (h.fetch r deadline).mono imp
  save r deadline := (h.save r deadline).mono imp
  fetchStream r deadline := (h.fetchStream r deadline).mono imp
  call r deadline w call w' opened := (h.call r deadline w call w' opened).mono imp

/-- A channel that answers from a script respects every relation that a run may stay within. -/
theorem Channel.respects_replay {R : World σ → World σ → Prop} [Std.Refl R] [IsTrans _ R]
    (replies : Channel.Replies) : (Channel.replay replies).Respects R where
  fetch _ _ := (Act.respects_ofExcept replies.video).bind fun _ => Act.respects_pure _
  save _ _ := (Act.respects_ofExcept replies.filename).bind fun _ => Act.respects_pure _
  fetchStream _ _ := Act.respects_pure _
  call := by
    rintro q - w call w' ⟨⟩
    refine ⟨fun next hn => ?_, ?_, fun _ _ => Act.respects_pure ()⟩
    · obtain ⟨chunk, -, rfl⟩ := List.mem_map.1 hn
      exact Act.respects_pure _
    · dsimp only [Channel.Replies.feed]
      cases replies.failure with
      | none => exact Act.respects_pure ()
      | some e => exact Act.respects_throw e

namespace Client

variable {c : Client σ}

/-- Every feed of a client is that of the chunks of a call, which its channel has opened. -/
theorem exists_call_of_run_feed {start stop container : String} {w w' : World σ}
    {feed : Feed σ Bytes} (h : (c.feed start stop container).run w = .ok feed w') :
    ∃ r w₁ call, (c.channel.fetchStream r c.options.deadline).run w₁ = .ok call w' ∧
      feed = c.chunks call := by
  simp only [Client.feed, EStateM.run_bind, Act.run_drawId] at h
  split at h
  · next w₁ _ =>
    split at h
    · next call w₂ hc =>
      cases h
      exact ⟨_, w₁, call, hc, rfl⟩
    · cases h
  · cases h

section

variable (tolerates : World.Tolerates R)

include tolerates

theorem respects_log (level : Log.Level) (message : String) (about : Option Fault.Kind) :
    (c.log level message about).Respects R :=
  tolerates.respects_note (c.entry level message about) trivial

variable [Std.Refl R] [IsTrans _ R]

theorem respects_present (item : Item) : (c.present item).Respects R := by
  refine (respects_log tolerates _ _ _).bind fun _ => ?_
  cases c.options.hook with
  | none => exact Act.respects_pure ()
  | some hook =>
    refine Act.Respects.bind (fun w => refl_of R w) fun past => ?_
    refine (tolerates.respects_note (.hooked item) trivial).bind fun _ => ?_
    cases hook past item with
    | none => exact Act.respects_pure ()
    | some e =>
      dsimp only
      split
      · exact respects_log tolerates _ _ _
      · exact Act.respects_throw e

theorem respects_streamFailed {cancel : Act σ Unit} (h : cancel.Respects R) (count : Nat)
    (e : Fault) : (c.streamFailed cancel count e).Respects R := by
  unfold streamFailed
  split
  · refine (respects_log tolerates _ _ _).bind fun _ => ?_
    refine (tolerates.respects_note .cancelled trivial).bind fun _ => ?_
    exact (Act.respects_discard_attempt h).bind fun _ => respects_present tolerates _
  · exact Act.respects_pure ()

theorem respects_chunks {call : Feed σ Wire.FetchStreamResponse} (h : call.Respects R) :
    (c.chunks call).Respects R where
  items := by
    intro next hn
    obtain ⟨i, hi, rfl⟩ := List.mem_mapIdx.1 hn
    refine Act.Respects.guarding ?_ (respects_streamFailed tolerates (Act.respects_pure ()) i)
    exact (h.items _ (List.getElem_mem hi)).bind fun r => Act.respects_pure _
  finish := by
    refine Act.Respects.bind ?_ fun _ => respects_log tolerates _ _ _
    exact h.finish.guarding (respects_streamFailed tolerates (Act.respects_pure ()) _)
  abandon := fun taken e => respects_streamFailed tolerates (h.abandon taken .cancelled) _ e

end

variable (permits : c.Permits R) [Std.Refl R] [IsTrans _ R]

include permits

theorem respects_send (r : Request) : (c.send r).Respects R :=
  (respects_present permits.tolerates _).bind fun _ => Act.respects_note (permits.call r)

theorem respects_fetch (h : ∀ r deadline, (c.channel.fetch r deadline).Respects R)
    (start stop container : String) : (c.fetch start stop container).Respects R :=
  permits.respects_drawId.bind fun _ => (respects_send permits _).bind fun _ =>
    (h _ _).bind fun _ => Act.respects_pure _

theorem respects_save (h : ∀ r deadline, (c.channel.save r deadline).Respects R)
    (start stop container metadata : String) (background : Bool) :
    (c.save start stop container metadata background).Respects R :=
  permits.respects_drawId.bind fun _ => (respects_send permits _).bind fun _ =>
    (h _ _).bind fun _ => Act.respects_pure _

theorem respects_feed (h : ∀ r deadline, (c.channel.fetchStream r deadline).Respects R)
    (start stop container : String) : (c.feed start stop container).Respects R :=
  permits.respects_drawId.bind fun _ => (respects_send permits _).bind fun _ =>
    (h _ _).bind fun _ => Act.respects_pure _

end Client

end Footage
