import Footage.Channel.Replay
import Footage.Proofs.Act.Confined
import Footage.Proofs.Client.Traffic

/-!
# How a client fails

A client without a hook fails only when its channel does, and then with the same fault.  So its
operations are confined to whatever its channel is confined to (`Channel.Confined`):
`Client.confined_fetch`, `Client.confined_save`, and `Client.confined_streamInto` for a stream
that goes to a writer which is so confined as well.  An exhaustion that leaves a stream becomes
another fault, which is asked to be among those of the channel.
-/

namespace Footage

variable {σ : Type}

/-- All calls over a channel are confined. -/
structure Channel.Confined (P : σ → Prop) (F : Fault → Prop) (ch : Channel σ) : Prop where
  fetch : ∀ r deadline, (ch.fetch r deadline).Confined P F
  save : ∀ r deadline, (ch.save r deadline).Confined P F
  fetchStream : ∀ r deadline, (ch.fetchStream r deadline).Confined P F
  call : ∀ r deadline w call w', (ch.fetchStream r deadline).run w = .ok call w' →
    call.Confined P F

variable {P : σ → Prop} {F : Fault → Prop}

/-- A channel that leaves the surroundings as they are is confined to those with any property. -/
theorem Channel.Confined.of_forall_eq {ch : Channel σ} (h : ∀ s, ch.Confined (· = s) F) :
    ch.Confined P F where
  fetch r deadline := .of_forall_eq fun s => (h s).fetch r deadline
  save r deadline := .of_forall_eq fun s => (h s).save r deadline
  fetchStream r deadline := .of_forall_eq fun s => (h s).fetchStream r deadline
  call r deadline w call w' hc :=
    ⟨fun next hn => .of_forall_eq fun s => ((h s).call r deadline w call w' hc).items next hn,
      .of_forall_eq fun s => ((h s).call r deadline w call w' hc).finish,
      fun taken e => .of_forall_eq fun s =>
        ((h s).call r deadline w call w' hc).abandon taken e⟩

/-- A channel that answers from a script fails with the faults of the script. -/
theorem Channel.confined_replay {r : Channel.Replies}
    (video : ∀ e, r.video = .error e → F e) (filename : ∀ e, r.filename = .error e → F e)
    (failure : ∀ e, r.failure = some e → F e) :
    (Channel.replay r : Channel σ).Confined P F where
  fetch _ _ := (Act.confined_ofExcept video).bind fun _ => Act.confined_pure _
  save _ _ := (Act.confined_ofExcept filename).bind fun _ => Act.confined_pure _
  fetchStream _ _ := Act.confined_pure _
  call := by
    rintro q - w call w' ⟨⟩
    refine ⟨fun next hn => ?_, ?_, fun _ _ => Act.confined_pure ()⟩
    · obtain ⟨chunk, -, rfl⟩ := List.mem_map.1 hn
      exact Act.confined_pure _
    · dsimp only [Channel.Replies.feed]
      cases hf : r.failure with
      | none => exact Act.confined_pure ()
      | some e => exact Act.confined_throw (failure e hf)

namespace Client

variable {c : Client σ} (unhooked : c.options.hook = none)

include unhooked

theorem confined_present (item : Item) : (c.present item).Confined P F := by
  refine (Act.confined_note _).bind fun _ => ?_
  rw [unhooked]
  exact Act.confined_pure ()

theorem confined_send (r : Request) : (c.send r).Confined P F :=
  (confined_present unhooked _).bind fun _ => Act.confined_note _

theorem confined_streamFailed {cancel : Act σ Unit} (h : cancel.Confined P fun _ => True)
    (count : Nat) (e : Fault) : (c.streamFailed cancel count e).Confined P F := by
  unfold streamFailed
  split
  · exact (Act.confined_note _).bind fun _ => (Act.confined_note _).bind fun _ =>
      (Act.confined_discard_attempt h).bind fun _ => confined_present unhooked _
  · exact Act.confined_pure ()

theorem confined_chunks {call : Feed σ Wire.FetchStreamResponse} (h : call.Confined P F) :
    (c.chunks call).Confined P F where
  items := by
    intro next hn
    obtain ⟨i, hi, rfl⟩ := List.mem_mapIdx.1 hn
    have item := h.items _ (List.getElem_mem hi)
    exact (item.bind fun r => Act.confined_pure _).guarding fun e _ =>
      confined_streamFailed unhooked (Act.confined_pure ()) i e
  finish := by
    refine Act.Confined.bind ?_ fun _ => Act.confined_note _
    exact h.finish.guarding fun e _ => confined_streamFailed unhooked (Act.confined_pure ()) _ e
  abandon taken e := confined_streamFailed unhooked (h.abandon taken .cancelled) _ e

variable (channel : c.channel.Confined P F)

include channel

theorem confined_fetch (start stop container : String) :
    (c.fetch start stop container).Confined P F :=
  Act.confined_drawId.bind fun _ => (confined_send unhooked _).bind fun _ =>
    (channel.fetch _ _).bind fun _ => Act.confined_pure _

theorem confined_save (start stop container metadata : String) (background : Bool) :
    (c.save start stop container metadata background).Confined P F :=
  Act.confined_drawId.bind fun _ => (confined_send unhooked _).bind fun _ =>
    (channel.save _ _).bind fun _ => Act.confined_pure _

theorem confined_feed (start stop container : String) :
    (c.feed start stop container).Confined P F :=
  Act.confined_drawId.bind fun _ => (confined_send unhooked _).bind fun _ =>
    (channel.fetchStream _ _).bind fun _ => Act.confined_pure _

/-- A stream that goes to a writer fails only when the channel fails, or the writer. -/
theorem confined_streamInto (start stop container : String) {write : Bytes → Act σ Unit}
    (hw : ∀ chunk, (write chunk).Confined P F) (kept : ∀ e, F e → F e.awaited) :
    (c.streamInto start stop container write).Confined P F := by
  refine Act.Confined.awaited ?_ kept
  refine (confined_feed unhooked channel start stop container).bind_run fun w feed w' hf => ?_
  obtain ⟨r, w₁, call, hc, rfl⟩ := exists_call_of_run_feed hf
  have confined := channel.call _ _ _ _ _ hc
  refine (confined_chunks unhooked confined).fold (fun total chunk => ?_) (fun taken e _ => ?_) 0
  · exact (Act.confined_note _).bind fun _ => (hw chunk).bind fun _ => Act.confined_pure _
  · exact confined_streamFailed unhooked (confined.abandon taken .cancelled) _ e

end Client

end Footage
