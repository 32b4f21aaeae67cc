import Footage.Proofs.Client.Delivery

/-!
# Streams that are given up

A stream that fails leaves a call behind that may still be going on.  The client cancels the call
when the fault is ordinary, and only then (`Client.stream_cancels_iff`): a fault that is not
ordinary, the cancellation of the task among them, leaves the call as it is.

The statement tells what the client itself adds to the journal from what the far side and the
callback add, which may cancel calls of their own (`Client.CancelsIfOrdinary`).
-/

namespace Footage.Client

open Feed (Takes Ending)

variable {σ β γ : Type} {c : Client σ}

/-- A run takes the responses of a call, which is open in a world `w₁`, with a step.  Until then
there is no cancellation, unless the far side or the step notes one; and what the client adds to
the journal after that has a cancellation in it if and only if the run fails with an ordinary
fault. -/
def CancelsIfOrdinary (call : Feed σ Wire.FetchStreamResponse) (step : β → Bytes → Act σ β) (b : β)
    (w₁ : World σ) (x : Act σ γ) (w : World σ) : Prop :=
  ∃ rs ending w₂ events,
    Takes call.finish (fun b r => step b r.video) call.items b w₁ rs ending w₂ ∧
    (call.Respects (World.Adds (· ≠ .cancelled)) →
      (∀ b chunk, (step b chunk).Respects (World.Adds (· ≠ .cancelled))) →
      w₁.Adds (· ≠ .cancelled) w₂) ∧
    (x.after w).journal = w₂.journal ++ events ∧
    (Event.cancelled ∈ events ↔ ∃ e w', x.run w = .error e w' ∧ e.isOrdinary = true)

/-- What a client adds for an item that it presents is no cancellation. -/
theorem cancelled_notMem_presented (past : List Event) (item : Item) :
    Event.cancelled ∉ c.presented past item := by
  intro h
  rcases of_mem_presented h with ⟨entry, h⟩ | h <;> cases h

theorem cancelled_mem_afterSending {r : Request} {w : World σ} :
    Event.cancelled ∈ (c.afterSending r w).journal ↔ Event.cancelled ∈ w.journal := by
  simp [afterSending, sent, cancelled_notMem_presented]

/-- The client's reaction to a fault has a cancellation in it if and only if the fault is
ordinary. -/
theorem afterFailure_cancels {cancel : Act σ Unit}
    (grows : cancel.Respects (World.Adds fun _ => True)) (count : Nat) (e : Fault) (w : World σ) :
    ∃ events, (c.afterFailure cancel count e w).journal = w.journal ++ events ∧
      (Event.cancelled ∈ events ↔ e.isOrdinary = true) := by
  by_cases ho : e.isOrdinary = true
  · rw [afterFailure, if_pos ho]
    obtain ⟨told, hj, -⟩ := grows (w.grow [c.failedEntry count e, .cancelled])
    refine ⟨_, by rw [World.grow_journal, hj, World.grow_journal, List.append_assoc,
      List.append_assoc], ?_⟩
    simp [ho]
  · rw [afterFailure, if_neg ho]
    exact ⟨[], by simp, by simp [ho]⟩

/-- What the client adds after the responses were taken has a cancellation in it if and only if
the run fails with an ordinary fault. -/
theorem outcome_cancels {call : Feed σ Wire.FetchStreamResponse}
    (grows : ∀ taken e, (call.abandon taken e).Respects (World.Adds fun _ => True)) (count : Nat)
    (w₂ : World σ) (ending : Ending Wire.FetchStreamResponse β) {x : Act σ β} {w : World σ}
    (h : x.run w = Act.waited (c.outcome call count w₂ ending)) :
    ∃ events, (x.after w).journal = w₂.journal ++ events ∧
      (Event.cancelled ∈ events ↔ ∃ e w', x.run w = .error e w' ∧ e.isOrdinary = true) := by
  cases ending with
  | complete b =>
    refine ⟨[c.finishedEntry count], by rw [Act.after_of_ok h, World.grow_journal], ?_⟩
    rw [h]
    simp [outcome, Act.waited, finishedEntry, entry]
  | broken e =>
    have still : (pure () : Act σ Unit).Respects (World.Adds fun _ => True) :=
      Act.respects_pure ()
    obtain ⟨events, hj, he⟩ := afterFailure_cancels (c := c) still count e w₂
    refine ⟨events, by rw [Act.after_of_error h, hj], ?_⟩
    rw [h, he]
    simp [outcome, Act.waited]
  | refused r e =>
    obtain ⟨events, hj, he⟩ :=
      afterFailure_cancels (c := c) (grows (count + 1) .cancelled) count e w₂
    refine ⟨events, by rw [Act.after_of_error h, hj], ?_⟩
    rw [h, he]
    simp [outcome, Act.waited]

/-- Whatever a step makes of a stream, the call is cancelled if and only if the run fails with an
ordinary fault. -/
theorem fold_cancelsIfOrdinary (hook : c.options.HasOrdinaryHook) {start stop container : String}
    {w w₁ : World σ} {call : Feed σ Wire.FetchStreamResponse}
    (opened : c.Opens start stop container w call w₁)
    (grows : ∀ taken e, (call.abandon taken e).Respects (World.Adds fun _ => True))
    (step : β → Bytes → Act σ β) (b : β) :
    CancelsIfOrdinary call step b w₁
      (Act.awaited do (← c.feed start stop container).fold step b) w := by
  obtain ⟨rs, ending, w₂, h⟩ :=
    Feed.exists_takes call.finish (fun b (r : Wire.FetchStreamResponse) => step b r.video)
      call.items b w₁
  obtain ⟨events, hj, he⟩ :=
    outcome_cancels grows rs.length w₂ ending (run_awaited_feed_fold hook opened h)
  refine ⟨rs, ending, w₂, events, h, fun quiet quietly => ?_, hj, he⟩
  exact h.respects quiet.finish quiet.items fun b r => quietly b r.video

/-- **A call is cancelled on ordinary faults, and only on them.**  Once its call is open, a stream
that goes to a callback or into a writer adds a cancellation if and only if it fails with an
ordinary fault.  When it returns, the call is not cancelled; nor is it when the task itself is
cancelled, in the stream or in the callback. -/
theorem stream_cancels_iff (hook : c.options.HasOrdinaryHook) {start stop container : String}
    {w w₁ : World σ} {call : Feed σ Wire.FetchStreamResponse}
    (opened : c.Opens start stop container w call w₁)
    (grows : ∀ taken e, (call.abandon taken e).Respects (World.Adds fun _ => True)) :
    (∀ callback, CancelsIfOrdinary call (fun _ => hand callback) () w₁
      (c.fetchStream start stop container (.usable callback)) w) ∧
    ∀ (α : Type) (write : Bytes → Act σ α), CancelsIfOrdinary call (handOn write) 0 w₁
      (c.streamInto start stop container write) w :=
  ⟨fun _ => fold_cancelsIfOrdinary hook opened grows _ _,
    fun _ _ => fold_cancelsIfOrdinary hook opened grows _ _⟩

/-- A callback that is cancelled while the reply to an empty chunk is waited for. -/
def interrupted (chunk : Bytes) : Act Unit (Reply Unit) :=
  return .awaitable (if chunk.isEmpty then throw .cancelled else return .null)

/-- When the callback is cancelled while its reply is waited for, the call goes on. -/
theorem stream_cancels_iff_sample :
    (∃ w', (sample.fetchStream "a" "b" "mp4" (.usable interrupted)).run (.fresh ()) =
      .error .cancelled w') ∧
      Event.cancelled ∉
        ((sample.fetchStream "a" "b" "mp4" (.usable interrupted)).after (.fresh ())).journal := by
  refine ⟨⟨_, rfl⟩, ?_⟩
  obtain ⟨rs, ending, w₂, events, h, -, hj, iff⟩ :=
    (stream_cancels_iff sample_hasOrdinaryHook rfl fun _ _ => Act.respects_pure ()).1 interrupted
  obtain ⟨rfl, rfl, rfl⟩ := h.unique (.taken rfl rfl (.refused rfl rfl))
  have none : Event.cancelled ∉ events := by
    rw [iff]
    rintro ⟨e, w', hr, ho⟩
    cases hr
    cases ho
  rw [hj]
  simp [none, cancelled_mem_afterSending, World.fresh, EStateM.Backtrackable.restore,
    EStateM.dummyRestore]

end Footage.Client
