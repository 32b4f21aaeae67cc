import Footage.Proofs.Act.Showing
import Footage.Proofs.Client.Delivery
import Footage.Proofs.Client.Hooking
import Footage.Proofs.Client.Session
import Footage.Proofs.Client.Traffic

/-!
# Traces of sessions

The trace of an operation is what the hook and the channel see of it: the calls of the hook with
what it is shown, the requests that are handed to the channel, and the calls that are cancelled
(`Event.isExchange`).  `Client.Traced` lists the ways in which an operation can go, each with its
outcome and its trace:

* an operation that sends a request shows it to the hook and hands the same request to the channel,
  once;
* a stream that fails with an ordinary fault, its own or that of the step which takes its chunks,
  cancels the call and then shows the fault to the hook; the caller gets the very same fault, unless
  it is an exhaustion, which cannot pass the one who waits (`Fault.awaited`);
* an operation that sends nothing has no trace.

The trace of a session is that of its operations one after the other, and nothing else: this is
`Client.session_traces`.
-/

namespace Footage

open Feed (Takes Ending)

variable {σ β : Type}

/-- Whether the event is the call of a hook, a request that is handed to a channel, or the
cancellation of a call. -/
def Event.isExchange : Event → Bool
  | hooked _ | called _ _ | cancelled => true
  | _ => false

/-- What happens calls no hook and no channel, and cancels nothing. -/
abbrev World.Aloof (w w' : World σ) : Prop := w.Adds (·.isExchange = false) w'

namespace Client

/-! ### Operations that stream -/

/-- How an operation takes the chunks of a range: with a step for each, which goes on from what the
steps before have made. -/
structure Streaming (σ : Type) where
  start : String
  stop : String
  container : String
  {Made : Type}
  step : Made → Bytes → Act σ Made
  init : Made
  result : Made → Result

/-- How an operation streams, if it does. -/
def Operation.streaming? : Operation σ → Option (Streaming σ)
  | .fetchStream start stop container (.usable callback) =>
    some { start, stop, container, step := fun _ => hand callback, init := (),
           result := fun _ => .done }
  | .streamInto start stop container write =>
    some { start, stop, container, step := handOn write, init := 0, result := .written }
  | _ => none

/-- What is done with the chunks calls no hook and no channel, and cancels nothing. -/
def Operation.Aloof (op : Operation σ) : Prop :=
  ∀ s, op.streaming? = some s → ∀ made chunk, (s.step made chunk).Respects World.Aloof

theorem perform_eq (c : Client σ) {op : Operation σ} {s : Streaming σ}
    (streams : op.streaming? = some s) :
    c.perform op = do
      return s.result
        (← Act.awaited (do (← c.feed s.start s.stop s.container).fold s.step s.init)) := by
  cases op with
  | fetchStream start stop container onChunk =>
    cases onChunk with
    | usable callback =>
      cases streams
      rfl
    | value v => cases streams
  | streamInto start stop container write =>
    cases streams
    rfl
  | _ => cases streams

/-- Taking the responses of a call has ended with a fault.  It is the stream's own, and then the far
side knows of it, or that of the step, and then the far side is told when the call is cancelled. -/
inductive Fails (call : Feed σ Wire.FetchStreamResponse) (count : Nat) :
    Ending Wire.FetchStreamResponse β → Fault → Act σ Unit → Prop where
  | broken (e : Fault) : Fails call count (.broken e) e (pure ())
  | refused (r : Wire.FetchStreamResponse) (e : Fault) :
      Fails call count (.refused r e) e (call.abandon (count + 1) .cancelled)

variable (c : Client σ)

/-! ### The trace of an operation -/

/-- The call of the client's hook with an item, if it has a hook. -/
def hookCall (item : Item) : List Event :=
  match c.options.hook with
  | none => []
  | some _ => [.hooked item]

/-- The trace of a request that is sent: the hook is called with it, and then the channel. -/
def requestTrace (r : Request) : List Event :=
  c.hookCall (.request r) ++ [.called r c.options.deadline]

/-- The trace of a fault of a stream: the call is cancelled, and then the hook is called with the
fault. -/
def faultTrace (e : Fault) : List Event := .cancelled :: c.hookCall (.fault e)

/-- The request that is sent for a stream from a world. -/
def requestOf (s : Streaming σ) (w : World σ) : Wire.FetchStreamRequest :=
  c.streamRequest s.start s.stop s.container (w.supply w.drawn)

/-- The call of a stream cannot be opened. -/
def Unopened (s : Streaming σ) (w : World σ) (e : Fault) (w' : World σ) : Prop :=
  (c.channel.fetchStream (c.requestOf s w) c.options.deadline).run
    (c.afterSending (.fetchStream (c.requestOf s w)) w) = .error e w'

/-- The responses of a stream are taken from a world on, up to the first failure. -/
def StreamTakes (s : Streaming σ) (w : World σ) (call : Feed σ Wire.FetchStreamResponse)
    (rs : List Wire.FetchStreamResponse) (ending : Ending Wire.FetchStreamResponse s.Made)
    (w' : World σ) : Prop :=
  ∃ w₁, c.Opens s.start s.stop s.container w call w₁ ∧
    Takes call.finish (fun made r => s.step made r.video) call.items s.init w₁ rs ending w'

/-- An operation leads from one world to another one, with an outcome and a trace. -/
inductive Traced : Operation σ → World σ → Except Fault Result → List Event → World σ → Prop where
  /-- The channel is called once, and its answer is the outcome. -/
  | fetch {start stop container : String} {r : Wire.FetchRequest}
      {answer : Except Fault Wire.FetchResponse} {w w' : World σ} :
      r = c.fetchRequest start stop container (w.supply w.drawn) →
      (Act.attempt (c.channel.fetch r c.options.deadline)).run (c.afterSending (.fetch r) w) =
        .ok answer w' →
      Traced (.fetch start stop container) w (answer.map fun response => .video response.video)
        (c.requestTrace (.fetch r)) w'
  /-- The channel is called once, and its answer is the outcome. -/
  | save {start stop container metadata : String} {background : Bool} {r : Wire.SaveRequest}
      {answer : Except Fault Wire.SaveResponse} {w w' : World σ} :
      r = c.saveRequest start stop container metadata background (w.supply w.drawn) →
      (Act.attempt (c.channel.save r c.options.deadline)).run (c.afterSending (.save r) w) =
        .ok answer w' →
      Traced (.save start stop container metadata background) w
        (answer.map fun response => .filename response.filename) (c.requestTrace (.save r)) w'
  /-- What cannot be called is not taken for a callback, and nothing happens. -/
  | rejected {start stop container : String} {v : Value} {w : World σ} :
      Traced (.fetchStream start stop container (.value v)) w (.error (.misuse (.callback v))) [] w
  /-- There is no call to cancel when it cannot be opened. -/
  | unopened {op : Operation σ} {s : Streaming σ} {e : Fault} {w w' : World σ} :
      op.streaming? = some s → c.Unopened s w e w' →
      Traced op w (.error e.awaited) (c.requestTrace (.fetchStream (c.requestOf s w))) w'
  /-- All responses are taken. -/
  | completed {op : Operation σ} {s : Streaming σ} {call : Feed σ Wire.FetchStreamResponse}
      {rs : List Wire.FetchStreamResponse} {made : s.Made} {w w' : World σ} :
      op.streaming? = some s → c.StreamTakes s w call rs (.complete made) w' →
      Traced op w (.ok (s.result made)) (c.requestTrace (.fetchStream (c.requestOf s w)))
        (w'.grow [c.finishedEntry rs.length])
  /-- The stream fails, or the step on one of its chunks does. -/
  | failed {op : Operation σ} {s : Streaming σ} {call : Feed σ Wire.FetchStreamResponse}
      {rs : List Wire.FetchStreamResponse} {ending : Ending Wire.FetchStreamResponse s.Made}
      {e : Fault} {cancel : Act σ Unit} {w w' : World σ} :
      op.streaming? = some s → c.StreamTakes s w call rs ending w' →
      Fails call rs.length ending e cancel → e.isOrdinary = true →
      Traced op w (.error e.awaited)
        (c.requestTrace (.fetchStream (c.requestOf s w)) ++ c.faultTrace e)
        (c.afterFailure cancel rs.length e w')
  /-- The task is stopped while the stream goes on. -/
  | halted {op : Operation σ} {s : Streaming σ} {call : Feed σ Wire.FetchStreamResponse}
      {rs : List Wire.FetchStreamResponse} {ending : Ending Wire.FetchStreamResponse s.Made}
      {e : Fault} {cancel : Act σ Unit} {w w' : World σ} :
      op.streaming? = some s → c.StreamTakes s w call rs ending w' →
      Fails call rs.length ending e cancel → e.isOrdinary = false →
      Traced op w (.error e) (c.requestTrace (.fetchStream (c.requestOf s w))) w'
  /-- Commands are not sent. -/
  | doCommand {entries : List (String × Value)} {w : World σ} :
      Traced (.doCommand entries) w (.ok (.record [])) [] w
  | close {w : World σ} : Traced .close w (.ok .done) [] w

/-- Operations one after the other, each from the world that the one before it has left. -/
inductive TracedAll : List (Operation σ) → World σ → List (Except Fault Result) →
    List (List Event) → World σ → Prop where
  | nil {w : World σ} : TracedAll [] w [] [] w
  | cons {op : Operation σ} {ops : List (Operation σ)} {w w₁ w' : World σ}
      {outcome : Except Fault Result} {outcomes : List (Except Fault Result)} {trace : List Event}
      {traces : List (List Event)} :
      c.Traced op w outcome trace w₁ → TracedAll ops w₁ outcomes traces w' →
      TracedAll (op :: ops) w (outcome :: outcomes) (trace :: traces) w'

/-! ### Every operation goes in one of these ways -/

section

variable {c} (hook : c.options.HasOrdinaryHook)

include hook

/-- A streaming operation goes in one of these ways. -/
theorem exists_traced_of_streaming {op : Operation σ} {s : Streaming σ}
    (streams : op.streaming? = some s) (w : World σ) :
    ∃ outcome trace w', (Act.attempt (c.perform op)).run w = .ok outcome w' ∧
      c.Traced op w outcome trace w' := by
  rw [perform_eq c streams, Act.run_attempt, Act.run_map]
  cases answer : (c.channel.fetchStream (c.requestOf s w) c.options.deadline).run
      (c.afterSending (.fetchStream (c.requestOf s w)) w) with
  | error e w' =>
    rw [Act.run_awaited, EStateM.run_bind, run_feed_eq (r := c.requestOf s w) hook rfl, answer]
    exact ⟨_, _, w', rfl, .unopened streams answer⟩
  | ok call w₁ =>
    obtain ⟨rs, ending, w₂, takes⟩ := Feed.exists_takes call.finish
      (fun made (r : Wire.FetchStreamResponse) => s.step made r.video) call.items s.init w₁
    have taken : c.StreamTakes s w call rs ending w₂ := ⟨w₁, answer, takes⟩
    -- Which way a failure goes depends on the fault, not on where it came from.
    have failing {e : Fault} {cancel : Act σ Unit} (fails : Fails call rs.length ending e cancel) :
        ∃ trace, c.Traced op w (.error e.awaited) trace (c.afterFailure cancel rs.length e w₂) := by
      cases ordinary : e.isOrdinary with
      | true => exact ⟨_, .failed streams taken fails ordinary⟩
      | false =>
        have halted := Traced.halted streams taken fails ordinary
        rw [afterFailure, ordinary, Fault.awaited_of_not_isOrdinary ordinary]
        exact ⟨_, halted⟩
    rw [run_awaited_feed_fold hook answer takes]
    cases ending with
    | complete made => exact ⟨_, _, _, rfl, .completed streams taken⟩
    | broken e =>
      obtain ⟨trace, traced⟩ := failing (.broken e)
      exact ⟨_, trace, _, rfl, traced⟩
    | refused response e =>
      obtain ⟨trace, traced⟩ := failing (.refused response e)
      exact ⟨_, trace, _, rfl, traced⟩

/-- Every operation goes in one of these ways. -/
theorem exists_traced (op : Operation σ) (w : World σ) :
    ∃ outcome trace w', (Act.attempt (c.perform op)).run w = .ok outcome w' ∧
      c.Traced op w outcome trace w' := by
  cases op with
  | fetch start stop container =>
    let r := c.fetchRequest start stop container (w.supply w.drawn)
    obtain ⟨answer, w', attempted⟩ :=
      Act.exists_run_attempt (c.channel.fetch r c.options.deadline) (c.afterSending (.fetch r) w)
    have run : (c.perform (.fetch start stop container)).run w =
        Act.mapOk (fun response => .video response.video)
          ((c.channel.fetch r c.options.deadline).run (c.afterSending (.fetch r) w)) := by
      rw [perform, Act.run_map, run_fetch hook rfl, Act.mapOk_mapOk]
    exact ⟨_, _, w', Act.run_attempt_of_mapOk run attempted, .fetch rfl attempted⟩
  | save start stop container metadata background =>
    let r := c.saveRequest start stop container metadata background (w.supply w.drawn)
    obtain ⟨answer, w', attempted⟩ :=
      Act.exists_run_attempt (c.channel.save r c.options.deadline) (c.afterSending (.save r) w)
    have run : (c.perform (.save start stop container metadata background)).run w =
        Act.mapOk (fun response => .filename response.filename)
          ((c.channel.save r c.options.deadline).run (c.afterSending (.save r) w)) := by
      rw [perform, Act.run_map, run_save hook rfl, Act.mapOk_mapOk]
    exact ⟨_, _, w', Act.run_attempt_of_mapOk run attempted, .save rfl attempted⟩
  | fetchStream start stop container onChunk =>
    cases onChunk with
    | usable callback => exact exists_traced_of_streaming hook rfl w
    | value v => exact ⟨_, _, w, rfl, .rejected⟩
  | streamInto start stop container write => exact exists_traced_of_streaming hook rfl w
  | doCommand entries => exact ⟨_, _, w, rfl, .doCommand⟩
  | close => exact ⟨_, _, w, rfl, .close⟩

/-- A session goes through its operations, whatever becomes of each. -/
theorem exists_tracedAll (ops : List (Operation σ)) (w : World σ) :
    ∃ outcomes traces w', (c.session ops).run w = .ok outcomes w' ∧
      c.TracedAll ops w outcomes traces w' := by
  induction ops generalizing w with
  | nil => exact ⟨[], [], w, rfl, .nil⟩
  | cons op rest ih =>
    obtain ⟨outcome, trace, w₁, run, traced⟩ := exists_traced hook op w
    obtain ⟨outcomes, traces, w', others, tracedAll⟩ := ih w₁
    refine ⟨outcome :: outcomes, trace :: traces, w', ?_, .cons traced tracedAll⟩
    simp only [session, EStateM.run_bind, run, others]
    rfl

end

/-! ### The journal shows the traces -/

section

variable {c} {w w' : World σ}

/-- Presenting an item calls the hook with it, and nothing more. -/
theorem filter_presented (past : List Event) (item : Item) :
    (c.presented past item).filter Event.isExchange = c.hookCall item := by
  unfold presented hookCall
  cases c.options.hook with
  | none => rfl
  | some hook =>
    dsimp only
    cases hook (past ++ [c.entry .debug item.typeName]) item <;> rfl

theorem shows_sent (r : Request) (w : World σ) :
    w.Shows Event.isExchange (c.requestTrace r) (c.afterSending r w) := by
  have shown := w.shows_grow (p := Event.isExchange) (c.sent w.journal r) 1
  rw [sent, List.filter_append, filter_presented] at shown
  exact shown

theorem shows_afterFailure {cancel : Act σ Unit} (aloof : cancel.Respects World.Aloof) (count : Nat)
    {e : Fault} (ordinary : e.isOrdinary = true) (w : World σ) :
    w.Shows Event.isExchange (c.faultTrace e) (c.afterFailure cancel count e w) := by
  let cancelled := cancel.after (w.grow [c.failedEntry count e, .cancelled])
  have told : w.Shows Event.isExchange [.cancelled] (w.grow [c.failedEntry count e, .cancelled]) :=
    w.shows_grow _ 0
  have shown := cancelled.shows_grow (p := Event.isExchange)
    (c.presented cancelled.journal (.fault e)) 0
  rw [filter_presented] at shown
  rw [afterFailure, if_pos ordinary]
  exact (told.trans (World.shows_nil_of_adds (aloof _))).trans shown

theorem Fails.aloof {call : Feed σ Wire.FetchStreamResponse} {count : Nat}
    {ending : Ending Wire.FetchStreamResponse β} {e : Fault} {cancel : Act σ Unit}
    (fails : Fails call count ending e cancel) (quiet : call.Respects World.Aloof) :
    cancel.Respects World.Aloof := by
  cases fails with
  | broken => exact Act.respects_pure ()
  | refused => exact quiet.abandon _ _

variable (channel : c.channel.Respects World.Aloof)

include channel

/-- Sending the request is all that is seen of a stream up to its end. -/
theorem StreamTakes.shows {op : Operation σ} {s : Streaming σ} (streams : op.streaming? = some s)
    (aloof : op.Aloof) {call : Feed σ Wire.FetchStreamResponse}
    {rs : List Wire.FetchStreamResponse} {ending : Ending Wire.FetchStreamResponse s.Made}
    (taken : c.StreamTakes s w call rs ending w') :
    w.Shows Event.isExchange (c.requestTrace (.fetchStream (c.requestOf s w))) w' := by
  obtain ⟨w₁, opened, takes⟩ := taken
  have quiet := channel.call _ _ _ _ _ opened
  have opening : World.Aloof (c.afterSending (.fetchStream (c.requestOf s w)) w) w₁ :=
    (channel.fetchStream _ _).of_ok opened
  have taking : World.Aloof w₁ w' :=
    takes.respects quiet.finish quiet.items fun made r => aloof s streams made r.video
  simpa using (shows_sent (c := c) (.fetchStream (c.requestOf s w)) w).trans
    (World.shows_nil_of_adds (trans_of World.Aloof opening taking))

/-- The journal shows the trace of an operation. -/
theorem Traced.shows {op : Operation σ} (aloof : op.Aloof) {outcome : Except Fault Result}
    {trace : List Event} (traced : c.Traced op w outcome trace w') :
    w.Shows Event.isExchange trace w' := by
  cases traced with
  | @fetch _ _ _ r _ _ _ _ attempted =>
    have quiet := ((channel.fetch r c.options.deadline).attempt).of_ok attempted
    simpa using (shows_sent (.fetch r) w).trans (World.shows_nil_of_adds quiet)
  | @save _ _ _ _ _ r _ _ _ _ attempted =>
    have quiet := ((channel.save r c.options.deadline).attempt).of_ok attempted
    simpa using (shows_sent (.save r) w).trans (World.shows_nil_of_adds quiet)
  | rejected => exact World.shows_nil_of_adds (refl_of World.Aloof w)
  | @unopened _ s _ _ _ _ answer =>
    have quiet := (channel.fetchStream (c.requestOf s w) c.options.deadline).of_error answer
    simpa using (shows_sent (.fetchStream (c.requestOf s w)) w).trans
      (World.shows_nil_of_adds quiet)
  | @completed _ _ _ rs _ _ w₂ streams taken =>
    have shown : w₂.Shows Event.isExchange [] (w₂.grow [c.finishedEntry rs.length]) :=
      w₂.shows_grow _ 0
    simpa using (taken.shows channel streams aloof).trans shown
  | failed streams taken fails ordinary =>
    obtain ⟨w₁, opened, -⟩ := id taken
    have quiet := fails.aloof (channel.call _ _ _ _ _ opened)
    exact (taken.shows channel streams aloof).trans (shows_afterFailure quiet _ ordinary _)
  | halted streams taken _ _ => exact taken.shows channel streams aloof
  | doCommand => exact World.shows_nil_of_adds (refl_of World.Aloof w)
  | close => exact World.shows_nil_of_adds (refl_of World.Aloof w)

theorem TracedAll.shows {ops : List (Operation σ)} (aloof : ∀ op ∈ ops, op.Aloof)
    {outcomes : List (Except Fault Result)} {traces : List (List Event)}
    (traced : c.TracedAll ops w outcomes traces w') :
    w.Shows Event.isExchange traces.flatten w' := by
  -- What an operation shows is followed by what the later ones show.
  induction traced with
  | nil => exact World.shows_nil_of_adds (refl_of World.Aloof _)
  | cons first _ ih =>
    obtain ⟨here, others⟩ := List.forall_mem_cons.1 aloof
    exact (first.shows channel here).trans (ih others)

end

end Client

end Footage
