import Footage.Channel.Replay
import Footage.Proofs.Act.Agreeing
import Footage.Proofs.Client.Delivery
import Footage.Proofs.Client.Session
import Mathlib.Data.List.Induction

/-!
# What a hook changes

A session with a hook is the session without one, but for what the hook itself adds to the journal:
each of its calls, and after a call that raised a fault one entry of the log
(`Client.Annotated`).  Hence two sessions with different hooks make the same calls with the same
requests, hand over the same chunks, cancel the same calls and have the same outcomes
(`Client.session_hook_indifferent`).

The channel and the callbacks are given once for both sessions.  So they must not depend on what a
hook does, and the journal is the only place where they could see that (`Channel.Blind`,
`Client.Operation.Blind`).
-/

namespace Footage

variable {σ β : Type}

/-- What a channel answers does not depend on what stood in the journal before. -/
structure Channel.Blind (ch : Channel σ) : Prop where
  fetch : ∀ r deadline, (ch.fetch r deadline).Blind
  save : ∀ r deadline, (ch.save r deadline).Blind
  fetchStream : ∀ r deadline, (ch.fetchStream r deadline).Blind
  call : ∀ r deadline w call w', (ch.fetchStream r deadline).run w = .ok call w' → call.Blind

/-- A channel that answers from a script looks at nothing. -/
theorem Channel.blind_replay (r : Channel.Replies) : (Channel.replay r : Channel σ).Blind where
  fetch _ _ := (Act.blind_ofExcept r.video).bind fun _ => Act.blind_pure _
  save _ _ := (Act.blind_ofExcept r.filename).bind fun _ => Act.blind_pure _
  fetchStream _ _ := Act.blind_pure _
  call := by
    rintro q - w call w' ⟨⟩
    refine ⟨fun next hn => ?_, ?_, fun _ _ => Act.blind_pure ()⟩
    · obtain ⟨chunk, -, rfl⟩ := List.mem_map.1 hn
      exact Act.blind_pure _
    · dsimp only [Channel.Replies.feed]
      cases r.failure with
      | none => exact Act.blind_pure ()
      | some e => exact Act.blind_throw e

namespace Client

/-- What a callback does, and what it comes back with when that is waited for, does not depend on
what stood in the journal before; nor does what a writer does. -/
def Operation.Blind : Operation σ → Prop
  | .fetchStream _ _ _ (.usable callback) =>
    (∀ chunk, (callback chunk).Blind) ∧
      ∀ chunk w reply w', (callback chunk).run w = .ok reply w' → reply.settle.Blind
  | .streamInto _ _ _ write => ∀ chunk, (write chunk).Blind
  | _ => True

variable (c : Client σ)

/-- The client with another hook, or without one. -/
def withHook (hook : Option Hook) : Client σ := { c with options := { c.options with hook } }

/-- What is logged when the client's hook raises a fault on an item. -/
def grievance (item : Item) : Option Fault → List Event
  | none => []
  | some e =>
    [c.entry .error ("request_logger raised while handling " ++ item.typeName ++ ".") e.kind]

/-- The second journal is the first one with calls of a hook added.  After a call that raised a
fault stands one entry of the log about it; otherwise nothing is added, and nothing is missing. -/
inductive Annotated (c : Client σ) (raises : List Event → Item → Option Fault → Prop) :
    List Event → List Event → Prop where
  | nil : Annotated c raises [] []
  | event {plain full : List Event} (e : Event) :
      Annotated c raises plain full → Annotated c raises (plain ++ [e]) (full ++ [e])
  | hooked {plain full : List Event} {item : Item} {fault : Option Fault} :
      Annotated c raises plain full → raises full item fault →
      Annotated c raises plain (full ++ .hooked item :: c.grievance item fault)

/-- After all that happened in the past and since, the client's hook raises this fault, or none, on
an item. -/
def Raises (past since : List Event) (item : Item) (fault : Option Fault) : Prop :=
  ∃ hook, c.options.hook = some hook ∧ hook (past ++ since) item = fault

variable {c} {raises : List Event → Item → Option Fault → Prop} {plain full : List Event}

theorem Annotated.append (h : Annotated c raises plain full) (events : List Event) :
    Annotated c raises (plain ++ events) (full ++ events) := by
  induction events using List.reverseRecOn with
  | nil => simpa using h
  | append_singleton events e ih =>
    rw [← List.append_assoc, ← List.append_assoc]
    exact ih.event e

/-- What a client without a hook presents, and what one with a hook does. -/
theorem Annotated.presented (h : Annotated c raises plain full) (past past' : List Event)
    (item : Item)
    (raised : ∀ hook, c.options.hook = some hook →
      raises (full ++ [c.entry .debug item.typeName]) item
        (hook (past' ++ [c.entry .debug item.typeName]) item)) :
    Annotated c raises (plain ++ (c.withHook none).presented past item)
      (full ++ c.presented past' item) := by
  have shown := h.event (c.entry .debug item.typeName)
  unfold Client.presented
  cases ho : c.options.hook with
  | none => exact shown
  | some hook =>
    have called := shown.hooked (raised hook ho)
    rw [List.append_assoc] at called
    dsimp only
    cases hf : hook (past' ++ [c.entry .debug item.typeName]) item with
    | none =>
      rw [hf] at called
      exact called
    | some e =>
      rw [hf] at called
      exact called

/-! ### Two runs side by side -/

/-- One world is that of a run without the client's hook, the other one that of the same run with
the hook, both since a common past. -/
structure Annotates (c : Client σ) (past : List Event) (v w : World σ) : Prop where
  drawn : v.drawn = w.drawn
  supply : v.supply = w.supply
  state : v.state = w.state
  journal : ∃ plain full, v.journal = past ++ plain ∧ w.journal = past ++ full ∧
    Annotated c (c.Raises past) plain full

variable {past : List Event}

theorem Annotates.grow {v w : World σ} (h : c.Annotates past v w) (events : List Event)
    (ids : Nat) : c.Annotates past (v.grow events ids) (w.grow events ids) := by
  obtain ⟨plain, full, hv, hw, annotated⟩ := h.journal
  refine ⟨by simp [h.drawn], h.supply, h.state, plain ++ events, full ++ events, ?_, ?_,
    annotated.append events⟩
  · rw [World.grow_journal, hv, List.append_assoc]
  · rw [World.grow_journal, hw, List.append_assoc]

theorem agree_of_blind {x : Act σ β} (h : x.Blind) : Act.Agree (c.Annotates past) Eq x x := by
  intro v w hr
  obtain ⟨plain, full, hv, hw, annotated⟩ := hr.journal
  have twins : World.Twins v.journal w.journal v w := ⟨hr.drawn, hr.supply, hr.state, [], by simp⟩
  have still {v' w' : World σ} (h : World.Twins v.journal w.journal v' w') :
      c.Annotates past v' w' := by
    obtain ⟨drawn, supply, state, events, hv', hw'⟩ := h
    refine ⟨drawn, supply, state, plain ++ events, full ++ events, ?_, ?_, annotated.append events⟩
    · rw [hv', hv, List.append_assoc]
    · rw [hw', hw, List.append_assoc]
  rcases (h v.journal w.journal).cases twins with
    ⟨a, b, v', w', hx, hy, hab, hr'⟩ | ⟨e, v', w', hx, hy, hr'⟩
  · rw [hx, hy]
    exact .ok hab (still hr')
  · rw [hx, hy]
    exact .error (still hr')

theorem agree_note (e : Event) : Act.Agree (c.Annotates past) Eq (Act.note e) (Act.note e) :=
  Act.agree_note fun _ _ hr => hr.grow [e] 0

theorem agree_drawId : Act.Agree (c.Annotates past) Eq Act.drawId Act.drawId := by
  intro v w hr
  rw [Act.run_drawId, Act.run_drawId]
  exact .ok (by rw [hr.supply, hr.drawn]) (hr.grow [] 1)

theorem withHook_hasOrdinaryHook_none : (c.withHook none).options.HasOrdinaryHook := by
  rintro hook ⟨⟩

variable (hook : c.options.HasOrdinaryHook)

include hook

theorem agree_present (item : Item) :
    Act.Agree (c.Annotates past) Eq ((c.withHook none).present item) (c.present item) := by
  intro v w hr
  obtain ⟨plain, full, hv, hw, annotated⟩ := hr.journal
  rw [run_present withHook_hasOrdinaryHook_none, run_present hook]
  refine .ok rfl ⟨by simp [hr.drawn], hr.supply, hr.state, _, _,
    by rw [World.grow_journal, hv, List.append_assoc],
    by rw [World.grow_journal, hw, List.append_assoc], ?_⟩
  refine annotated.presented _ _ item fun h ho => ⟨h, ho, ?_⟩
  rw [List.append_assoc]

theorem agree_send (r : Request) :
    Act.Agree (c.Annotates past) Eq ((c.withHook none).send r) (c.send r) :=
  (agree_present hook (.request r)).bind_eq fun _ => agree_note (.called r c.options.deadline)

theorem agree_streamFailed {cancel : Act σ Unit} (h : cancel.Blind) (count : Nat) (e : Fault) :
    Act.Agree (c.Annotates past) Eq ((c.withHook none).streamFailed cancel count e)
      (c.streamFailed cancel count e) := by
  unfold streamFailed
  split
  · refine (agree_note (c.failedEntry count e)).bind_eq fun _ => ?_
    refine (agree_note .cancelled).bind_eq fun _ => ?_
    exact (agree_of_blind h).discard_attempt.bind_eq fun _ => agree_present hook (.fault e)
  · exact Act.agree_pure rfl

theorem agree_chunks {call : Feed σ Wire.FetchStreamResponse} (h : call.Blind) :
    Feed.Agree (c.Annotates past) ((c.withHook none).chunks call) (c.chunks call) where
  items := by
    rw [List.forall₂_iff_get]
    refine ⟨by simp [chunks], fun i hi hi' => ?_⟩
    simp only [chunks, List.get_eq_getElem, List.getElem_mapIdx]
    refine Act.Agree.guarding ?_ (agree_streamFailed hook (Act.blind_pure ()) i)
    exact (agree_of_blind (h.items _ (List.getElem_mem _))).bind_eq fun _ => Act.agree_pure rfl
  finish := by
    refine Act.Agree.bind_eq ?_ fun _ => agree_note (c.finishedEntry _)
    exact (agree_of_blind h.finish).guarding (agree_streamFailed hook (Act.blind_pure ()) _)
  abandon taken e := agree_streamFailed hook (h.abandon taken .cancelled) (taken - 1) e

/-! ### Operations and sessions -/

variable (channel : c.channel.Blind)

include channel

theorem agree_fold_feed {start stop container : String} {step : β → Bytes → Act σ β}
    (hs : ∀ b chunk, Act.Agree (c.Annotates past) Eq (step b chunk) (step b chunk)) (b : β) :
    Act.Agree (c.Annotates past) Eq
      (do (← (c.withHook none).feed start stop container).fold step b)
      (do (← c.feed start stop container).fold step b) := by
  simp only [feed, bind_assoc, pure_bind]
  refine agree_drawId.bind_eq fun requestId => (agree_send hook _).bind_eq fun _ => ?_
  refine ((agree_of_blind (channel.fetchStream _ _)).with_value (channel.call _ _)).bind ?_
  rintro call _ ⟨rfl, blind⟩
  exact (agree_chunks hook blind).fold hs b

theorem agree_perform {op : Operation σ} (blind : op.Blind) :
    Act.Agree (c.Annotates past) Eq ((c.withHook none).perform op) (c.perform op) := by
  cases op with
  | fetch start stop container =>
    refine Act.Agree.bind_eq ?_ fun _ => Act.agree_pure rfl
    refine agree_drawId.bind_eq fun _ => (agree_send hook _).bind_eq fun _ => ?_
    exact (agree_of_blind (channel.fetch _ _)).bind_eq fun _ => Act.agree_pure rfl
  | save start stop container metadata background =>
    refine Act.Agree.bind_eq ?_ fun _ => Act.agree_pure rfl
    refine agree_drawId.bind_eq fun _ => (agree_send hook _).bind_eq fun _ => ?_
    exact (agree_of_blind (channel.save _ _)).bind_eq fun _ => Act.agree_pure rfl
  | fetchStream start stop container onChunk =>
    refine Act.Agree.bind_eq ?_ fun _ => Act.agree_pure rfl
    cases onChunk with
    | value v => exact Act.agree_throw _
    | usable callback =>
      refine Act.Agree.awaited (agree_fold_feed hook channel (fun _ chunk => ?_) ())
      refine (agree_note (.delivered chunk)).bind_eq fun _ => ?_
      refine ((agree_of_blind (blind.1 chunk)).with_value (blind.2 chunk)).bind ?_
      rintro reply _ ⟨rfl, settled⟩
      exact agree_of_blind settled
  | streamInto start stop container write =>
    refine Act.Agree.bind_eq ?_ fun _ => Act.agree_pure rfl
    refine Act.Agree.awaited (agree_fold_feed hook channel (fun total chunk => ?_) 0)
    refine (agree_note (.delivered chunk)).bind_eq fun _ => ?_
    exact (agree_of_blind (blind chunk)).bind_eq fun _ => Act.agree_pure rfl
  | doCommand entries => exact Act.agree_pure rfl
  | close => exact Act.agree_pure rfl

theorem agree_session {ops : List (Operation σ)} (blind : ∀ op ∈ ops, op.Blind) :
    Act.Agree (c.Annotates past) Eq ((c.withHook none).session ops) (c.session ops) := by
  -- Each operation goes on from worlds that the ones before have left side by side.
  induction ops with
  | nil => exact Act.agree_pure rfl
  | cons op rest ih =>
    obtain ⟨first, others⟩ := List.forall_mem_cons.1 blind
    refine (agree_perform hook channel first).attempt.bind_eq fun outcome => ?_
    exact (ih others).bind_eq fun _ => Act.agree_pure rfl

omit hook channel in
/-- A session takes every fault as the outcome of an operation. -/
theorem exists_run_session (c : Client σ) (ops : List (Operation σ)) (w : World σ) :
    ∃ outcomes w', (c.session ops).run w = .ok outcomes w' := by
  induction ops generalizing w with
  | nil => exact ⟨[], w, rfl⟩
  | cons op rest ih =>
    obtain ⟨outcome, w₁, first⟩ := Act.exists_run_attempt (c.perform op) w
    obtain ⟨outcomes, w', others⟩ := ih w₁
    refine ⟨outcome :: outcomes, w', ?_⟩
    simp only [session, EStateM.run_bind, first, others]
    rfl

/-- A session with a hook has the outcomes of the one without, and its journal is that one with the
calls of the hook added. -/
theorem session_annotates {ops : List (Operation σ)} (blind : ∀ op ∈ ops, op.Blind) (w : World σ) :
    ∃ outcomes v w', ((c.withHook none).session ops).run w = .ok outcomes v ∧
      (c.session ops).run w = .ok outcomes w' ∧ c.Annotates w.journal v w' := by
  have start : c.Annotates w.journal w w := ⟨rfl, rfl, rfl, [], [], by simp, by simp, .nil⟩
  obtain ⟨outcomes, v, run⟩ := exists_run_session (c.withHook none) ops w
  rcases (agree_session hook channel blind).cases start with
    ⟨_, _, v', w', hv, hw, rfl, hr⟩ | ⟨e, v', w', hv, -, -⟩
  · exact ⟨_, v', w', hv, hw, hr⟩
  · rw [run] at hv
    cases hv

end Client

/-- Whether the event is neither an entry of the log nor the call of a hook. -/
def Event.isDeed : Event → Bool
  | logged _ | hooked _ => false
  | _ => true

namespace Client

variable {c : Client σ} {raises : List Event → Item → Option Fault → Prop} {plain full : List Event}

/-- Calls of a hook add nothing but calls of the hook and entries of the log. -/
theorem Annotated.deeds (h : Annotated c raises plain full) :
    full.filter Event.isDeed = plain.filter Event.isDeed := by
  induction h with
  | nil => rfl
  | event e _ ih => rw [List.filter_append, List.filter_append, ih]
  | @hooked plain full item fault _ _ ih =>
    rw [List.filter_append, ih]
    cases fault <;> simp [Event.isDeed, grievance, entry]

/-- **The hook changes nothing but the log.**  With any two hooks that raise ordinary faults, or
without one, a session from the same world has the same outcomes, and leaves the same surroundings
and the same supply of ids.  Both journals are that of the session without a hook with the calls of
the hook added, each with one entry of the log if the hook raised a fault; so the calls and their
requests, the chunks that are handed over and the calls that are cancelled are the same, in the same
order. -/
theorem session_hook_indifferent (channel : c.channel.Blind) {ops : List (Operation σ)}
    (blind : ∀ op ∈ ops, op.Blind) (first second : Option Hook)
    (ordinary : (c.withHook first).options.HasOrdinaryHook)
    (ordinary' : (c.withHook second).options.HasOrdinaryHook) (w : World σ) :
    ∃ outcomes v w₁ w₂,
      ((c.withHook none).session ops).run w = .ok outcomes v ∧
      ((c.withHook first).session ops).run w = .ok outcomes w₁ ∧
      ((c.withHook second).session ops).run w = .ok outcomes w₂ ∧
      w₁.state = w₂.state ∧ w₁.drawn = w₂.drawn ∧
      ∃ plain full full',
        v.journal = w.journal ++ plain ∧
        w₁.journal = w.journal ++ full ∧
        w₂.journal = w.journal ++ full' ∧
        Annotated (c.withHook first) ((c.withHook first).Raises w.journal) plain full ∧
        Annotated (c.withHook second) ((c.withHook second).Raises w.journal) plain full' ∧
        full.filter Event.isDeed = full'.filter Event.isDeed := by
  obtain ⟨outcomes, v, w₁, run, run₁, annotates₁⟩ :=
    session_annotates (c := c.withHook first) ordinary channel blind w
  obtain ⟨outcomes', v', w₂, run', run₂, annotates₂⟩ :=
    session_annotates (c := c.withHook second) ordinary' channel blind w
  obtain ⟨rfl, rfl⟩ : outcomes = outcomes' ∧ v = v' := by
    have same := run.symm.trans run'
    cases same
    exact ⟨rfl, rfl⟩
  obtain ⟨plain, full, hv, hw₁, annotated₁⟩ := annotates₁.journal
  obtain ⟨plain', full', hv', hw₂, annotated₂⟩ := annotates₂.journal
  obtain rfl : plain = plain' := List.append_cancel_left (hv.symm.trans hv')
  exact ⟨outcomes, v, w₁, w₂, run, run₁, run₂, annotates₁.state.symm.trans annotates₂.state,
    annotates₁.drawn.symm.trans annotates₂.drawn, plain, full, full', hv, hw₁, hw₂, annotated₁,
    annotated₂, annotated₁.deeds.trans annotated₂.deeds.symm⟩

/-! ### An instance -/

/-- A callback that fails on an empty chunk. -/
def fussy (chunk : Bytes) : Act Unit (Reply Unit) :=
  if chunk.isEmpty then throw (.foreign .value "empty") else return .value .null

/-- A stream that its callback breaks off, a video, and a stream that is written. -/
def sampleOperations : List (Operation Unit) :=
  [.fetchStream "a" "b" "mp4" (.usable fussy), .fetch "a" "b" "mp4",
    .streamInto "a" "b" "mp4" fun _ => pure ()]

/-- A hook that fails each time makes no difference to the outcomes, or to anything but the log. -/
theorem session_hook_indifferent_sample :
    ∃ outcomes w₁ w₂,
      ((sample.withHook none).session sampleOperations).run (.fresh ()) = .ok outcomes w₁ ∧
      ((sample.withHook sample.options.hook).session sampleOperations).run (.fresh ()) =
        .ok outcomes w₂ ∧
      outcomes.length = 3 ∧
      w₁.journal.filter Event.isDeed = w₂.journal.filter Event.isDeed := by
  have blind : ∀ op ∈ sampleOperations, op.Blind := by
    intro op ho
    simp only [sampleOperations, List.mem_cons, List.not_mem_nil, or_false] at ho
    rcases ho with rfl | rfl | rfl
    · refine ⟨fun chunk => ?_, fun chunk w reply w' hr => ?_⟩
      · unfold fussy
        split
        · exact Act.blind_throw _
        · exact Act.blind_pure _
      · cases chunk <;> cases hr
        exact Act.blind_pure ()
    · trivial
    · exact fun _ => Act.blind_pure ()
  obtain ⟨outcomes, v, w₁, w₂, -, run₁, run₂, -, -, plain, full, full', -, hw₁, hw₂, -, -, deeds⟩ :=
    session_hook_indifferent (c := sample) (Channel.blind_replay _) blind none
      sample.options.hook withHook_hasOrdinaryHook_none sample_hasOrdinaryHook (.fresh ())
  refine ⟨outcomes, w₁, w₂, run₁, run₂, ?_, ?_⟩
  · cases run₁
    rfl
  · rw [hw₁, hw₂]
    simp [World.fresh, deeds]

end Client

end Footage
