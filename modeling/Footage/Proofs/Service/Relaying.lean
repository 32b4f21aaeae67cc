import Footage.Proofs.Feed.Reaching
import Footage.Proofs.Service.Dispatch

/-!
# Relaying a stream

A service relays the stream of a store: for each chunk it writes one response to its caller, and
the store goes on to the next chunk when that response has been written.  Two sides can fail, the
store in place of any chunk or of finishing, and the write of any message.

A relay is up to a moment (`Service.RelayedTo`) when some chunks have been written and the store
has not been asked for the next one yet, and from there it may come to its stop
(`Service.Stops`), for which there is one constructor for each cause.  There is no other way for a
relay to go, and each one comes to what it says (`Service.relay_exact`): the messages are one for
each chunk that the relay got through, in order, with the chunk's bytes and the request's id, and
so they are at every moment in between.
-/

namespace Footage

open Feed (Takes Ending Reaches)

variable {σ : Type}

namespace Event

/-- Whether a servicer wrote a response. -/
def isWritten : Event → Bool
  | written _ => true
  | _ => false

end Event

/-- The result of a run that came to an outcome at a world. -/
def Act.settled {α : Type} (w : World σ) : Except Fault α → EStateM.Result Fault (World σ) α
  | .ok a => .ok a w
  | .error e => .error e w

/-- Nothing that is added to the journal is a response that a servicer wrote. -/
abbrev World.Unwritten : World σ → World σ → Prop := World.Adds (·.isWritten = false)

namespace Service

/-- A chunk was written to the caller whose request has an id. -/
def chunkWritten (requestId : String) (chunk : Bytes) : Event :=
  .written { video := chunk, requestId }

/-- The stream of a store is open and has been relayed up to a moment: these chunks have been
written, and these acts of the store are still to be asked for. -/
def RelayedTo (s : Store σ) (write : Wire.FetchStreamResponse → Act σ Unit)
    (r : Wire.FetchStreamRequest) (w : World σ) (feed : Feed σ Bytes) (chunks : List Bytes)
    (todo : List (Act σ Bytes)) (w' : World σ) : Prop :=
  ∃ w₁, (s.fetchStream r.start r.stop r.container).run w = .ok feed w₁ ∧
    Reaches (fun _ => writeChunk write r.requestId) feed.items () w₁ chunks todo () w'

/-- A relay stops at a moment when a number of chunks have been written: it comes to an outcome at a
world, and no further message is written. -/
inductive Stops (feed : Feed σ Bytes) (write : Wire.FetchStreamResponse → Act σ Unit)
    (requestId : String) (count : Nat) (w : World σ) :
    List (Act σ Bytes) → Except Fault Unit → World σ → Prop where
  /-- There are no more chunks, and the store finishes. -/
  | finished {w' : World σ} :
      feed.finish.run w = .ok () w' → Stops feed write requestId count w [] (.ok ()) w'
  /-- There are no more chunks, and the store fails. -/
  | unfinished {e : Fault} {w' : World σ} :
      feed.finish.run w = .error e w' → Stops feed write requestId count w [] (.error e) w'
  /-- The store fails in place of its next chunk. -/
  | broken {next : Act σ Bytes} {todo : List (Act σ Bytes)} {e : Fault} {w' : World σ} :
      next.run w = .error e w' → Stops feed write requestId count w (next :: todo) (.error e) w'
  /-- The next chunk is not written.  The store is told of the fault, and it goes on. -/
  | refused {next : Act σ Bytes} {todo : List (Act σ Bytes)} {chunk : Bytes} {e : Fault}
      {w₁ w₂ w' : World σ} :
      next.run w = .ok chunk w₁ → (write { video := chunk, requestId }).run w₁ = .error e w₂ →
      (feed.abandon (count + 1) e).run w₂ = .ok () w' →
      Stops feed write requestId count w (next :: todo) (.error e) w'
  /-- The next chunk is not written, and the store, which is told of the fault, fails with one of
  its own. -/
  | replaced {next : Act σ Bytes} {todo : List (Act σ Bytes)} {chunk : Bytes} {e e' : Fault}
      {w₁ w₂ w' : World σ} :
      next.run w = .ok chunk w₁ → (write { video := chunk, requestId }).run w₁ = .error e w₂ →
      (feed.abandon (count + 1) e).run w₂ = .error e' w' →
      Stops feed write requestId count w (next :: todo) (.error e') w'

/-- How the relay of a store's stream goes from the world at which the store is called: the chunks
that are written, the outcome and the world at the end. -/
inductive Relayed (s : Store σ) (write : Wire.FetchStreamResponse → Act σ Unit)
    (r : Wire.FetchStreamRequest) (w : World σ) :
    List Bytes → Except Fault Unit → World σ → Prop where
  /-- The store fails before there is a stream. -/
  | unopened {e : Fault} {w' : World σ} :
      (s.fetchStream r.start r.stop r.container).run w = .error e w' →
      Relayed s write r w [] (.error e) w'
  /-- The stream is relayed up to a moment, and stops there. -/
  | opened {feed : Feed σ Bytes} {chunks : List Bytes} {todo : List (Act σ Bytes)}
      {outcome : Except Fault Unit} {w₁ w' : World σ} :
      RelayedTo s write r w feed chunks todo w₁ →
      Stops feed write r.requestId chunks.length w₁ todo outcome w' →
      Relayed s write r w chunks outcome w'

variable {table : Store.Table σ} {s : Store σ} {write : Wire.FetchStreamResponse → Act σ Unit}
  {requestId : String} {r : Wire.FetchStreamRequest} {feed : Feed σ Bytes}
  {chunks done : List Bytes} {todo : List (Act σ Bytes)} {count : Nat}
  {outcome : Except Fault Unit} {w w₁ w' : World σ}

/-! ### One chunk -/

theorem run_writeChunk (requestId : String) (chunk : Bytes) (w : World σ) :
    (writeChunk write requestId chunk).run w =
      match (write { video := chunk, requestId }).run w with
      | .ok _ w => .ok () (w.grow [chunkWritten requestId chunk])
      | .error e w => .error e w := by
  rw [writeChunk, EStateM.run_bind]
  cases (write { video := chunk, requestId }).run w <;> rfl

/-- A chunk fails to be relayed exactly when its message fails to be written. -/
theorem run_writeChunk_eq_error {chunk : Bytes} {e : Fault} :
    (writeChunk write requestId chunk).run w = .error e w' ↔
      (write { video := chunk, requestId }).run w = .error e w' := by
  rw [run_writeChunk]
  cases (write { video := chunk, requestId }).run w <;> simp

/-- A chunk that is relayed shows its one message. -/
theorem shows_writeChunk (quietly : ∀ response, (write response).Respects World.Unwritten)
    {chunk : Bytes} {u : Unit} (h : (writeChunk write requestId chunk).run w = .ok u w') :
    w.Shows Event.isWritten [chunkWritten requestId chunk] w' := by
  rw [run_writeChunk] at h
  cases written : (write { video := chunk, requestId }).run w with
  | error e w₁ => simp [written] at h
  | ok u w₁ =>
    rw [written] at h
    cases h
    have silent := World.shows_nil_of_adds ((quietly _).of_ok written)
    exact silent.trans (w₁.shows_grow _ 0)

/-! ### The way to a moment -/

/-- At every moment the messages are those of the chunks that the store has produced so far. -/
theorem RelayedTo.shows (quiet : s.Respects World.Unwritten)
    (quietly : ∀ response, (write response).Respects World.Unwritten)
    (h : RelayedTo s write r w feed done todo w₁) :
    w.Shows Event.isWritten (done.map (chunkWritten r.requestId)) w₁ := by
  obtain ⟨w₂, opened, reached⟩ := h
  have silent := World.shows_nil_of_adds ((quiet.fetchStream _ _ _).of_ok opened)
  have produced := quiet.feed _ _ _ _ _ _ opened
  rw [List.map_eq_flatMap]
  exact silent.trans (reached.shows produced.items fun _ _ _ _ _ => shows_writeChunk quietly)

/-! ### Stopping -/

/-- From every moment the relay stops or takes another chunk. -/
theorem Stops.exists_of_takes {ending : Ending Bytes Unit}
    (h : Takes feed.finish (fun _ => writeChunk write requestId) todo () w [] ending w₁) :
    ∃ outcome w', Stops feed write requestId count w todo outcome w' := by
  cases h with
  | complete finished => exact ⟨_, _, .finished finished⟩
  | unfinished failed => exact ⟨_, _, .unfinished failed⟩
  | broken failed => exact ⟨_, _, .broken failed⟩
  | @refused _ _ _ _ _ _ chunk e produced failed =>
    have unwritten := run_writeChunk_eq_error.1 failed
    cases told : (feed.abandon (count + 1) e).run w₁ with
    | ok u w' => exact ⟨_, _, .refused produced unwritten told⟩
    | error e' w' => exact ⟨_, _, .replaced produced unwritten told⟩

/-- To stop is to take no further chunk, and what becomes of that is the outcome. -/
theorem Stops.takes (h : Stops feed write requestId count w todo outcome w') :
    ∃ ending w₁, Takes feed.finish (fun _ => writeChunk write requestId) todo () w [] ending w₁ ∧
      feed.conclude count w₁ ending = Act.settled w' outcome := by
  cases h with
  | finished finished => exact ⟨_, _, .complete finished, rfl⟩
  | unfinished failed => exact ⟨_, _, .unfinished failed, rfl⟩
  | broken failed => exact ⟨_, _, .broken failed, rfl⟩
  | refused produced failed told =>
    exact ⟨_, _, .refused produced (run_writeChunk_eq_error.2 failed),
      by rw [Feed.conclude, told]; rfl⟩
  | replaced produced failed told =>
    exact ⟨_, _, .refused produced (run_writeChunk_eq_error.2 failed),
      by rw [Feed.conclude, told]; rfl⟩

/-- Where the store and the writes note no message, stopping shows none. -/
theorem Stops.unwritten (quiet : feed.Respects World.Unwritten)
    (items : ∀ next ∈ todo, next.Respects World.Unwritten)
    (quietly : ∀ response, (write response).Respects World.Unwritten)
    (h : Stops feed write requestId count w todo outcome w') : w.Unwritten w' := by
  cases h with
  | finished finished => exact quiet.finish.of_ok finished
  | unfinished failed => exact quiet.finish.of_error failed
  | broken failed => exact (items _ List.mem_cons_self).of_error failed
  | refused produced failed told =>
    have front := (items _ List.mem_cons_self).of_ok produced
    exact trans_of _ (trans_of _ front ((quietly _).of_error failed))
      ((quiet.abandon _ _).of_ok told)
  | replaced produced failed told =>
    have front := (items _ List.mem_cons_self).of_ok produced
    exact trans_of _ (trans_of _ front ((quietly _).of_error failed))
      ((quiet.abandon _ _).of_error told)

/-! ### The whole relay -/

/-- The relay goes one of the ways. -/
theorem exists_relayed (s : Store σ) (write : Wire.FetchStreamResponse → Act σ Unit)
    (r : Wire.FetchStreamRequest) (w : World σ) :
    ∃ chunks outcome w', Relayed s write r w chunks outcome w' := by
  cases opened : (s.fetchStream r.start r.stop r.container).run w with
  | error e w' => exact ⟨[], _, _, .unopened opened⟩
  | ok feed w₁ =>
    obtain ⟨chunks, ending, w₂, takes⟩ := Feed.exists_takes feed.finish
      (fun _ => writeChunk write r.requestId) feed.items () w₁
    obtain ⟨todo, u, w₃, reached, last⟩ := takes.exists_reaches
    obtain ⟨outcome, w', stops⟩ := Stops.exists_of_takes last
    exact ⟨chunks, outcome, w', .opened ⟨w₁, opened, reached⟩ stops⟩

/-- The service comes to the outcome that the relay of the store's stream has. -/
theorem Relayed.run_relay (found : table.lookup r.name = some s)
    (h : Relayed s write r (w.grow [receivedEntry .fetchStream r.requestId r.name]) chunks
      outcome w') :
    (relay table r write).run w = Act.settled w' outcome := by
  rw [relay, EStateM.run_bind, run_fetchStream found]
  cases h with
  | unopened failed => rw [failed]; rfl
  | @opened feed _ todo _ w₁ _ moment stops =>
    obtain ⟨w₂, opened, reached⟩ := moment
    obtain ⟨ending, w₃, last, concluded⟩ := stops.takes
    have takes := reached.takes last
    rw [List.append_nil] at takes
    rw [opened, ← concluded]
    exact (congrArg (EStateM.run · w₂) (Feed.fold_map_pure _ feed _ ())).trans
      (Feed.run_fold feed takes)

/-- The messages are those of the chunks that the relay got through. -/
theorem Relayed.shows (quiet : s.Respects World.Unwritten)
    (quietly : ∀ response, (write response).Respects World.Unwritten)
    (h : Relayed s write r w chunks outcome w') :
    w.Shows Event.isWritten (chunks.map (chunkWritten r.requestId)) w' := by
  cases h with
  | unopened failed => exact World.shows_nil_of_adds ((quiet.fetchStream _ _ _).of_error failed)
  | opened moment stops =>
    have told := moment.shows quiet quietly
    obtain ⟨w₂, opened, reached⟩ := moment
    obtain ⟨front, items, -⟩ := reached.exists_append
    have produced := quiet.feed _ _ _ _ _ _ opened
    have rest (next : Act σ Bytes) (hn : next ∈ _) : next.Respects World.Unwritten :=
      produced.items next (items ▸ List.mem_append_right front hn)
    have silent := stops.unwritten produced rest quietly
    simpa using told.trans (World.shows_nil_of_adds silent)

/-- Every moment is one on the way to the end: the chunks of then are the first ones of those that
the relay gets through. -/
theorem RelayedTo.isPrefix (moment : RelayedTo s write r w feed done todo w₁)
    (h : Relayed s write r w chunks outcome w') : done <+: chunks := by
  obtain ⟨w₂, opened, reached⟩ := moment
  cases h with
  | unopened failed => cases opened.symm.trans failed
  | opened moment stops =>
    obtain ⟨w₃, opened', reached'⟩ := moment
    cases opened.symm.trans opened'
    obtain ⟨ending, w', last, -⟩ := stops.takes
    obtain ⟨rest, same, -⟩ := reached.prefix_of_takes (reached'.takes last)
    exact ⟨rest, by simpa using same.symm⟩

/-- **A relay is exact, with back-pressure.**  Let a request for a stream have a name that is in
the table, with any store under it and any way to write, both of which may fail anywhere.  Then the
relay goes one of the ways of `Relayed`, and whichever it goes:

* it comes to the outcome of that way, which is the store's fault if the store fails in place of a
  chunk, and the writer's if a message is not written and the store adds no fault of its own;
* at every moment when the store is about to be asked for a chunk, it has been asked for just those
  whose messages have been written, and they are the first ones of all;
* where the store and the writer note no message themselves, the messages in the journal are one
  for each chunk, in order, each with the chunk's bytes and the request's id, at every moment and
  in the end. -/
theorem relay_exact (found : table.lookup r.name = some s) (w : World σ) :
    let called := w.grow [receivedEntry .fetchStream r.requestId r.name]
    (∃ chunks outcome w', Relayed s write r called chunks outcome w') ∧
      ∀ chunks outcome w', Relayed s write r called chunks outcome w' →
        (relay table r write).run w = Act.settled w' outcome ∧
        (∀ feed done todo w₁, RelayedTo s write r called feed done todo w₁ →
          done <+: chunks ∧ ∃ asked, feed.items = asked ++ todo ∧ asked.length = done.length) ∧
        (s.Respects World.Unwritten →
          (∀ response, (write response).Respects World.Unwritten) →
          w.Shows Event.isWritten (chunks.map (chunkWritten r.requestId)) w' ∧
            ∀ feed done todo w₁, RelayedTo s write r called feed done todo w₁ →
              w.Shows Event.isWritten (done.map (chunkWritten r.requestId)) w₁) := by
  intro called
  have received : w.Shows Event.isWritten [] called := w.shows_grow _ 0
  refine ⟨exists_relayed s write r called, fun chunks outcome w' relayed => ?_⟩
  refine ⟨relayed.run_relay found, fun feed done todo w₁ moment => ?_, fun quiet quietly => ?_⟩
  · obtain ⟨w₂, -, reached⟩ := id moment
    exact ⟨moment.isPrefix relayed, reached.exists_append⟩
  · exact ⟨received.trans (relayed.shows quiet quietly), fun feed done todo w₁ moment =>
      received.trans (moment.shows quiet quietly)⟩

end Service

/-! ### An instance -/

/-- A scripted store notes its calls, and no message. -/
theorem Store.unwritten_scripted (key : String) (script : Script) :
    (Store.scripted key script : Store σ).Respects World.Unwritten := by
  have noted (n : Note) : (Act.note (.noted key n) : Act σ Unit).Respects World.Unwritten :=
    Act.adds_note rfl
  have begun {n : Note} {next : Act σ Unit} (quiet : next.Respects World.Unwritten) :
      (Act.note (.noted key n) >>= fun _ => next).Respects World.Unwritten :=
    (noted n).bind fun _ => quiet
  refine ⟨fun _ _ _ => (begun ?fetch).bind fun _ => Act.respects_pure _,
    fun _ _ _ _ _ => (begun ?save).bind fun _ => Act.respects_pure _,
    fun _ _ _ => (begun ?stream).bind fun _ => Act.respects_pure _, ?call,
    fun _ => (begun ?command).bind fun _ => Act.respects_pure _⟩
  case call =>
    intro start stop container w feed w' opened
    obtain ⟨_, w₁, -, rest⟩ := Act.exists_of_run_bind_ok opened
    cases rest
    refine ⟨fun next hn => ?_, ?_, fun _ _ => noted _⟩
    · obtain ⟨chunk, -, rfl⟩ := List.mem_map.1 hn
      exact Act.respects_pure _
    · dsimp only
      split
      · exact noted _
      · exact (noted _).bind fun _ => Act.respects_throw _
  -- The script may make any operation fail at once.
  all_goals
    cases script.immediate with
    | none => exact Act.respects_pure _
    | some e => exact Act.respects_throw e

namespace Service

/-- Writes messages until one has a given chunk. -/
def writeUntil (last : Bytes) (response : Wire.FetchStreamResponse) : Act σ Unit :=
  if response.video = last then throw (.foreign .runtime "closed") else pure ()

/-- Of three chunks the second one is not written: there is one message, the store is told, and the
third chunk is not asked for. -/
theorem relay_exact_second :
    let store : Store Unit := .scripted "vs-1" { video := [1, 2, 3], chunkSize := 1 }
    let r : Wire.FetchStreamRequest := { name := "vs-1", start := "a", requestId := "7" }
    let called := (World.fresh ()).grow [receivedEntry .fetchStream "7" "vs-1"]
    let fault : Fault := .foreign .runtime "closed"
    ∃ w', (relay [("vs-1", store)] r (writeUntil [2])).run (.fresh ()) = .error fault w' ∧
      Relayed store (writeUntil [2]) r called [[1]] (.error fault) w' ∧
      w'.journal = [receivedEntry .fetchStream "7" "vs-1", .noted "vs-1" (.fetchStream "a" "" ""),
        chunkWritten "7" [1], .noted "vs-1" (.stopped .runtime 2)] := by
  intro store r called fault
  have found : List.lookup r.name [("vs-1", store)] = some store := rfl
  have quietly : ∀ response : Wire.FetchStreamResponse,
      (writeUntil [2] response : Act Unit Unit).Respects World.Unwritten := by
    intro response
    rw [writeUntil]
    split
    · exact Act.respects_throw _
    · exact Act.respects_pure _
  obtain ⟨⟨chunks, outcome, w', relayed⟩, whichever⟩ := relay_exact (r := r) found (.fresh ())
  obtain ⟨run, -, noted⟩ := whichever chunks outcome w' relayed
  obtain ⟨⟨events, journal, messages⟩, -⟩ := noted (Store.unwritten_scripted "vs-1" _) quietly
  have computed : (relay [("vs-1", store)] r (writeUntil [2])).run (.fresh ()) =
      .error fault (called.grow [.noted "vs-1" (.fetchStream "a" "" ""), chunkWritten "7" [1],
        .noted "vs-1" (.stopped .runtime 2)]) := by
    have cut : Script.chunks { video := [1, 2, 3], chunkSize := 1 } = ([[1], [2], [3]], none) := by
      simp [Script.chunks, Script.slices]
    simp only [store, Store.scripted, cut]
    rfl
  rw [computed] at run
  cases outcome with
  | ok u => cases run
  | error e =>
    cases run
    cases journal
    -- The messages of the run are those of the chunks that it was relayed with.
    obtain ⟨chunk, rest, rfl, first, others⟩ := List.map_eq_cons_iff.1 messages.symm
    obtain rfl : chunk = [1] := by simpa [chunkWritten, r] using first
    obtain rfl := List.map_eq_nil_iff.1 others
    exact ⟨_, computed, relayed, rfl⟩

end Service

end Footage
