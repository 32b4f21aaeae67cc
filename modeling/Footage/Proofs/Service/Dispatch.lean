import Footage.Proofs.Act.Showing
import Footage.Proofs.Client.Traffic
import Footage.Proofs.Remote.Hop

/-!
# Dispatch

A service goes through requests while its table changes (`Service.serve`).  The table is part of the
surroundings, so it may change between two requests, and a store may change it while it answers.

To see which calls the service makes, every store in the table is watched: it notes each call under
its key before it does what it is asked (`Store.watched`).  Then each request leads to the call that
it asks for, on the store that is under its name when it is answered, and to no other call; the
outcome is what that store makes of it.  A request for a name that is not in the table leads to no
call at all (`Service.Dispatched`).  That this is so over every sequence of requests and changes is
`Service.serve_dispatches`.
-/

namespace Footage

variable {σ α β γ : Type}

/-! ### Calls of a store -/

namespace Request

/-- The id of the request, if its type has one. -/
def id? : Request → Option String
  | fetch r => some r.requestId
  | save r => some r.requestId
  | fetchStream r => some r.requestId
  | doCommand _ => none

/-- The call of a store that the request asks for, with the request's own values.  A command that
does not convert asks for none. -/
def call : Request → Except Fault Note
  | fetch r => .ok (.fetch r.start r.stop r.container)
  | save r => .ok (.save r.start r.stop r.container r.metadata r.background)
  | fetchStream r => .ok (.fetchStream r.start r.stop r.container)
  | doCommand r => do
    return .command (← (r.command.getD {}).toRecord.mapError Fault.conversion)

/-- The entry of the log about the request when it has arrived. -/
def receipt : Request → Event
  | fetch r => Service.receivedEntry .fetch r.requestId r.name
  | save r => Service.receivedEntry .save r.requestId r.name
  | fetchStream r => Service.receivedEntry .fetchStream r.requestId r.name
  | doCommand r =>
    .logged { logger := "videostore.service", level := .debug,
              message := "Received DoCommand request for " ++ r.name, about := none }

end Request

/-- The store, which notes every call under a key before it does what it is asked. -/
def Store.watched (key : String) (s : Store σ) : Store σ where
  fetch := fun start stop container => do
    Act.note (.noted key (.fetch start stop container))
    s.fetch start stop container
  save := fun start stop container metadata background => do
    Act.note (.noted key (.save start stop container metadata background))
    s.save start stop container metadata background
  fetchStream := fun start stop container => do
    Act.note (.noted key (.fetchStream start stop container))
    s.fetchStream start stop container
  doCommand := fun entries => do
    Act.note (.noted key (.command entries))
    s.doCommand entries

/-- The table with every store watched under its key. -/
def Store.Table.watched (t : Store.Table σ) : Store.Table σ :=
  t.map fun entry => (entry.1, entry.2.watched entry.1)

theorem Store.Table.lookup_watched (t : Store.Table σ) (key : String) :
    t.watched.lookup key = (t.lookup key).map (Store.watched key) := by
  induction t with
  | nil => rfl
  | cons entry rest ih =>
    obtain ⟨own, s⟩ := entry
    simp only [watched, List.map_cons, List.lookup_cons]
    by_cases h : key = own
    · subst h
      simp
    · rw [beq_eq_false_iff_ne.2 h]
      exact ih

/-- Everything that the store does respects a relation. -/
structure Store.Respects (R : World σ → World σ → Prop) (s : Store σ) : Prop where
  fetch : ∀ start stop container, (s.fetch start stop container).Respects R
  save : ∀ start stop container metadata background,
    (s.save start stop container metadata background).Respects R
  fetchStream : ∀ start stop container, (s.fetchStream start stop container).Respects R
  feed : ∀ start stop container w feed w',
    (s.fetchStream start stop container).run w = .ok feed w' → feed.Respects R
  doCommand : ∀ entries, (s.doCommand entries).Respects R

namespace Service

/-! ### Answers -/

/-- What a request is answered with. -/
inductive Answer where
  | video (response : Wire.FetchResponse)
  | saved (response : Wire.SaveResponse)
  /-- The responses of a stream have been written. -/
  | streamed
  | result (response : Wire.DoCommandResponse)

/-- The answer is of the type that the request asks for, and has the request's id. -/
def Answer.Fits : Request → Answer → Prop
  | .fetch r, video response => response.requestId = r.requestId
  | .save r, saved response => response.requestId = r.requestId
  | .fetchStream _, streamed => True
  | .doCommand _, result _ => True
  | _, _ => False

/-- Answers a request from the stores in a table; the responses of a stream are written. -/
def answer (table : Store.Table σ) (write : Wire.FetchStreamResponse → Act σ Unit) :
    Request → Act σ Answer
  | .fetch r => do return .video (← fetch table r)
  | .save r => do return .saved (← save table r)
  | .fetchStream r => do
    relay table r write
    return .streamed
  | .doCommand r => do return .result (← doCommand table r)

/-- Writes a chunk in a response to the request with an id. -/
def writeChunk (write : Wire.FetchStreamResponse → Act σ Unit) (requestId : String)
    (chunk : Bytes) : Act σ Unit := do
  let response : Wire.FetchStreamResponse := { video := chunk, requestId }
  write response
  Act.note (.written response)

end Service

/-- What a store makes of a request that it is called for. -/
def Store.respond (s : Store σ) (write : Wire.FetchStreamResponse → Act σ Unit) :
    Request → Act σ Service.Answer
  | .fetch r => do
    return .video { video := ← s.fetch r.start r.stop r.container, requestId := r.requestId }
  | .save r => do
    let filename ← s.save r.start r.stop r.container r.metadata r.background
    return .saved { filename, requestId := r.requestId }
  | .fetchStream r => do
    (← s.fetchStream r.start r.stop r.container).forEach (Service.writeChunk write r.requestId)
    return .streamed
  | .doCommand r => do
    let command ← Act.ofExcept ((r.command.getD {}).toRecord.mapError Fault.conversion)
    let result ← s.doCommand command
    if result.isEmpty then return .result {}
    let answer ← Act.ofExcept ((Value.toStruct result).mapError Fault.conversion)
    return .result { result := some answer }

/-- Taking items that something is made of is taking the items themselves. -/
theorem Feed.fold_map_pure (f : α → β) (feed : Feed σ α) (step : γ → β → Act σ γ) (c : γ) :
    (feed.map fun a => return f a).fold step c = feed.fold (fun c a => step c (f a)) c := by
  have go (items : List (Act σ α)) (taken : Nat) (c : γ) :
      (feed.map fun a => return f a).foldFrom step taken c
          (items.map fun next => do return f (← next)) =
        feed.foldFrom (fun c a => step c (f a)) taken c items := by
    induction items generalizing taken c with
    | nil => rfl
    | cons next rest ih =>
      simp only [List.map_cons, Feed.foldFrom, bind_assoc, pure_bind, ih]
      rfl
  exact go feed.items 0 c

/-- A watched store that is called notes the call and responds as the store itself does.  It is not
called for a command that does not convert. -/
theorem Store.respond_watched (key : String) (s : Store σ)
    (write : Wire.FetchStreamResponse → Act σ Unit) (r : Request) :
    (s.watched key).respond write r = (do
      let call ← Act.ofExcept r.call
      Act.note (.noted key call)
      s.respond write r) := by
  cases r with
  | fetch r => rfl
  | save r => rfl
  | fetchStream r => rfl
  | doCommand r =>
    simp only [respond, watched, Request.call]
    cases (r.command.getD {}).toRecord.mapError Fault.conversion <;> rfl

namespace Service

variable {table : Store.Table σ} {write : Wire.FetchStreamResponse → Act σ Unit}

/-- Whatever the request is for: it is logged, the store is looked up, and the store responds. -/
theorem answer_eq (table : Store.Table σ) (write : Wire.FetchStreamResponse → Act σ Unit)
    (r : Request) :
    answer table write r = (do
      Act.note r.receipt
      (← resolve table r.name).respond write r) := by
  cases r with
  | fetch r => simp only [answer, fetch, bind_assoc, pure_bind]; rfl
  | save r => simp only [answer, save, bind_assoc, pure_bind]; rfl
  | fetchStream r =>
    simp only [answer, relay, fetchStream, bind_assoc, pure_bind, Feed.forEach, Feed.fold_map_pure]
    rfl
  | doCommand r =>
    simp only [answer, doCommand, bind_assoc]
    refine congrArg _ (funext fun _ => congrArg _ (funext fun s => congrArg _ (funext fun c => ?_)))
    refine congrArg _ (funext fun result => ?_)
    cases result.isEmpty with
    | true => rfl
    | false => simp only [Bool.false_eq_true, if_false, bind_assoc, pure_bind]

variable {s : Store σ} {r : Request} {w w' : World σ}

/-! ### One request -/

/-- A request whose name is not in the table is aborted, and nothing happens but that it is
logged. -/
theorem run_answer_missing (h : table.lookup r.name = none) :
    (answer table.watched write r).run w =
      .error (.aborted .notFound ("No videostore resource named " ++ Text.quote r.name ++ "."))
        (w.grow [r.receipt]) := by
  rw [answer_eq, EStateM.run_bind, Act.run_note]
  simp only [resolve, Store.Table.lookup_watched, h]
  rfl

/-- A request that asks for no call leads to none. -/
theorem run_answer_refused (h : table.lookup r.name = some s) {e : Fault} (hc : r.call = .error e) :
    (answer table.watched write r).run w = .error e (w.grow [r.receipt]) := by
  rw [answer_eq, EStateM.run_bind, Act.run_note]
  simp only [resolve, Store.Table.lookup_watched, h, Option.map_some, pure_bind,
    Store.respond_watched, hc]
  rfl

/-- A request leads to the call that it asks for, on the store under its name. -/
theorem run_answer_called (h : table.lookup r.name = some s) {call : Note}
    (hc : r.call = .ok call) :
    (answer table.watched write r).run w =
      (s.respond write r).run (w.grow [r.receipt, .noted r.name call]) := by
  rw [answer_eq, EStateM.run_bind, Act.run_note]
  simp only [resolve, Store.Table.lookup_watched, h, Option.map_some, pure_bind,
    Store.respond_watched, hc, EStateM.run_bind, Act.run_ofExcept_ok, Act.run_note,
    World.grow_grow]
  rfl

/-- A store that is called answers with what fits the request. -/
theorem fits_of_run_respond {answer : Answer}
    (h : (s.respond write r).run w = .ok answer w') : answer.Fits r := by
  cases r with
  | fetch r =>
    obtain ⟨video, w₁, -, h⟩ := Act.exists_of_run_bind_ok h
    cases h
    rfl
  | save r =>
    obtain ⟨filename, w₁, -, h⟩ := Act.exists_of_run_bind_ok h
    cases h
    rfl
  | fetchStream r =>
    obtain ⟨feed, w₁, -, h⟩ := Act.exists_of_run_bind_ok h
    obtain ⟨_, w₂, -, h⟩ := Act.exists_of_run_bind_ok h
    cases h
    trivial
  | doCommand r =>
    obtain ⟨command, w₁, -, h⟩ := Act.exists_of_run_bind_ok h
    obtain ⟨result, w₂, -, h⟩ := Act.exists_of_run_bind_ok h
    split at h
    · cases h
      trivial
    · obtain ⟨_, w₃, -, h⟩ := Act.exists_of_run_bind_ok h
      cases h
      trivial

end Service

/-! ### What is noted while a store responds -/

namespace Event

/-- The event is neither the call of a store nor a response that a servicer wrote. -/
def IsAside : Event → Prop
  | noted _ _ | written _ => False
  | _ => True

/-- The event is no call of a store, and if it is a response that was written, then one to the
request. -/
def Echoes (r : Request) : Event → Prop
  | noted _ _ => False
  | written response => some response.requestId = r.id?
  | _ => True

theorem IsAside.echoes {e : Event} (h : e.IsAside) (r : Request) : e.Echoes r := by
  cases e with
  | noted key note => exact h.elim
  | written response => exact h.elim
  | _ => trivial

/-- Whether the event is the call of a store. -/
def isNoted : Event → Bool
  | noted _ _ => true
  | _ => false

theorem Echoes.isNoted_eq {e : Event} {r : Request} (h : e.Echoes r) : e.isNoted = false := by
  cases e with
  | noted key note => exact h.elim
  | _ => rfl

end Event

/-- What the store itself notes is neither the call of a store nor a response. -/
abbrev Store.Quiet (s : Store σ) : Prop := s.Respects (World.Adds Event.IsAside)

namespace Service

variable {s : Store σ} {r : Request} {write : Wire.FetchStreamResponse → Act σ Unit}

/-- While a store responds to a request no store is called, and each response is to this
request. -/
theorem respond_echoes (quiet : s.Quiet)
    (quietly : ∀ response, (write response).Respects (World.Adds Event.IsAside)) :
    (s.respond write r).Respects (World.Adds (·.Echoes r)) := by
  have aside {γ : Type} {x : Act σ γ} (h : x.Respects (World.Adds Event.IsAside)) :
      x.Respects (World.Adds (·.Echoes r)) :=
    h.mono fun _ _ adds => adds.mono fun e he => he.echoes r
  cases r with
  | fetch r => exact (aside (quiet.fetch _ _ _)).bind fun _ => Act.respects_pure _
  | save r => exact (aside (quiet.save _ _ _ _ _)).bind fun _ => Act.respects_pure _
  | fetchStream r =>
    intro w
    refine (aside (quiet.fetchStream _ _ _)).bind_run fun feed w₁ opened => ?_
    have produced := quiet.feed _ _ _ _ _ _ opened
    refine Act.Respects.bind (Feed.respects_fold ?_ (fun _ chunk => ?_) ()) (fun _ =>
      Act.respects_pure _) w₁
    · exact ⟨fun next hn => aside (produced.items next hn), aside produced.finish,
        fun taken e => aside (produced.abandon taken e)⟩
    · refine (aside (quietly _)).bind fun _ => ?_
      exact Act.adds_note rfl
  | doCommand r =>
    refine (Act.respects_ofExcept _).bind fun command => ?_
    refine (aside (quiet.doCommand _)).bind fun result => ?_
    split
    · exact Act.respects_pure _
    · exact (Act.respects_ofExcept _).bind fun _ => Act.respects_pure _

/-! ### Requests and changes -/

/-- What comes next for a service. -/
inductive Turn (σ : Type) where
  | request (r : Request)
  /-- The surroundings change, and with them the table. -/
  | change (f : σ → σ)

/-- Goes through requests, with the outcome of each.  Every request is answered from the table that
there is when it comes. -/
def serve (look : σ → Store.Table σ) (write : Wire.FetchStreamResponse → Act σ Unit) :
    List (Turn σ) → Act σ (List (Except Fault Answer))
  | [] => return []
  | .change f :: rest => do
    Act.setState (f (← Act.state))
    serve look write rest
  | .request r :: rest => do
    let outcome ← Act.attempt (answer (look (← Act.state)) write r)
    return outcome :: (← serve look write rest)

/-- Requests and changes lead from one world to another one, with these outcomes and these calls of
stores. -/
inductive Dispatched (look : σ → Store.Table σ) (write : Wire.FetchStreamResponse → Act σ Unit) :
    List (Turn σ) → World σ → List (Except Fault Answer) → List Event → World σ → Prop where
  | done {w : World σ} : Dispatched look write [] w [] [] w
  | changed {f : σ → σ} {turns : List (Turn σ)} {w w' : World σ}
      {outcomes : List (Except Fault Answer)} {calls : List Event} :
      Dispatched look write turns { w with state := f w.state } outcomes calls w' →
      Dispatched look write (.change f :: turns) w outcomes calls w'
  /-- No store is under the name, so none is called. -/
  | missing {r : Request} {turns : List (Turn σ)} {w w' : World σ}
      {outcomes : List (Except Fault Answer)} {calls : List Event} :
      (look w.state).lookup r.name = none →
      Dispatched look write turns (w.grow [r.receipt]) outcomes calls w' →
      Dispatched look write (.request r :: turns) w
        (.error (.aborted .notFound
          ("No videostore resource named " ++ Text.quote r.name ++ ".")) :: outcomes) calls w'
  /-- The command does not convert, so there is nothing to call the store with. -/
  | refused {r : Request} {turns : List (Turn σ)} {s : Store σ} {e : Fault} {w w' : World σ}
      {outcomes : List (Except Fault Answer)} {calls : List Event} :
      (look w.state).lookup r.name = some s → r.call = .error e →
      Dispatched look write turns (w.grow [r.receipt]) outcomes calls w' →
      Dispatched look write (.request r :: turns) w (.error e :: outcomes) calls w'
  /-- The store under the name is called once, and what it makes of the request is the outcome. -/
  | called {r : Request} {turns : List (Turn σ)} {s : Store σ} {call : Note}
      {outcome : Except Fault Answer} {w w₁ w' : World σ}
      {outcomes : List (Except Fault Answer)} {calls : List Event} :
      (look w.state).lookup r.name = some s → r.call = .ok call →
      (Act.attempt (s.respond write r)).run (w.grow [r.receipt, .noted r.name call]) =
        .ok outcome w₁ →
      (w.grow [r.receipt, .noted r.name call]).Adds (·.Echoes r) w₁ →
      (∀ answer, outcome = .ok answer → answer.Fits r) →
      Dispatched look write turns w₁ outcomes calls w' →
      Dispatched look write (.request r :: turns) w (outcome :: outcomes)
        (.noted r.name call :: calls) w'

variable {look : σ → Store.Table σ} {turns : List (Turn σ)} {w w₁ w' : World σ}
  {outcome : Except Fault Answer} {outcomes : List (Except Fault Answer)}

theorem run_serve_request (h : (Act.attempt (answer (look w.state) write r)).run w = .ok outcome w₁)
    (rest : (serve look write turns).run w₁ = .ok outcomes w') :
    (serve look write (.request r :: turns)).run w = .ok (outcome :: outcomes) w' := by
  simp only [serve, EStateM.run_bind, Act.run_state, h, rest]
  rfl

theorem shows_received (r : Request) (w : World σ) :
    w.Shows Event.isNoted [] (w.grow [r.receipt]) := by
  cases r <;> exact w.shows_grow _ 0

theorem shows_called (r : Request) (call : Note) (w : World σ) :
    w.Shows Event.isNoted [.noted r.name call] (w.grow [r.receipt, .noted r.name call]) := by
  cases r <;> exact w.shows_grow _ 0

theorem shows_of_echoes (h : w.Adds (·.Echoes r) w') : w.Shows Event.isNoted [] w' :=
  World.shows_nil_of_adds (h.mono fun _ he => he.isNoted_eq)

/-- A store responds in some way, and leaves the calls to the service. -/
theorem exists_attempt_respond (quiet : s.Quiet)
    (quietly : ∀ response, (write response).Respects (World.Adds Event.IsAside)) (r : Request)
    (w : World σ) :
    ∃ outcome w₁, (Act.attempt (s.respond write r)).run w = .ok outcome w₁ ∧
      w.Adds (·.Echoes r) w₁ ∧ ∀ answer, outcome = .ok answer → answer.Fits r := by
  have echoes := respond_echoes (r := r) quiet quietly w
  rw [Act.run_attempt]
  cases responded : (s.respond write r).run w with
  | ok answer w₁ =>
    rw [Act.after_of_ok responded] at echoes
    refine ⟨_, w₁, rfl, echoes, ?_⟩
    rintro _ ⟨⟩
    exact fits_of_run_respond responded
  | error e w₁ =>
    rw [Act.after_of_error responded] at echoes
    exact ⟨_, w₁, rfl, echoes, fun _ h => by cases h⟩

/-- **Dispatch is exact.**  Whatever requests come, and however the table changes in between or
while a store responds: a request whose name is in the table when it comes leads to just one call,
the one that it asks for with its own values, on the store under that name, and what this store
makes of it, a fault included, is the outcome; every answer and every response of a stream has the
id of its request.  A request whose name is not in the table is aborted and leads to no call. -/
theorem serve_dispatches (look : σ → Store.Table σ)
    (write : Wire.FetchStreamResponse → Act σ Unit)
    (quiet : ∀ t, ∀ entry ∈ look t, entry.2.Quiet)
    (quietly : ∀ response, (write response).Respects (World.Adds Event.IsAside))
    (turns : List (Turn σ)) (w : World σ) :
    ∃ outcomes calls w',
      (serve (fun t => (look t).watched) write turns).run w = .ok outcomes w' ∧
      Dispatched look write turns w outcomes calls w' ∧ w.Shows Event.isNoted calls w' := by
  -- On the turns; the table is read again from the world that the turns before have left.
  induction turns generalizing w with
  | nil => exact ⟨[], [], w, rfl, .done, [], by simp, rfl⟩
  | cons turn rest ih =>
    cases turn with
    | change f =>
      obtain ⟨outcomes, calls, w', run, dispatched, told⟩ := ih { w with state := f w.state }
      exact ⟨outcomes, calls, w', run, .changed dispatched, told⟩
    | request r =>
      cases found : (look w.state).lookup r.name with
      | none =>
        obtain ⟨outcomes, calls, w', run, dispatched, told⟩ := ih (w.grow [r.receipt])
        refine ⟨_, calls, w', run_serve_request ?_ run, .missing found dispatched,
          (shows_received r w).trans told⟩
        rw [Act.run_attempt, run_answer_missing found]
      | some s =>
        cases asked : r.call with
        | error e =>
          obtain ⟨outcomes, calls, w', run, dispatched, told⟩ := ih (w.grow [r.receipt])
          refine ⟨_, calls, w', run_serve_request ?_ run, .refused found asked dispatched,
            (shows_received r w).trans told⟩
          rw [Act.run_attempt, run_answer_refused found asked]
        | ok call =>
          obtain ⟨before, after, here, -⟩ := List.lookup_eq_some_iff.1 found
          have silent : s.Quiet := quiet w.state (r.name, s) (by simp [here])
          obtain ⟨outcome, w₁, attempted, echoed, fits⟩ :=
            exists_attempt_respond silent quietly r (w.grow [r.receipt, .noted r.name call])
          obtain ⟨outcomes, calls, w', run, dispatched, told⟩ := ih w₁
          refine ⟨_, _, w', run_serve_request ?_ run,
            .called found asked attempted echoed fits dispatched,
            ((shows_called r call w).trans (shows_of_echoes echoed)).trans told⟩
          rw [Act.run_attempt, run_answer_called found asked, ← Act.run_attempt, attempted]

/-! ### An instance -/

/-- A store with one video, which it does not save. -/
def still (video : Bytes) : Store σ where
  fetch _ _ _ := return video
  save _ _ _ _ _ := throw (.foreign .key "disk")
  fetchStream _ _ _ := return { items := [return video], finish := pure (), abandon _ _ := pure () }
  doCommand entries := return entries

/-- The table of such stores by their names. -/
def stills (videos : List (String × Bytes)) : Store.Table (List (String × Bytes)) :=
  videos.map fun entry => (entry.1, still entry.2)

/-- The store under a name is asked for its video and for saving it, is taken away, asked again,
and replaced. -/
def sampleTurns : List (Turn (List (String × Bytes))) :=
  [.request (.fetch { name := "vs-1", start := "a", stop := "b", requestId := "1" }),
    .request (.save { name := "vs-1", start := "a", stop := "b", requestId := "2" }),
    .change (fun _ => []),
    .request (.fetch { name := "vs-1", start := "a", stop := "b", requestId := "3" }),
    .change (fun videos => ("vs-1", [2]) :: videos),
    .request (.fetchStream { name := "vs-1", start := "a", stop := "c", requestId := "4" })]

theorem quiet_still (video : Bytes) : (still video : Store σ).Quiet where
  fetch _ _ _ := Act.respects_pure _
  save _ _ _ _ _ := Act.respects_throw _
  fetchStream _ _ _ := Act.respects_pure _
  feed := by
    rintro _ _ _ w feed w' ⟨⟩
    refine ⟨fun next hn => ?_, Act.respects_pure _, fun _ _ => Act.respects_pure _⟩
    obtain rfl := List.mem_singleton.1 hn
    exact Act.respects_pure _
  doCommand _ := Act.respects_pure _

/-- Three of the four requests lead to a call; the fault of the second one stays what it was. -/
theorem serve_dispatches_sample :
    ∃ outcomes calls w',
      (serve (fun t => (stills t).watched) (fun _ => pure ()) sampleTurns).run
        (.fresh [("vs-1", [1])]) = .ok outcomes w' ∧
      Dispatched stills (fun _ => pure ()) sampleTurns (.fresh [("vs-1", [1])]) outcomes calls w' ∧
      outcomes[1]? = some (.error (.foreign .key "disk")) ∧
      calls = [.noted "vs-1" (.fetch "a" "b" ""), .noted "vs-1" (.save "a" "b" "" "" false),
        .noted "vs-1" (.fetchStream "a" "c" "")] := by
  have quiet : ∀ t, ∀ entry ∈ stills t, entry.2.Quiet := by
    intro t entry he
    obtain ⟨video, -, rfl⟩ := List.mem_map.1 he
    exact quiet_still _
  obtain ⟨outcomes, calls, w', run, dispatched, events, hj, rfl⟩ :=
    serve_dispatches stills (fun _ => pure ()) quiet (fun _ => Act.respects_pure ()) sampleTurns
      (.fresh [("vs-1", [1])])
  refine ⟨outcomes, _, w', run, dispatched, ?_⟩
  cases run
  rw [World.fresh, List.nil_append] at hj
  cases hj
  exact ⟨rfl, rfl⟩

end Service

end Footage
