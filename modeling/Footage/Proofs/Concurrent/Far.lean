import Footage.Proofs.Concurrent.Call

/-!
# What the serving side still sends

Once a request has been dispatched, the table plays no part any more: the steps of the serving side
are those of the store that was found.  If this store keeps to a part of the world
(`Far.Serving`), then all that is still to come is settled by this part
(`Far.Brings`, `Far.Brings.congr`), whoever else takes steps in between.
-/

namespace Footage

variable {σ κ : Type}

/-- All that the request holds is short enough for the wire, and nothing in it is unknown. -/
def Request.Fits : Request → Prop
  | fetch r => Wire.Message.Fits r ∧ r.unknown = []
  | save r => Wire.Message.Fits r ∧ r.unknown = []
  | fetchStream r => Wire.Message.Fits r ∧ r.unknown = []
  | doCommand r => Wire.Message.Fits r ∧ r.unknown = []

/-- A request that fits arrives as it was sent. -/
theorem Request.run_carry {r : Request} (h : r.Fits) (w : World σ) :
    (r.carry).run w = .ok r w := by
  cases r with
  | fetch r =>
    rw [carry, EStateM.run_bind,
      Channel.run_carry (Wire.MessageType.lawful .fetchRequest) h.1 h.2]
    rfl
  | save r =>
    rw [carry, EStateM.run_bind, Channel.run_carry (Wire.MessageType.lawful .saveRequest) h.1 h.2]
    rfl
  | fetchStream r =>
    rw [carry, EStateM.run_bind,
      Channel.run_carry (Wire.MessageType.lawful .fetchStreamRequest) h.1 h.2]
    rfl
  | doCommand r =>
    rw [carry, EStateM.run_bind,
      Channel.run_carry (Wire.MessageType.lawful .doCommandRequest) h.1 h.2]
    rfl

/-- All that the store does for a call is within a part of the world. -/
structure Store.Within (p : Part σ κ) (s : Store σ) : Prop where
  fetch : ∀ start stop container, (s.fetch start stop container).Within p
  save : ∀ start stop container metadata background,
    (s.save start stop container metadata background).Within p
  fetchStream : ∀ start stop container, (s.fetchStream start stop container).Within p
  feed : ∀ start stop container w feed w',
    (s.fetchStream start stop container).run w = .ok feed w' → feed.Within p

/-- All stores that can be found in the table keep to a part of the world. -/
def Store.Table.Within (p : Part σ κ) (table : Store.Table σ) : Prop :=
  ∀ key s, table.lookup key = some s → s.Within p

namespace Concurrent.Far

/-- The request has been dispatched, and all that is left to do is within a part of the world. -/
def Serving (p : Part σ κ) : Far σ → Prop
  | absent | called _ => False
  | resolved _ s => s.Within p
  | streaming _ feed _ rest | holding _ _ feed _ rest =>
    feed.Within p ∧ ∀ next ∈ rest, next.Within p
  | closed => True

variable {p : Part σ κ} {table table' : Store.Table σ} {far far' : Far σ} {w w' : World σ}
  {sent : List Message}

/-- The table is looked at for a dispatch only. -/
theorem advance_eq (h : far.Serving p) (table table' : Store.Table σ) :
    far.advance table = far.advance table' := by
  cases far with
  | absent => exact h.elim
  | called r => exact h.elim
  | resolved r s => rfl
  | streaming requestId feed taken rest => cases rest <;> rfl
  | holding chunk requestId feed taken rest => rfl
  | closed => rfl

theorem run_next (table : Store.Table σ) (far : Far σ) (w : World σ) :
    (far.next table).run w =
      match (far.advance table).run w with
      | .ok r w => .ok r w
      | .error e w => .ok (closed, [.failed e.atCaller]) w := by
  rw [next, Act.run_tryCatch]
  cases (far.advance table).run w <;> rfl

theorem Serving.within_advance (h : far.Serving p) : (far.advance table).Within p := by
  cases far with
  | absent => exact h.elim
  | called r => exact h.elim
  | resolved r s =>
    cases r with
    | fetch r => exact (h.fetch _ _ _).bind fun _ => Act.within_pure _
    | save r => exact (h.save _ _ _ _ _).bind fun _ => Act.within_pure _
    | fetchStream r => exact (h.fetchStream _ _ _).bind fun _ => Act.within_pure _
    | doCommand r => exact Act.within_pure _
  | streaming requestId feed taken rest =>
    cases rest with
    | nil => exact h.1.finish.bind fun _ => Act.within_pure _
    | cons next rest => exact (h.2 next List.mem_cons_self).bind fun _ => Act.within_pure _
  | holding chunk requestId feed taken rest => exact Act.within_pure _
  | closed => exact Act.within_pure _

theorem Serving.within_next (h : far.Serving p) : (far.next table).Within p :=
  h.within_advance.tryCatch fun _ => Act.within_pure _

/-- The id of the request that is being answered. -/
def id? : Far σ → Option String
  | resolved r _ => r.id?
  | streaming requestId .. | holding _ requestId .. => some requestId
  | _ => none

/-- What a step after the dispatch may send and where it may lead. -/
inductive Turns : Far σ → List Message → Far σ → Prop where
  /-- The call is answered, or has failed. -/
  | closed {far : Far σ} {sent : List Message} :
      (∀ m ∈ sent, m.id? = none ∨ m.id? = far.id?) → Turns far sent closed
  | opened {r : Wire.FetchStreamRequest} {s : Store σ} {feed : Feed σ Bytes} {w w' : World σ} :
      (s.fetchStream r.start r.stop r.container).run w = .ok feed w' →
      Turns (resolved (.fetchStream r) s) [] (streaming r.requestId feed 0 feed.items)
  | produced {requestId : String} {feed : Feed σ Bytes} {taken : Nat} {next : Act σ Bytes}
      {rest : List (Act σ Bytes)} {chunk : Bytes} :
      Turns (streaming requestId feed taken (next :: rest)) []
        (holding chunk requestId feed (taken + 1) rest)
  | written {requestId : String} {feed : Feed σ Bytes} {taken : Nat} {rest : List (Act σ Bytes)}
      {chunk : Bytes} :
      Turns (holding chunk requestId feed taken rest) [.chunk { video := chunk, requestId }]
        (streaming requestId feed taken rest)

/-- A step always comes to something, and this is one of the turns. -/
theorem Serving.exists_turns (h : far.Serving p) (table : Store.Table σ) (w : World σ) :
    ∃ sent far' w', (far.next table).run w = .ok (far', sent) w' ∧ Turns far sent far' := by
  cases advanced : (far.advance table).run w with
  | error e w' =>
    exact ⟨_, _, w', by rw [run_next, advanced], .closed (by simp [Message.id?])⟩
  | ok r w' =>
    refine ⟨r.2, r.1, w', by rw [run_next, advanced], ?_⟩
    cases far with
    | absent => exact h.elim
    | called r => exact h.elim
    | resolved r s =>
      cases r with
      | fetch r =>
        obtain ⟨_, _, -, ended⟩ := Act.exists_of_run_bind_ok advanced
        cases ended
        exact .closed (by simp [Message.id?, id?, Request.id?])
      | save r =>
        obtain ⟨_, _, -, ended⟩ := Act.exists_of_run_bind_ok advanced
        cases ended
        exact .closed (by simp [Message.id?, id?, Request.id?])
      | fetchStream r =>
        obtain ⟨_, _, opened, ended⟩ := Act.exists_of_run_bind_ok advanced
        cases ended
        exact .opened opened
      | doCommand r =>
        cases advanced
        exact .closed (by simp)
    | streaming requestId feed taken rest =>
      cases rest with
      | nil =>
        obtain ⟨_, _, -, ended⟩ := Act.exists_of_run_bind_ok advanced
        cases ended
        exact .closed (by simp [Message.id?])
      | cons next rest =>
        obtain ⟨_, _, -, ended⟩ := Act.exists_of_run_bind_ok advanced
        cases ended
        exact .produced
    | holding chunk requestId feed taken rest =>
      cases advanced
      exact .written
    | closed =>
      cases advanced
      exact .closed (by simp)

theorem Serving.turns (h : far.Serving p) (run : (far.next table).run w = .ok (far', sent) w') :
    Turns far sent far' := by
  obtain ⟨_, _, _, run', turns⟩ := h.exists_turns table w
  rw [run] at run'
  cases run'
  exact turns

/-- A step leaves nothing to do that goes beyond the part. -/
theorem Serving.next (h : far.Serving p) (run : (far.next table).run w = .ok (far', sent) w') :
    far'.Serving p := by
  cases h.turns run with
  | closed => trivial
  | opened opened =>
    have within := Store.Within.feed h _ _ _ _ _ _ opened
    exact ⟨within, within.items⟩
  | produced => exact ⟨h.1, fun next hn => h.2 next (List.mem_cons_of_mem _ hn)⟩
  | written => exact h

/-- All that is sent for a request has its id. -/
theorem Turns.id (h : Turns far sent far') :
    (far'.id? = none ∨ far'.id? = far.id?) ∧ ∀ m ∈ sent, m.id? = none ∨ m.id? = far.id? := by
  cases h with
  | closed sent => exact ⟨.inl rfl, sent⟩
  | opened => exact ⟨.inr rfl, by simp⟩
  | produced => exact ⟨.inr rfl, by simp⟩
  | written => exact ⟨.inr rfl, by simp [Message.id?, id?]⟩

/-- A dispatch, of a request that arrives as something, which is the request itself if that fits. -/
theorem exists_id_of_dispatch {r : Request}
    (run : ((called r).next table).run w = .ok (far', sent) w') :
    ∃ id, (r.Fits → id = r.id?) ∧ (far'.id? = none ∨ far'.id? = id) ∧
      ∀ m ∈ sent, m.id? = none ∨ m.id? = id := by
  rw [run_next, advance, EStateM.run_bind] at run
  cases carried : (r.carry).run w with
  | error e w₁ =>
    rw [carried] at run
    cases run
    exact ⟨r.id?, fun _ => rfl, .inl rfl, by simp [Message.id?]⟩
  | ok r' w₁ =>
    refine ⟨r'.id?, fun fits => ?_, ?_⟩
    · rw [Request.run_carry fits] at carried
      cases carried
      rfl
    · rw [carried] at run
      simp only [EStateM.run_bind, Act.run_note, Service.resolve] at run
      cases found : table.lookup r'.name with
      | none =>
        simp only [found, Act.run_throw] at run
        cases run
        exact ⟨.inl rfl, by simp [Message.id?]⟩
      | some s =>
        simp only [found, EStateM.run_pure] at run
        cases run
        exact ⟨.inr rfl, by simp⟩

/-- From a world, the serving side sends these messages in order until it is through. -/
inductive Brings : Far σ → World σ → List Message → Prop where
  | closed {w : World σ} : Brings closed w []
  | step {far far' : Far σ} {w w' : World σ} {sent later : List Message} :
      (far.next []).run w = .ok (far', sent) w' → Brings far' w' later →
      Brings far w (sent ++ later)

/-- The next step sends some of the messages and leaves the others to come. -/
theorem Brings.next {messages : List Message} (h : Brings far w messages)
    (serving : far.Serving p) :
    ∃ far' sent later w', (far.next []).run w = .ok (far', sent) w' ∧ Turns far sent far' ∧
      far'.Serving p ∧ Brings far' w' later ∧ messages = sent ++ later := by
  cases h with
  | closed => exact ⟨.closed, [], [], w, rfl, .closed (by simp), trivial, .closed, rfl⟩
  | step run rest =>
    exact ⟨_, _, _, _, run, serving.turns run, serving.next run, rest, rfl⟩

/-- What is still to come is settled by the part of the world. -/
theorem Brings.congr {v : World σ} {messages : List Message} (h : Brings far v messages)
    (serving : far.Serving p) (same : p.get v = p.get w) : Brings far w messages := by
  induction h generalizing w with
  | closed => exact .closed
  | step run _ ih =>
    obtain ⟨k, rfl, run'⟩ := serving.within_next.of_ok same run
    exact .step run' (ih (serving.next run) (by simp))

/-- The serving side comes to an end. -/
theorem exists_brings (serving : far.Serving p) (w : World σ) :
    ∃ messages, Brings far w messages := by
  have going {far : Far σ} (serving : far.Serving p) (w : World σ)
      (after : ∀ sent far' w', far'.Serving p → Turns far sent far' →
        ∃ messages, Brings far' w' messages) : ∃ messages, Brings far w messages := by
    obtain ⟨sent, far', w', run, turns⟩ := serving.exists_turns [] w
    obtain ⟨later, rest⟩ := after sent far' w' (serving.next run) turns
    exact ⟨sent ++ later, .step run rest⟩
  -- A stream goes through its chunks, each of which is produced and then written.
  have streams (requestId : String) (feed : Feed σ Bytes) (rest : List (Act σ Bytes)) (taken : Nat)
      (w : World σ) (serving : (streaming requestId feed taken rest).Serving p) :
      ∃ messages, Brings (streaming requestId feed taken rest) w messages := by
    induction rest generalizing taken w with
    | nil =>
      refine going serving w fun _ _ _ _ turns => ?_
      cases turns
      exact ⟨_, .closed⟩
    | cons next rest ih =>
      refine going serving w fun _ _ w₁ serving turns => ?_
      cases turns with
      | closed => exact ⟨_, .closed⟩
      | produced =>
        refine going serving w₁ fun _ _ w₂ serving turns => ?_
        cases turns with
        | closed => exact ⟨_, .closed⟩
        | written => exact ih _ w₂ serving
  cases far with
  | absent => exact serving.elim
  | called r => exact serving.elim
  | resolved r s =>
    refine going serving w fun _ _ w₁ serving turns => ?_
    cases turns with
    | closed => exact ⟨_, .closed⟩
    | opened => exact streams _ _ _ _ w₁ serving
  | streaming requestId feed taken rest => exact streams _ _ _ _ w serving
  | holding chunk requestId feed taken rest =>
    refine going serving w fun _ _ w₁ serving turns => ?_
    cases turns with
    | closed => exact ⟨_, .closed⟩
    | written => exact streams _ _ _ _ w₁ serving
  | closed => exact ⟨_, .closed⟩

end Concurrent.Far

end Footage
