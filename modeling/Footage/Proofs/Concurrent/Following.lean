import Footage.Proofs.Concurrent.Alone
import Footage.Proofs.Concurrent.System

/-!
# A call among others follows the call run alone

A call that has been dispatched *follows* an outcome (`Call.Follows`): what it has noted so far is,
but for the hook, the journal of a world from which its two sides come to this outcome.  No step of
the call changes the outcome that it follows (`Call.Follows.caller`, `Call.Follows.server`,
`Call.Follows.stop`), and with the dispatch it begins to follow the outcome of the call run alone
with the table of that moment (`Call.follows_dispatched`).
-/

namespace Footage.Concurrent

variable {σ φ ν : Type}

/-- From a world an act comes to a call, with the state that belongs to it, noting some events. -/
def Call.Leads (x : Act σ (Call σ)) (w : World σ) (P : Call σ → List Event → Prop) : Prop :=
  ∃ call w' events, x.run w = .ok call w' ∧ w'.journal = w.journal ++ events ∧
    P { call with state := w'.state } events

/-- A step that leads a call somewhere does so in a system. -/
theorem System.absorb_leads {ι : Type} [DecidableEq ι] {s : System ι σ} {i : ι}
    {x : Act σ (Call σ)} {P : Call σ → List Event → Prop} (h : Call.Leads x (s.world i) P) :
    ∃ events, P ((s.absorb i (x.run (s.world i))).calls i) events ∧
      (s.absorb i (x.run (s.world i))).own i = s.own i ++ events := by
  obtain ⟨call, w', events, run, noted, property⟩ := h
  rw [run, absorb_ok noted]
  refine ⟨events, ?_, ?_⟩
  · show P (Function.update s.calls i _ i) events
    rw [Function.update_self]
    exact property
  · have appended := own_append s i events i
    rw [if_pos rfl] at appended
    exact appended

namespace Call

variable {c : Client (φ × ν)} {asked : Asked (φ × ν)} {id : Option String}
  {outcome : Except Fault Client.Result} {last w : World (φ × ν)} {call : Call (φ × ν)}
  {own : List Event}

/-- What is on its way, and what is still sent, answers a request with an id. -/
structure Echoes (id : Option String) (call : Call σ) : Prop where
  far : call.far.id? = none ∨ call.far.id? = id
  inbox : ∀ m ∈ call.inbox, m.id? = none ∨ m.id? = id

/-- The call has been dispatched, and what it has noted is, but for the hook, the journal of a world
from which its two sides come to an outcome and to what a world keeps for the caller. -/
structure Follows (c : Client (φ × ν)) (asked : Asked (φ × ν)) (id : Option String)
    (outcome : Except Fault Client.Result) (last : World (φ × ν)) (call : Call (φ × ν))
    (own : List Event) : Prop where
  rest : call.near.Within Part.near
  echoes : call.Echoes id
  plain : ∃ v, v.state = call.state ∧ Client.Annotated c c.Raised v.journal own ∧
    ComesTo (c.withHook none) asked call.near call.far call.inbox v outcome last

/-! ### Single steps -/

/-- A step of the serving side is the same among other calls, and notes nothing. -/
theorem leads_server {far : Far (φ × ν)} {sent : List Message} {v v' : World (φ × ν)}
    (serving : call.far.Serving Part.far) (run : (call.far.next []).run v = .ok (far, sent) v')
    (same : v.state.1 = call.state.1) (state : w.state = call.state)
    (table : Store.Table (φ × ν)) :
    ∃ k, v' = Part.far.put k v ∧ Leads (call.server table) w fun call' events =>
      call' = { call with far, inbox := call.inbox ++ sent, state := (k, call.state.2) } ∧
        events = [] := by
  have met : Part.far.get v = Part.far.get w := by rw [Part.far_get, Part.far_get, same, state]
  obtain ⟨k, rfl, run'⟩ := serving.within_next.of_ok met run
  rw [Far.next, Far.advance_eq serving [] table] at run'
  refine ⟨k, rfl, { call with far, inbox := call.inbox ++ sent }, Part.far.put k w, [], ?_,
    by simp, ?_, rfl⟩
  · rw [Call.server, EStateM.run_bind, Far.next, run']
    rfl
  · have ended : (Part.far.put k w).state = (k, call.state.2) := by rw [← state]; rfl
    rw [ended]

/-- A step of the caller's side is the one without the hook, but for what the hook adds. -/
theorem leads_near (call : Call (φ × ν)) (hook : c.options.HasOrdinaryHook)
    {x : Client (φ × ν) → Act (φ × ν) (Near (φ × ν))}
    (agrees : ∀ {c' R}, Near.Keeps c' c Part.near R →
      Act.Agree R (Near.Same Part.near) (x c') (x c))
    {near : Near (φ × ν)} {v v₁ : World (φ × ν)}
    (run : (x (c.withHook none)).run v = .ok near v₁) (same : v.state.2 = call.state.2)
    (state : w.state = call.state) (inbox : List Message) :
    near.Within Part.near ∧ v₁.state.1 = v.state.1 ∧
      ∃ plain full, v₁.journal = v.journal ++ plain ∧ Client.Annotated c c.Raised plain full ∧
        Leads (do return { call with near := ← x c, inbox }) w fun call' events =>
          call' = { call with near, inbox, state := (call.state.1, v₁.state.2) } ∧
            events = full := by
  have met : v.state.2 = w.state.2 := by rw [same, state]
  rcases (agrees (Near.keeps_beside hook v w)).cases (Client.beside_refl met) with
    ⟨_, near', v', w', hv, hw, ⟨rfl, within⟩, beside⟩ | ⟨e, v', w', hv, -⟩
  · rw [run] at hv
    cases hv
    obtain ⟨plain, full, noted, noted', annotated⟩ := beside.journal
    refine ⟨within, beside.far, plain, full, noted, annotated,
      { call with near, inbox }, w', full, ?_, noted', ?_, rfl⟩
    · rw [EStateM.run_bind, hw]
      rfl
    · have ended : w'.state = (call.state.1, v₁.state.2) :=
        Prod.ext (by rw [beside.far', state]) beside.near.symm
      rw [ended]
  · rw [run] at hv
    cases hv

/-- A turn sends what answers the same request. -/
theorem Echoes.turns (h : call.Echoes id) {far : Far (φ × ν)} {sent : List Message}
    (turns : Far.Turns call.far sent far) {place : φ × ν} :
    Echoes id { call with far, inbox := call.inbox ++ sent, state := place } := by
  obtain ⟨next, sent'⟩ := turns.id
  have same {o : Option String} (ho : o = none ∨ o = call.far.id?) : o = none ∨ o = id := by
    rcases ho with rfl | rfl
    · exact .inl rfl
    · exact h.far
  refine ⟨same next, fun m hm => ?_⟩
  rcases List.mem_append.1 hm with hm | hm
  · exact h.inbox m hm
  · exact same (sent' m hm)

/-! ### What stays as it is -/

/-- A step that does nothing. -/
theorem Leads.idle {P : Call (φ × ν) → List Event → Prop} (state : w.state = call.state)
    (h : P call []) : Leads (pure call) w P := by
  refine ⟨call, w, [], rfl, by simp, ?_⟩
  rw [state]
  exact h

theorem Leads.mono {x : Act σ (Call σ)} {w : World σ} {P Q : Call σ → List Event → Prop}
    (h : Leads x w P) (imp : ∀ call events, P call events → Q call events) : Leads x w Q := by
  obtain ⟨call, w', events, run, noted, property⟩ := h
  exact ⟨call, w', events, run, noted, imp _ _ property⟩

theorem Follows.server (h : call.Follows c asked id outcome last own)
    (within : asked.Within Part.near) (state : w.state = call.state)
    (table : Store.Table (φ × ν)) :
    Leads (call.server table) w fun call events =>
      call.Follows c asked id outcome last (own ++ events) := by
  obtain ⟨v, kept, annotated, comes⟩ := h.plain
  obtain ⟨pending, u, brings, finishes, same⟩ := comes.finishes
  obtain ⟨far, sent, later, v', run, turns, serving, brings', rfl⟩ := brings.next comes.serving
  obtain ⟨k, rfl, leads⟩ := leads_server comes.serving run (by rw [kept]) state table
  obtain ⟨u', finishes', same'⟩ := finishes.congr (w := Part.far.put k v) rfl within h.rest rfl
  refine leads.mono ?_
  rintro _ _ ⟨rfl, rfl⟩
  rw [List.append_nil]
  rw [← List.append_assoc] at finishes'
  exact ⟨h.rest, h.echoes.turns turns, Part.far.put k v, by rw [← kept]; rfl, annotated, serving,
    later, u', brings', finishes', same'.symm.trans same⟩

theorem Follows.caller (h : call.Follows c asked id outcome last own)
    (hook : c.options.HasOrdinaryHook) (within : asked.Within Part.near)
    (state : w.state = call.state) :
    Leads (call.caller c asked) w fun call events =>
      call.Follows c asked id outcome last (own ++ events) := by
  obtain ⟨near, far, inbox, place⟩ := call
  obtain ⟨v, kept, annotated, comes⟩ := h.plain
  obtain ⟨pending, u, brings, finishes, same⟩ := comes.finishes
  have still : Leads (pure ⟨near, far, inbox, place⟩) w fun call events =>
      call.Follows c asked id outcome last (own ++ events) :=
    .idle state (by rwa [List.append_nil])
  -- What the caller's side goes on to is what it goes on to without the hook.
  have going {x : Client (φ × ν) → Act (φ × ν) (Near (φ × ν))}
      (agrees : ∀ {c' R}, Near.Keeps c' c Part.near R →
        Act.Agree R (Near.Same Part.near) (x c') (x c))
      {near' : Near (φ × ν)} {v₁ : World (φ × ν)} {left : List Message}
      (run : (x (c.withHook none)).run v = .ok near' v₁) (part : ∀ m ∈ left, m ∈ inbox)
      (rest : Near.Finishes (c.withHook none) asked near' (left ++ pending) v₁ outcome u) :
      Leads (do return { near := ← x c, far, inbox := left, state := place }) w
        fun call events => call.Follows c asked id outcome last (own ++ events) := by
    obtain ⟨within', far', plain, full, noted, annotated', leads⟩ :=
      leads_near ⟨near, far, inbox, place⟩ hook agrees run (by rw [kept]) state left
    refine leads.mono ?_
    rintro _ _ ⟨rfl, rfl⟩
    have echoes : Echoes id ⟨near', far, left, (place.1, v₁.state.2)⟩ :=
      ⟨h.echoes.far, fun m hm => h.echoes.inbox m (part m hm)⟩
    refine ⟨within', echoes, v₁, Prod.ext (by rw [far', kept]) rfl, ?_, comes.serving, pending, u,
      brings.congr comes.serving far'.symm, rest, same⟩
    rw [noted]
    exact annotated.concat annotated'
  cases near with
  | idle => cases finishes
  | waiting count total =>
    cases inbox with
    | nil => exact still
    | cons m left =>
      cases finishes with
      | took run rest =>
        exact going (fun keeps => keeps.landing asked count (keeps.take within count total m)) run
          (fun m => List.mem_cons_of_mem _) rest
  | settling reply count total =>
    cases finishes with
    | settled run rest =>
      exact going (fun keeps => keeps.landing asked count (keeps.settle h.rest count total)) run
        (fun m hm => hm) rest
  | ended outcome => exact still

theorem Follows.stop (h : call.Follows c asked id outcome last own) (state : w.state = call.state) :
    Leads call.stop w fun call events => call.Follows c asked id outcome last (own ++ events) := by
  obtain ⟨near, far, inbox, place⟩ := call
  obtain ⟨v, kept, annotated, comes⟩ := h.plain
  obtain ⟨pending, u, -, finishes, same⟩ := comes.finishes
  have still : Leads (pure ⟨near, far, inbox, place⟩) w fun call events =>
      call.Follows c asked id outcome last (own ++ events) :=
    .idle state (by rwa [List.append_nil])
  have stopping {outcome' : Except Fault Client.Result} (hn : near = .ended outcome')
      {feed : Feed (φ × ν) Bytes} (feeds : feed.Within Part.far) (taken : Nat) :
      Leads (do
        discard (Act.attempt (feed.abandon taken .cancelled))
        return { near, far := .closed, inbox, state := place }) w
        fun call events => call.Follows c asked id outcome last (own ++ events) := by
    subst hn
    cases finishes
    obtain ⟨k, ended⟩ := (feeds.abandon taken .cancelled).exists_after w
    have placed : (Part.far.put k w).state = (k, place.2) :=
      congrArg (fun s => (k, s.2)) state
    refine ⟨⟨.ended outcome, .closed, inbox, place⟩, Part.far.put k w, [], ?_, by simp, ?_⟩
    · rw [EStateM.run_bind, Act.run_discard_attempt, ended]
      rfl
    · dsimp only
      rw [placed, List.append_nil]
      exact ⟨trivial, ⟨.inl rfl, h.echoes.inbox⟩, Part.far.put k v,
        congrArg (fun s => (k, s.2)) kept, annotated, trivial, [], _, .closed, .ended, same⟩
  cases near with
  | idle => exact still
  | waiting count total => exact still
  | settling reply count total => exact still
  | ended outcome' =>
    cases outcome' with
    | ok result => exact still
    | error e =>
      cases far with
      | absent => exact still
      | called r => exact still
      | resolved r s => exact still
      | streaming requestId feed taken rest => exact stopping rfl comes.serving.1 taken
      | holding chunk requestId feed taken rest => exact stopping rfl comes.serving.1 taken
      | closed => exact still

/-! ### Up to the dispatch -/

/-- A call begins with its request, with the next id. -/
theorem leads_ask (hook : c.options.HasOrdinaryHook) (asked : Asked (φ × ν)) {place : φ × ν}
    (state : w.state = place) :
    Leads (Call.caller c asked { state := place }) w fun call events =>
      let r := asked.request c (w.supply w.drawn)
      call = { near := .waiting 0 0, far := .called r, state := place } ∧
        Client.Annotated c c.Raised ((c.withHook none).sent [] r) events := by
  let r := asked.request c (w.supply w.drawn)
  have run : (Near.ask c asked).run w = .ok r (c.afterSending r w) := by
    simp only [Near.ask, EStateM.run_bind, Act.run_drawId, Client.run_send hook,
      Client.grow_sent, EStateM.run_pure, r]
  refine ⟨{ near := .waiting 0 0, far := .called r, state := place }, c.afterSending r w,
    c.sent w.journal r, ?_, rfl, ?_, ?_⟩
  · rw [Call.caller, Act.run_tryCatch, EStateM.run_bind, run]
    rfl
  · rw [Client.afterSending, World.grow_state, state]
  · have before : Client.Annotated c c.Raised [] [] := .nil
    have presented := before.presented [] w.journal (.request r) fun hook ho => ⟨hook, _, ho, rfl⟩
    exact presented.append [.called r c.options.deadline]

/-- A dispatch is the same for a client with a hook and with others in the journal. -/
theorem agree_dispatch (hook : c.options.HasOrdinaryHook) (r : Request)
    (table : Store.Table (φ × ν)) (v w : World (φ × ν)) :
    Act.Agree (c.Beside v w) Eq ((Far.called r).next table) ((Far.called r).next table) := by
  have keeps := Near.keeps_beside hook v w
  refine Act.Agree.tryCatch ?_ fun _ => Act.agree_pure rfl
  have carries : Act.Agree (c.Beside v w) Eq r.carry r.carry := by
    cases r <;> exact Act.agree_ofExcept.bind_eq fun _ => Act.agree_pure rfl
  refine carries.bind_eq fun r => (keeps.note _).bind_eq fun _ => ?_
  unfold Service.resolve
  split
  · exact Act.agree_pure rfl
  · exact Act.agree_throw _

/-- With its dispatch a call begins to follow the outcome of the call run alone with the table as it
is then. -/
theorem follows_dispatched (hook : c.options.HasOrdinaryHook) (within : asked.Within Part.near)
    {table : Store.Table (φ × ν)} (stores : table.Within Part.far) {supply : Nat → String} {n : Nat}
    {place : φ × ν} (state : w.state = place)
    (annotated : Client.Annotated c c.Raised
      ((c.withHook none).sent [] (asked.request c (supply n))) own) :
    ∃ id outcome last, ((asked.request c (supply n)).Fits → id = some (supply n)) ∧
      (asked.alone (c.withHook none) table).run { supply, drawn := n, state := place } =
        .ok outcome last ∧
      Leads (Call.server table { near := .waiting 0 0, far := .called (asked.request c (supply n)),
                                 state := place }) w
        fun call events => call.Follows c asked id outcome last (own ++ events) := by
  let w₀ : World (φ × ν) := { supply, drawn := n, state := place }
  let r := asked.request c (supply n)
  have same : asked.request (c.withHook none) (supply n) = r := by cases asked <;> rfl
  let v := (c.withHook none).afterSending r w₀
  have met : v.state.2 = w.state.2 := congrArg Prod.snd state.symm
  rcases (agree_dispatch hook r table v w).cases (Client.beside_refl met) with
    ⟨⟨far, sent⟩, _, v', w', hv, hw, rfl, beside⟩ | ⟨e, v', w', hv, -⟩
  · obtain ⟨plain, full, noted, noted', annotated'⟩ := beside.journal
    obtain ⟨outcome, last, alone, comes⟩ := Asked.exists_run_alone (c := c.withHook none) (w := w₀)
      rfl within stores (by rw [same]; exact hv)
    have placed : v'.state = w'.state := by
      refine Prod.ext ?_ beside.near
      rw [beside.far, beside.far', state]
      rfl
    obtain ⟨id, own, echoes⟩ := Far.exists_id_of_dispatch hw
    have drawn : r.id? = some (supply n) := by cases asked <;> rfl
    refine ⟨id, outcome, last, fun fits => (own fits).trans drawn, alone,
      ⟨.waiting 0 0, far, sent, place⟩, w', full, ?_, noted', trivial, ⟨echoes.1, echoes.2⟩, v',
      placed, ?_, comes⟩
    · rw [Call.server, EStateM.run_bind, hw]
      rfl
    · rw [noted]
      exact annotated.concat annotated'
  · rw [Far.run_next] at hv
    split at hv <;> cases hv

end Call

end Footage.Concurrent
