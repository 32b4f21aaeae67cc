import Footage.Proofs.Client.Delivery
import Footage.Proofs.Concurrent.Following

/-!
# Calls in progress at once are independent

However the steps of any number of calls and the changes of the table follow one another, each call
delivers, returns, fails and logs what it does when it is run alone, with its own request id,
against the table as it was when the call was dispatched (`System.calls_independent`).  Changes of
the table after that make no difference to the call.

What the resources keep for one call is nothing that another call sees: their acts are within the
far part of the state that belongs to the call, and those of the callbacks are within the near part
(`Store.Within`, `Asked.Within`).  Client, table, ids and journal are shared.

A step takes a call from one `Stage` to the next (`System.stage_step`), which holds then over every
schedule (`System.stage_run`).  No call gets stuck: its own steps bring it to its end
(`System.exists_ended`).
-/

namespace Footage

variable {ι σ φ ν : Type}

/-- The calls of a hook deliver nothing. -/
theorem Client.Annotated.deliveries {c : Client σ}
    {raises : List Event → Item → Option Fault → Prop} {plain full : List Event}
    (h : c.Annotated raises plain full) : Journal.deliveries full = Journal.deliveries plain := by
  induction h with
  | nil => rfl
  | event e _ ih => rw [Journal.deliveries_append, Journal.deliveries_append, ih]
  | @hooked plain full item fault _ _ ih =>
    rw [Journal.deliveries_append, ih]
    cases fault <;> simp [Journal.deliveries, Client.grievance, Client.entry]

namespace Concurrent

/-- The request of the call has been dispatched, to a store or to none. -/
def Call.Dispatched (call : Call σ) : Prop :=
  match call.far with
  | .absent | .called _ => False
  | _ => True

namespace System

variable [DecidableEq ι] {c : Client (φ × ν)} {asked : ι → Asked (φ × ν)}
  {start s : System ι (φ × ν)} {i : ι} {labels : List (Label ι (φ × ν))}
  {call : Call (φ × ν)} {own : List Event}

/-- When a schedule has been followed so far, the request of a call is on its way, with one of the
ids; and the same call, run alone with this id against the table as it is then, comes to an outcome
and to a world. -/
structure Alone (c : Client (φ × ν)) (asked : ι → Asked (φ × ν)) (start : System ι (φ × ν)) (i : ι)
    (before : List (Label ι (φ × ν))) (n : Nat) (outcome : Except Fault Client.Result)
    (last : World (φ × ν)) : Prop where
  called : ((start.run c asked before).calls i).far =
    .called ((asked i).request c (start.supply n))
  run : ((asked i).alone (c.withHook none) (start.run c asked before).table).run
    { supply := start.supply, drawn := n, state := (start.calls i).state } = .ok outcome last

/-- How far a call has come under a schedule, with what it has noted. -/
inductive Stage (c : Client (φ × ν)) (asked : ι → Asked (φ × ν)) (start : System ι (φ × ν))
    (i : ι) : List (Label ι (φ × ν)) → Call (φ × ν) → List Event → Prop where
  | idle {labels : List (Label ι (φ × ν))} :
      Stage c asked start i labels { state := (start.calls i).state } []
  /-- The request has been sent, with one of the ids. -/
  | sent {labels : List (Label ι (φ × ν))} {n : Nat} {own : List Event} :
      Client.Annotated c c.Raised
        ((c.withHook none).sent [] ((asked i).request c (start.supply n))) own →
      Stage c asked start i labels
        { near := .waiting 0 0, far := .called ((asked i).request c (start.supply n)),
          state := (start.calls i).state } own
  /-- The request has been dispatched from the table of that moment. -/
  | dispatched {before after : List (Label ι (φ × ν))} {n : Nat} {id : Option String}
      {outcome : Except Fault Client.Result} {last : World (φ × ν)} {call : Call (φ × ν)}
      {own : List Event} :
      Alone c asked start i before n outcome last →
      (((asked i).request c (start.supply n)).Fits → id = some (start.supply n)) →
      call.Follows c (asked i) id outcome last own →
      Stage c asked start i (before ++ .server i :: after) call own

theorem Stage.more (h : Stage c asked start i labels call own) (l : Label ι (φ × ν)) :
    Stage c asked start i (labels ++ [l]) call own := by
  cases h with
  | idle => exact .idle
  | sent annotated => exact .sent annotated
  | dispatched alone fits follows =>
    rw [List.append_assoc]
    exact .dispatched alone fits follows

/-! ### Steps -/

section

variable {w : World (φ × ν)} (hook : c.options.HasOrdinaryHook)
  (callers : ∀ i, (asked i).Within Part.near)

include hook callers

theorem Stage.caller (h : Stage c asked start i labels call own) (state : w.state = call.state)
    (supply : w.supply = start.supply) (l : Label ι (φ × ν)) :
    Call.Leads (call.caller c (asked i)) w fun call events =>
      Stage c asked start i (labels ++ [l]) call (own ++ events) := by
  cases h with
  | idle =>
    refine (Call.leads_ask hook (asked i) state).mono ?_
    rintro _ events ⟨rfl, annotated⟩
    rw [supply] at annotated ⊢
    exact .sent annotated
  | sent annotated =>
    exact .idle state (by rw [List.append_nil]; exact .sent annotated)
  | dispatched alone fits follows =>
    exact (follows.caller hook (callers i) state).mono fun call events follows =>
      Stage.more (.dispatched alone fits follows) l

theorem Stage.server (h : Stage c asked start i labels call own) (state : w.state = call.state)
    (place : (start.run c asked labels).calls i = call)
    (stores : (start.run c asked labels).table.Within Part.far) :
    Call.Leads (call.server (start.run c asked labels).table) w fun call events =>
      Stage c asked start i (labels ++ [.server i]) call (own ++ events) := by
  cases h with
  | idle =>
    refine ⟨{ state := (start.calls i).state }, w, [], rfl, by simp, ?_⟩
    rw [state]
    exact .idle
  | sent annotated =>
    obtain ⟨id, outcome, last, fits, alone, leads⟩ :=
      Call.follows_dispatched hook (callers i) stores state annotated
    refine leads.mono fun call events follows => ?_
    exact .dispatched ⟨by rw [place], alone⟩ fits follows
  | dispatched alone fits follows =>
    exact (follows.server (callers i) state _).mono fun call events follows =>
      Stage.more (.dispatched alone fits follows) (.server i)

omit hook callers in
theorem Stage.stop (h : Stage c asked start i labels call own) (state : w.state = call.state)
    (l : Label ι (φ × ν)) :
    Call.Leads call.stop w fun call events =>
      Stage c asked start i (labels ++ [l]) call (own ++ events) := by
  cases h with
  | idle => exact .idle state .idle
  | sent annotated => exact .idle state (by rw [List.append_nil]; exact .sent annotated)
  | dispatched alone fits follows =>
    exact (follows.stop state).mono fun call events follows =>
      Stage.more (.dispatched alone fits follows) l

/-- **A step takes a call from one stage to the next**, or leaves it in the same. -/
theorem stage_step (stores : (start.run c asked labels).table.Within Part.far)
    (h : Stage c asked start i labels ((start.run c asked labels).calls i)
      ((start.run c asked labels).own i)) (l : Label ι (φ × ν)) :
    Stage c asked start i (labels ++ [l]) ((start.run c asked (labels ++ [l])).calls i)
      ((start.run c asked (labels ++ [l])).own i) := by
  rw [run_append_singleton]
  let s := start.run c asked labels
  have leads {x : Act (φ × ν) (Call (φ × ν))}
      (h : Call.Leads x (s.world i) fun call events =>
        Stage c asked start i (labels ++ [l]) call (s.own i ++ events)) :
      Stage c asked start i (labels ++ [l]) ((s.absorb i (x.run (s.world i))).calls i)
        ((s.absorb i (x.run (s.world i))).own i) := by
    obtain ⟨events, stage, noted⟩ := absorb_leads h
    rw [noted]
    exact stage
  by_cases mine : l.call? = some i
  · cases l with
    | change table => cases mine
    | caller j =>
      cases mine
      exact leads (h.caller hook callers rfl (run_supply start labels) _)
    | server j =>
      cases mine
      exact leads (h.server hook callers rfl rfl stores)
    | stop j =>
      cases mine
      exact leads (h.stop rfl _)
  · have frame : (s.step c asked l).calls i = s.calls i ∧ (s.step c asked l).own i = s.own i :=
      step_frame mine
    rw [frame.1, frame.2]
    exact h.more l

/-- After every schedule a call has come to one of the stages. -/
theorem stage_run {table : Store.Table (φ × ν)} (stores : table.Within Part.far)
    {supply : Nat → String} {drawn : Nat} {states : ι → φ × ν}
    (changes : ∀ table, .change table ∈ labels → table.Within Part.far) :
    let start := fresh table supply drawn states
    Stage c asked start i labels ((start.run c asked labels).calls i)
      ((start.run c asked labels).own i) := by
  induction labels using List.reverseRecOn with
  | nil => exact .idle
  | append_singleton labels l ih =>
    have before : ∀ table, .change table ∈ labels → table.Within Part.far := fun table h =>
      changes table (List.mem_append_left _ h)
    exact stage_step hook callers (run_table stores before) (ih before) l

end

/-! ### Every call can come to its end -/

theorem run_append (s : System ι (φ × ν)) (first second : List (Label ι (φ × ν))) :
    s.run c asked (first ++ second) = (s.run c asked first).run c asked second :=
  List.foldl_append

/-- The serving side of a call can send all that it still sends. -/
theorem exists_drained (c : Client (φ × ν)) (asked : ι → Asked (φ × ν)) {far : Far (φ × ν)}
    {v : World (φ × ν)} {pending : List Message}
    (brings : Far.Brings far v pending) (serving : far.Serving Part.far)
    (place : (s.calls i).far = far) (same : v.state.1 = (s.calls i).state.1) :
    ∃ k, let call := (s.run c asked (List.replicate k (.server i))).calls i
      call.near = (s.calls i).near ∧ call.inbox = (s.calls i).inbox ++ pending ∧
        call.state.2 = (s.calls i).state.2 := by
  induction brings generalizing s with
  | closed => exact ⟨0, rfl, (List.append_nil _).symm, rfl⟩
  | step run _ ih =>
    subst place
    obtain ⟨k, rfl, leads⟩ := Call.leads_server (w := s.world i) serving run same rfl s.table
    obtain ⟨_, ⟨stepped, -⟩, -⟩ := absorb_leads (s := s) (i := i) leads
    have after : (s.step c asked (.server i)).calls i = _ := stepped
    obtain ⟨n, near, inbox, state⟩ := ih (s := s.step c asked (.server i)) (serving.next run)
      (by rw [after]) (by rw [after]; rfl)
    rw [after] at near inbox state
    exact ⟨n + 1, near, by rw [← List.append_assoc]; exact inbox, state⟩

/-- A step of the caller's side is the one without the hook, in a system. -/
theorem step_caller (hook : c.options.HasOrdinaryHook)
    {x : Client (φ × ν) → Act (φ × ν) (Near (φ × ν))}
    (agrees : ∀ {c' R}, Near.Keeps c' c Part.near R →
      Act.Agree R (Near.Same Part.near) (x c') (x c))
    {near : Near (φ × ν)} {v v₁ : World (φ × ν)} {left : List Message}
    (run : (x (c.withHook none)).run v = .ok near v₁) (same : v.state.2 = (s.calls i).state.2)
    (caller : (s.calls i).caller c (asked i) =
      do return { s.calls i with near := ← x c, inbox := left }) :
    near.Within Part.near ∧
      let call := (s.step c asked (.caller i)).calls i
      call.near = near ∧ call.inbox = left ∧ v₁.state.2 = call.state.2 := by
  obtain ⟨within, -, _, _, -, -, leads⟩ :=
    Call.leads_near (s.calls i) (w := s.world i) hook agrees run same rfl left
  rw [← caller] at leads
  obtain ⟨_, ⟨stepped, -⟩, -⟩ := absorb_leads leads
  have after : (s.step c asked (.caller i)).calls i = _ := stepped
  rw [after]
  exact ⟨within, rfl, rfl, rfl⟩

/-- The caller's side of a call can come to its end when all messages are there. -/
theorem exists_taken (hook : c.options.HasOrdinaryHook) (callers : ∀ i, (asked i).Within Part.near)
    {near : Near (φ × ν)} {messages : List Message} {v u : World (φ × ν)}
    {outcome : Except Fault Client.Result}
    (finishes : Near.Finishes (c.withHook none) (asked i) near messages v outcome u)
    (rest : near.Within Part.near) (place : (s.calls i).near = near)
    (inbox : (s.calls i).inbox = messages) (same : v.state.2 = (s.calls i).state.2) :
    ∃ k, ((s.run c asked (List.replicate k (.caller i))).calls i).near = .ended outcome := by
  induction finishes generalizing s with
  | ended => exact ⟨0, place⟩
  | @took count total m left _ v v₁ _ _ run _ ih =>
    have caller : (s.calls i).caller c (asked i) = do
        return { s.calls i with
          near := ← Near.landing c (asked i) count (Near.take c (asked i) count total m)
          inbox := left } := by
      unfold Call.caller
      rw [place, inbox]
    obtain ⟨within, near, inbox, same⟩ := step_caller hook
      (fun keeps => keeps.landing (asked i) count (keeps.take (callers i) count total m)) run same
      caller
    obtain ⟨k, ended⟩ := ih (s := s.step c asked (.caller i)) within near inbox same
    exact ⟨k + 1, ended⟩
  | @settled reply count total left _ v v₁ _ _ run _ ih =>
    have caller : (s.calls i).caller c (asked i) = do
        return { s.calls i with
          near := ← Near.landing c (asked i) count (Near.settle reply count total)
          inbox := left } := by
      unfold Call.caller
      rw [place, ← inbox]
    obtain ⟨within, near, inbox, same⟩ := step_caller hook
      (fun keeps => keeps.landing (asked i) count (keeps.settle rest count total)) run same caller
    obtain ⟨k, ended⟩ := ih (s := s.step c asked (.caller i)) within near inbox same
    exact ⟨k + 1, ended⟩

section

variable (hook : c.options.HasOrdinaryHook) (callers : ∀ i, (asked i).Within Part.near)

include hook callers

/-- A call that has been dispatched can come to the outcome that it follows. -/
theorem exists_ended_of_follows {id : Option String} {outcome : Except Fault Client.Result}
    {last : World (φ × ν)} (h : (s.calls i).Follows c (asked i) id outcome last own) :
    ∃ more, (∀ l ∈ more, l = .caller i ∨ l = .server i) ∧
      ((s.run c asked more).calls i).near = .ended outcome := by
  obtain ⟨v, kept, -, comes⟩ := h.plain
  obtain ⟨pending, u, brings, finishes, -⟩ := comes.finishes
  obtain ⟨m, near, inbox, state⟩ :=
    exists_drained c asked (s := s) (i := i) brings comes.serving rfl (by rw [kept])
  obtain ⟨n, ended⟩ := exists_taken hook callers finishes h.rest near inbox (by rw [state, kept])
  refine ⟨List.replicate m (.server i) ++ List.replicate n (.caller i), fun l hl => ?_, ?_⟩
  · rcases List.mem_append.1 hl with hl | hl
    · exact .inr (List.eq_of_mem_replicate hl)
    · exact .inl (List.eq_of_mem_replicate hl)
  · rw [run_append]
    exact ended

/-- A call whose request is on its way can come to an end. -/
theorem exists_ended_of_sent (stores : s.table.Within Part.far) {supply : Nat → String} {n : Nat}
    {place : φ × ν} {events : List Event}
    (sent : s.calls i =
      { near := .waiting 0 0, far := .called ((asked i).request c (supply n)), state := place })
    (annotated : Client.Annotated c c.Raised
      ((c.withHook none).sent [] ((asked i).request c (supply n))) events) :
    ∃ more, (∀ l ∈ more, l = .caller i ∨ l = .server i) ∧
      ∃ outcome, ((s.run c asked more).calls i).near = .ended outcome := by
  have state : (s.world i).state = place := by rw [world, sent]
  obtain ⟨id, outcome, last, -, -, leads⟩ :=
    Call.follows_dispatched hook (callers i) stores state annotated
  rw [← sent] at leads
  obtain ⟨_, follows, -⟩ := absorb_leads leads
  obtain ⟨more, steps, ended⟩ :=
    exists_ended_of_follows (s := s.step c asked (.server i)) hook callers follows
  exact ⟨.server i :: more, List.forall_mem_cons.2 ⟨.inr rfl, steps⟩, outcome, ended⟩

/-- **No call gets stuck.**  After every schedule, the steps of a call bring it to its end. -/
theorem exists_ended (stores : s.table.Within Part.far)
    (h : Stage c asked start i labels (s.calls i) own) :
    ∃ more, (∀ l ∈ more, l = .caller i ∨ l = .server i) ∧
      ∃ outcome, ((s.run c asked more).calls i).near = .ended outcome := by
  generalize place : s.calls i = call at h
  cases h with
  | idle =>
    have state : (s.world i).state = (start.calls i).state := by rw [world, place]
    have leads := Call.leads_ask hook (asked i) state
    rw [← place] at leads
    obtain ⟨events, ⟨sent, annotated⟩, -⟩ := absorb_leads leads
    have stores' : (s.step c asked (.caller i)).table.Within Part.far := by
      rw [step, absorb_table]
      exact stores
    obtain ⟨more, steps, ended⟩ := exists_ended_of_sent hook callers stores' sent annotated
    exact ⟨.caller i :: more, List.forall_mem_cons.2 ⟨.inl rfl, steps⟩, ended⟩
  | sent annotated => exact exists_ended_of_sent hook callers stores place annotated
  | dispatched alone fits follows =>
    rw [← place] at follows
    obtain ⟨more, steps, ended⟩ := exists_ended_of_follows hook callers follows
    exact ⟨more, steps, _, ended⟩

end

end System

/-! ### Calls among others and calls alone -/

/-- A call as far as it has come, with what it has noted, is as the same call run alone, which comes
to an outcome and to a world. -/
structure Call.Mirrors (c : Client (φ × ν)) (outcome : Except Fault Client.Result)
    (last : World (φ × ν)) (call : Call (φ × ν)) (own : List Event) : Prop where
  /-- What it has noted is, but for the hook, what the other one notes first. -/
  noted : ∃ plain, plain <+: last.journal ∧ Client.Annotated c c.Raised plain own
  /-- It has delivered the first of the chunks that the other one delivers. -/
  deliveries : Journal.deliveries own <+: Journal.deliveries last.journal
  /-- When it ends, the outcome is the same, and so is all that was noted, but for the hook; the
  same chunks have been delivered, and the caller keeps the same. -/
  ended : ∀ o, call.near.outcome? = some o →
    o = outcome ∧ Client.Annotated c c.Raised last.journal own ∧
      Journal.deliveries own = Journal.deliveries last.journal ∧ call.state.2 = last.state.2

theorem Call.Follows.dispatched {c : Client (φ × ν)} {asked : Asked (φ × ν)} {id : Option String}
    {outcome : Except Fault Client.Result} {last : World (φ × ν)} {call : Call (φ × ν)}
    {own : List Event} (h : call.Follows c asked id outcome last own) : call.Dispatched := by
  obtain ⟨near, far, inbox, place⟩ := call
  obtain ⟨v, -, -, comes⟩ := h.plain
  cases far with
  | absent => exact comes.serving.elim
  | called r => exact comes.serving.elim
  | _ => trivial

theorem Call.Follows.mirrors {c : Client (φ × ν)} {asked : Asked (φ × ν)} {id : Option String}
    {outcome : Except Fault Client.Result} {last : World (φ × ν)} {call : Call (φ × ν)}
    {own : List Event} (h : call.Follows c asked id outcome last own)
    (within : asked.Within Part.near) : call.Mirrors c outcome last own := by
  obtain ⟨v, kept, annotated, comes⟩ := h.plain
  obtain ⟨pending, u, -, finishes, same⟩ := comes.finishes
  obtain ⟨journal, near⟩ := Prod.mk.inj same
  have grown := finishes.grows Client.withHook_hasOrdinaryHook_none within h.rest
  rw [journal] at grown
  refine ⟨⟨v.journal, grown, annotated⟩, ?_, fun o ended => ?_⟩
  · rw [annotated.deliveries]
    exact grown.filterMap _
  · rw [Near.outcome?_eq_some_iff.1 ended] at finishes
    cases finishes
    rw [← journal, ← kept]
    exact ⟨rfl, annotated, annotated.deliveries, near⟩

namespace System

variable [DecidableEq ι] {c : Client (φ × ν)} {asked : ι → Asked (φ × ν)}

/-- **Calls in progress at once are independent.**  After every schedule:

* A call that has not been dispatched has delivered nothing and has not ended.
* A call that has been dispatched is, as far as it has come, as the same call run alone with the
  same id against the table of the moment of its dispatch; and what is on its way to the caller has
  the id of the request, if that fits on the wire.
* The steps of a call bring it to its end. -/
theorem calls_independent (hook : c.options.HasOrdinaryHook)
    (callers : ∀ i, (asked i).Within Part.near) {table : Store.Table (φ × ν)}
    (stores : table.Within Part.far) {labels : List (Label ι (φ × ν))}
    (changes : ∀ table, .change table ∈ labels → table.Within Part.far)
    (supply : Nat → String) (drawn : Nat) (states : ι → φ × ν) (i : ι) :
    let start := fresh table supply drawn states
    let s := start.run c asked labels
    (¬ (s.calls i).Dispatched →
      Journal.deliveries (s.own i) = [] ∧ (s.calls i).near.outcome? = none) ∧
    ((s.calls i).Dispatched → ∃ before after n outcome last,
      labels = before ++ .server i :: after ∧
      Alone c asked start i before n outcome last ∧
      (s.calls i).Mirrors c outcome last (s.own i) ∧
      (((asked i).request c (supply n)).Fits →
        ∀ m ∈ (s.calls i).inbox, m.id? = none ∨ m.id? = some (supply n))) ∧
    ∃ more, (∀ l ∈ more, l = .caller i ∨ l = .server i) ∧
      ∃ o, ((s.run c asked more).calls i).near.outcome? = some o := by
  intro start s
  have stage : Stage c asked start i labels (s.calls i) (s.own i) :=
    stage_run hook callers stores changes
  obtain ⟨more, steps, o, ended⟩ := exists_ended hook callers (run_table stores changes) stage
  refine ⟨?_, ?_, more, steps, o, Near.outcome?_eq_some_iff.2 ended⟩
  · generalize s.calls i = call, s.own i = own at stage
    intro undispatched
    cases stage with
    | idle => exact ⟨rfl, rfl⟩
    | sent annotated =>
      refine ⟨?_, rfl⟩
      rw [annotated.deliveries, Client.sent, Journal.deliveries_append,
        Client.deliveries_presented]
      rfl
    | dispatched alone fits follows => exact absurd follows.dispatched undispatched
  · generalize s.calls i = call, s.own i = own at stage
    intro dispatched
    cases stage with
    | idle => exact dispatched.elim
    | sent annotated => exact dispatched.elim
    | @dispatched before after n id outcome last call own alone fits follows =>
      refine ⟨before, after, n, outcome, last, rfl, alone, follows.mirrors (callers i),
        fun fit m hm => ?_⟩
      rw [← show _ = some (supply n) from fits fit]
      exact follows.echoes.inbox m hm

/-! ### An instance -/

/-- A store whose streams have two chunks. -/
def twoChunks : Store (Unit × List Bytes) where
  fetch _ _ _ := return [1]
  save start _ container _ _ := return start ++ "." ++ container
  fetchStream _ _ _ := return {
    items := [return [1], return [2, 3]]
    finish := pure ()
    abandon := fun _ _ => pure () }
  doCommand entries := return entries

theorem twoChunks_within : twoChunks.Within Part.far where
  fetch _ _ _ := Act.within_pure _
  save _ _ _ _ _ := Act.within_pure _
  fetchStream _ _ _ := Act.within_pure _
  feed := by
    rintro _ _ _ w _ w' ⟨⟩
    refine ⟨fun next hn => ?_, Act.within_pure _, fun _ _ => Act.within_pure _⟩
    simp only [List.mem_cons, List.not_mem_nil, or_false] at hn
    rcases hn with rfl | rfl <;> exact Act.within_pure _

/-- A client for a resource. -/
def viewer : Client (Unit × List Bytes) where
  channel := .broken .cancelled
  name := ⟨.videoStore, "porch", "", by decide⟩

/-- A callback that keeps the chunk when it is waited for. -/
def keep (chunk : Bytes) : Act (Unit × List Bytes) (Reply (Unit × List Bytes)) :=
  return .awaitable do
    let kept ← Act.state
    Act.setState (kept.1, kept.2 ++ [chunk])
    return .null

/-- A stream with this callback, and one that goes into a writer. -/
def twoStreams : Bool → Asked (Unit × List Bytes)
  | true => .fetchStream "a" "b" "mp4" keep
  | false => .streamInto "c" "d" "mp4" fun _ => pure ()

theorem twoStreams_within (i : Bool) : (twoStreams i).Within Part.near := by
  cases i with
  | false => exact fun _ => Act.within_pure ()
  | true =>
    refine ⟨fun _ => Act.within_pure _, ?_⟩
    rintro chunk w _ w' ⟨⟩ v₀ w₀ _ _ ⟨k, rfl, rfl⟩
    exact .ok rfl ⟨k ++ [chunk], rfl, rfl⟩

/-- The streams in turns; between their dispatches the store is taken out of the table. -/
def turns : List (Label Bool (Unit × List Bytes)) :=
  [.caller true, .caller false, .server true, .change [], .server false, .server true,
    .server true, .caller false, .server true, .caller true, .server true, .caller true,
    .server true, .caller true, .caller true, .server true, .caller true]

/-- The system before the streams have begun. -/
def opening : System Bool (Unit × List Bytes) :=
  fresh [("porch", twoChunks)] (fun n => toString n) 0 fun _ => ((), [])

/-- The stream that was dispatched in time goes on to its end, and delivers both chunks, as it does
alone. -/
theorem calls_independent_sample :
    ∃ before after n outcome last, turns = before ++ .server true :: after ∧
      Alone viewer twoStreams opening true before n outcome last ∧
      ((opening.run viewer twoStreams turns).calls true).near.outcome? = some outcome ∧
      Journal.deliveries last.journal = [[1], [2, 3]] := by
  have stores : Store.Table.Within Part.far [("porch", twoChunks)] := by
    intro key s hs
    rw [List.lookup_cons] at hs
    split at hs <;> cases hs
    exact twoChunks_within
  have changes : ∀ table, .change table ∈ turns → table.Within Part.far := by
    intro table ht
    simp only [turns, List.mem_cons, List.not_mem_nil, reduceCtorEq, false_or, or_false,
      Label.change.injEq] at ht
    subst ht
    intro key s hs
    cases hs
  have hook : viewer.options.HasOrdinaryHook := by rintro hook ⟨⟩
  obtain ⟨undispatched, dispatched, -⟩ :=
    calls_independent hook twoStreams_within stores changes (fun n => toString n) 0
      (fun _ => ((), [])) true
  have delivered : Journal.deliveries ((opening.run viewer twoStreams turns).own true) =
      [[1], [2, 3]] := by decide +kernel
  have finished : ((opening.run viewer twoStreams turns).calls true).near.outcome?.isSome := by
    decide +kernel
  obtain ⟨o, ended⟩ := Option.isSome_iff_exists.1 finished
  have sent : ((opening.run viewer twoStreams turns).calls true).Dispatched := by
    by_contra pending
    cases ended.symm.trans (undispatched pending).2
  obtain ⟨before, after, n, outcome, last, split, alone, mirrors, -⟩ := dispatched sent
  obtain ⟨rfl, -, same, -⟩ := mirrors.ended o ended
  exact ⟨before, after, n, o, last, split, alone, ended, same.symm.trans delivered⟩

end System

end Concurrent

end Footage
