import Footage.Proofs.Concurrent.Far
import Footage.Proofs.Concurrent.Near
import Footage.Proofs.Remote.Stream

/-!
# A call run alone

A call that is run alone (`Concurrent.Asked.alone`) is the operation of the client over a direct
channel: each side waits for the other one, and the store produces a chunk when the caller asks for
it.  `Concurrent.Asked.exists_run_alone` says that from the dispatch on this comes to the same as
the steps of the two sides taken apart: what the serving side sends until it is through, and what
the caller's side makes of these messages in order.
-/

namespace Footage

open Feed (Takes Ending)
open Wire.FetchStreamResponse (ofChunk)

variable {σ φ ν α β : Type}

/-- A message either arrives, as something, or is lost on its way. -/
theorem Channel.run_carry_cases {M : Type} [Wire.Message M] (m : M) (w : World σ) :
    (∃ m', (carry m : Act σ M).run w = .ok m' w) ∨ ∃ e, (carry m : Act σ M).run w = .error e w := by
  rw [carry]
  cases (Wire.parse (Wire.Message.encode m) : Except Fault M) with
  | ok m' => exact .inl ⟨m', rfl⟩
  | error e => exact .inr ⟨e, rfl⟩

/-- What is sent back for a call is what the serving side returns. -/
theorem Channel.run_returned {M : Type} [Wire.Message M] (x : Act σ M) (w : World σ) :
    (do carry (← served x)).run w = returned (x.run w) := by
  rw [EStateM.run_bind, run_served]
  cases x.run w <;> rfl

/-- The client with another channel. -/
def Client.over (c : Client σ) (channel : Channel σ) : Client σ := { c with channel }

namespace Concurrent

/-- The operation of a call over a channel to a service with a table, with its outcome. -/
def Asked.alone (c : Client σ) (table : Store.Table σ) (asked : Asked σ) :
    Act σ (Except Fault Client.Result) :=
  Act.attempt ((c.over (.direct table)).perform asked.operation)

/-! ### The dispatch -/

namespace Far

variable {table : Store.Table σ} {M : Type} [Wire.Message M]

/-- A request is dispatched as a service that answers it would do: either it fails there, or a store
is found which is to answer. -/
theorem dispatch_cases (wrap : M → Request)
    (carries : ∀ m : M, (wrap m).carry = (do return wrap (← Channel.carry m) : Act σ Request))
    (answer : M → Act σ α) (body : M → Store σ → Act σ α)
    (answers : ∀ m : M, answer m = do
      Act.note (wrap m).receipt
      body m (← Service.resolve table (wrap m).name)) (m : M) (v : World σ) :
    (∃ e v₁, ((called (wrap m)).next table).run v = .ok (closed, [.failed e.atCaller]) v₁ ∧
      (do answer (← Channel.carry m)).run v = .error e v₁) ∨
    ∃ m' s, table.lookup (wrap m').name = some s ∧
      ((called (wrap m)).next table).run v =
        .ok (resolved (wrap m') s, []) (v.grow [(wrap m').receipt]) ∧
      (do answer (← Channel.carry m)).run v = (body m' s).run (v.grow [(wrap m').receipt]) := by
  simp only [run_next, advance, carries, EStateM.run_bind, Channel.carry]
  cases (Wire.parse (Wire.Message.encode m) : Except Fault M) with
  | error e => exact .inl ⟨e, v, rfl, rfl⟩
  | ok m' =>
    simp only [Act.run_ofExcept_ok, EStateM.run_pure, answers, EStateM.run_bind, Act.run_note]
    cases found : table.lookup (wrap m').name with
    | none =>
      simp only [Service.resolve, found, Act.run_throw]
      exact .inl ⟨_, _, rfl, rfl⟩
    | some s =>
      simp only [Service.resolve, found, EStateM.run_pure]
      exact .inr ⟨m', s, found, rfl, rfl⟩

end Far

/-! ### Steps of the caller's side without a hook -/

namespace Near

variable {c : Client σ} {asked : Asked σ}

/-- The world when the client has reacted to a fault of the call. -/
def afterFault (c : Client σ) (asked : Asked σ) (count : Nat) (e : Fault) (w : World σ) : World σ :=
  if asked.isStream then c.afterFailure (pure ()) count e w else w

theorem run_landing (hook : c.options.HasOrdinaryHook) (count : Nat) (x : Act σ (Near σ))
    (w : World σ) :
    (landing c asked count x).run w =
      match x.run w with
      | .ok near w => .ok near w
      | .error e w => .ok (ended (.error (asked.raised e))) (afterFault c asked count e w) := by
  have reacted (e : Fault) (w : World σ) :
      (asked.failed c count e).run w = .ok () (afterFault c asked count e w) := by
    unfold Asked.failed afterFault
    split
    · exact Client.run_streamFailed hook (pure ()) count e w
    · rfl
  rw [landing, Act.run_tryCatch, Act.run_guarding]
  cases x.run w with
  | ok near w => rfl
  | error e w =>
    simp only [reacted]
    rfl

/-- A message that cannot be taken ends the call. -/
theorem Finishes.of_error (hook : c.options.HasOrdinaryHook) {count total : Nat} {m : Message}
    {w w' : World σ} {e : Fault} (run : (take c asked count total m).run w = .error e w')
    (messages : List Message) :
    Finishes c asked (waiting count total) (m :: messages) w (.error (asked.raised e))
      (afterFault c asked count e w') :=
  .took (by rw [run_landing hook, run]) .ended

/-- A message that ends the call. -/
theorem Finishes.of_ended (hook : c.options.HasOrdinaryHook) {count total : Nat} {m : Message}
    {w w' : World σ} {outcome : Except Fault Client.Result}
    (run : (take c asked count total m).run w = .ok (.ended outcome) w') (messages : List Message) :
    Finishes c asked (waiting count total) (m :: messages) w outcome w' :=
  .took (by rw [run_landing hook, run]) .ended

end Near

end Concurrent

namespace Client

theorem hasOrdinaryHook_of_none {c : Client σ} (unhooked : c.options.hook = none) :
    c.options.HasOrdinaryHook := by
  intro hook ho
  rw [unhooked] at ho
  cases ho

variable {c : Client (φ × ν)}

/-- Without a hook, what the client does about a fault concerns the journal only; what the serving
side does when it is told concerns that side. -/
theorem talk_afterFailure (unhooked : c.options.hook = none) {cancel : Act (φ × ν) Unit}
    (within : cancel.Within Part.far) (count : Nat) (e : Fault) (w : World (φ × ν)) :
    Part.talk.get (c.afterFailure (pure ()) count e w) =
      Part.talk.get (c.afterFailure cancel count e w) := by
  unfold afterFailure
  split
  · let told := w.grow [c.failedEntry count e, .cancelled]
    have untold : (pure () : Act (φ × ν) Unit).after told = told := Act.after_of_ok rfl
    obtain ⟨k, cancelled⟩ := within.exists_after told
    simp only [untold, cancelled, told, presented, unhooked]
    rfl
  · rfl

end Client

namespace Concurrent

open Near (Finishes)
open Far (Brings)

variable {c : Client (φ × ν)} {asked : Asked (φ × ν)}

/-- The two sides of a call, taken apart, come to an outcome, with the journal and what the caller
keeps as they are in a world: what the serving side still sends is settled by its part, and so is
what the caller's side makes of the messages on their way and of these. -/
structure ComesTo (c : Client (φ × ν)) (asked : Asked (φ × ν)) (near : Near (φ × ν))
    (far : Far (φ × ν)) (inbox : List Message) (v : World (φ × ν))
    (outcome : Except Fault Client.Result) (last : World (φ × ν)) : Prop where
  serving : far.Serving Part.far
  finishes : ∃ pending u, Brings far v pending ∧
    Finishes c asked near (inbox ++ pending) v outcome u ∧ Part.talk.get u = Part.talk.get last

variable {near : Near (φ × ν)} {far far' : Far (φ × ν)} {inbox sent : List Message}
  {v v' last : World (φ × ν)} {outcome : Except Fault Client.Result}

/-- A step of the serving side makes no difference. -/
theorem ComesTo.of_step (unhooked : c.options.hook = none) (within : asked.Within Part.near)
    (rest : near.Within Part.near) (serving : far.Serving Part.far)
    (run : (far.next []).run v = .ok (far', sent) v')
    (after : ComesTo c asked near far' (inbox ++ sent) v' outcome last) :
    ComesTo c asked near far inbox v outcome last := by
  obtain ⟨pending, u, brings, finishes, same⟩ := after.finishes
  obtain ⟨k, rfl, -⟩ := serving.within_next.of_ok rfl run
  obtain ⟨u', finishes', same'⟩ := finishes.congr unhooked within rest (w := v) rfl
  rw [List.append_assoc] at finishes'
  exact ⟨serving, sent ++ pending, u', .step run brings, finishes', same'.symm.trans same⟩

/-- A message with which the call ends, whatever the serving side still sends. -/
theorem comesTo_ending {m : Message} {u : World (φ × ν)} (serving : far.Serving Part.far)
    (finishes : ∀ messages, Finishes c asked near (m :: messages) v outcome u)
    (same : Part.talk.get u = Part.talk.get last) :
    ComesTo c asked near far [m] v outcome last := by
  obtain ⟨pending, brings⟩ := Far.exists_brings serving v
  exact ⟨serving, pending, u, brings, finishes pending, same⟩

/-- What the caller's side makes of a message makes no difference to the serving side. -/
theorem ComesTo.of_message {near' : Near (φ × ν)} {m : Message}
    (kept : Part.far.get v' = Part.far.get v)
    (finishes : ∀ messages outcome u, Finishes c asked near' messages v' outcome u →
      Finishes c asked near (m :: messages) v outcome u)
    (after : ComesTo c asked near' far [] v' outcome last) :
    ComesTo c asked near far [m] v outcome last := by
  obtain ⟨pending, u, brings, rest, same⟩ := after.finishes
  exact ⟨after.serving, pending, u, brings.congr after.serving kept, finishes _ _ _ rest, same⟩

/-- The serving side has failed, and the caller hears of it. -/
theorem comesTo_failed (hook : c.options.HasOrdinaryHook) {count total : Nat} {e : Fault}
    (reacted : Near.afterFault c asked count e v = last) :
    ComesTo c asked (.waiting count total) .closed [.failed e] v (.error (asked.raised e)) last :=
  comesTo_ending trivial (.of_error hook rfl) (by rw [reacted])

/-- What a call comes to for someone who waits for it. -/
def landed (g : β → Client.Result) :
    EStateM.Result Fault (World σ) β → Except Fault Client.Result × World σ
  | .ok b w => (.ok (g b), w)
  | .error e w => (.error e, w)

theorem landed_mapOk (f : α → β) (g : β → Client.Result) (r : EStateM.Result Fault (World σ) α) :
    landed g (Act.mapOk f r) = landed (fun a => g (f a)) r := by
  cases r <;> rfl

theorem run_attempt_map (x : Act σ β) (g : β → Client.Result) (w : World σ) :
    (Act.attempt (do return g (← x))).run w =
      .ok (landed g (x.run w)).1 (landed g (x.run w)).2 := by
  rw [Act.run_attempt, EStateM.run_bind]
  cases x.run w <;> rfl

/-! ### Calls that are answered once -/

section

variable {table : Store.Table (φ × ν)} {M N : Type} [Wire.Message M] [Wire.Message N]

/-- A call that is answered once, from its dispatch on. -/
theorem comesTo_single (unhooked : c.options.hook = none) (within : asked.Within Part.near)
    (stores : table.Within Part.far) (single : asked.isStream = false) (wrap : M → Request)
    (carries : ∀ m : M, (wrap m).carry = (do return wrap (← Channel.carry m) : Act (φ × ν) Request))
    (answer : M → Act (φ × ν) N) {body : M → Store (φ × ν) → Act (φ × ν) N}
    (answers : ∀ m : M, answer m = do
      Act.note (wrap m).receipt
      body m (← Service.resolve table (wrap m).name))
    (box : N → Message) (serves : ∀ m s, Far.serve s (wrap m) = do
      return (.closed, [box (← body m s)]))
    (value : N → Client.Result) (takes : ∀ n, Near.take c asked 0 0 (box n) = do
      return .ended (.ok (value (← Channel.carry n)))) {m : M}
    (run : ((Far.called (wrap m)).next table).run v = .ok (far, sent) v') :
    let ended := landed value ((do
      Channel.carry (← Channel.served (do answer (← Channel.carry m)))).run v)
    ComesTo c asked (.waiting 0 0) far sent v' ended.1 ended.2 := by
  have hook := Client.hasOrdinaryHook_of_none unhooked
  have unmoved (e : Fault) (w : World (φ × ν)) : Near.afterFault c asked 0 e w = w := by
    simp [Near.afterFault, single]
  have same (e : Fault) : asked.raised e = e := by simp [Asked.raised, single]
  have failed (e : Fault) (w : World (φ × ν)) :
      ComesTo c asked (.waiting 0 0) .closed [.failed e] w (.error e) w := by
    have told : ComesTo c asked (.waiting 0 0) .closed [.failed e] w _ w :=
      comesTo_failed hook (unmoved e w)
    rwa [same] at told
  rw [Channel.run_returned]
  rcases Far.dispatch_cases wrap carries answer body answers m v with
    ⟨e, v₁, refused, answered⟩ | ⟨m', s, found, resolved, answered⟩ <;> rw [answered]
  · cases refused.symm.trans run
    exact failed e.atCaller v'
  · cases resolved.symm.trans run
    have serving : (Far.resolved (wrap m') s).Serving Part.far := stores _ _ found
    have next := Far.run_next [] (.resolved (wrap m') s) (v.grow [(wrap m').receipt])
    rw [Far.advance, serves, EStateM.run_bind] at next
    cases served : (body m' s).run (v.grow [(wrap m').receipt]) with
    | error e w =>
      rw [served] at next
      exact .of_step unhooked within trivial serving next (failed e.atCaller w)
    | ok n w =>
      rw [served] at next
      refine .of_step unhooked within trivial serving next ?_
      have taken : (Near.take c asked 0 0 (box n)).run w =
          (do return .ended (.ok (value (← Channel.carry n))) : Act _ (Near _)).run w := by
        rw [takes]
      rw [EStateM.run_bind] at taken
      rw [Channel.returned]
      rcases Channel.run_carry_cases n w with ⟨n', arrives⟩ | ⟨e, lost⟩
      · rw [arrives] at taken ⊢
        exact comesTo_ending trivial (.of_ended hook taken) rfl
      · rw [lost] at taken ⊢
        have ending := Finishes.of_error hook taken
        rw [same, unmoved] at ending
        exact comesTo_ending trivial ending rfl

end

/-! ### Streams -/

/-- The steps with which a stream is taken are those of the call: a chunk is handed over, and what
comes back is settled before the bytes are counted. -/
structure Asked.Folds (asked : Asked σ) (step : β → Bytes → Act σ β) (sum : Nat → β)
    (value : β → Client.Result) : Prop where
  stream : asked.isStream = true
  step : ∀ total chunk, step (sum total) chunk = do
    Act.note (.delivered chunk)
    let reply ← asked.accept chunk
    reply.settle
    return sum (total + chunk.length)
  result : ∀ total, value (sum total) = asked.result total

variable {step : β → Bytes → Act (φ × ν) β} {sum : Nat → β} {value : β → Client.Result}
  {count total : Nat}

theorem Asked.Folds.afterFault (folds : asked.Folds step sum value) (count : Nat) (e : Fault)
    (w : World (φ × ν)) : Near.afterFault c asked count e w = c.afterFailure (pure ()) count e w :=
  if_pos folds.stream

theorem Asked.Folds.raised (folds : asked.Folds step sum value) (e : Fault) :
    asked.raised e = e.awaited :=
  if_pos folds.stream

/-- A message that cannot be taken ends the stream. -/
theorem Asked.Folds.finishes_of_error (folds : asked.Folds step sum value)
    (hook : c.options.HasOrdinaryHook) {m : Message} {w w' : World (φ × ν)} {e : Fault}
    (run : (Near.take c asked count total m).run w = .error e w') (messages : List Message) :
    Finishes c asked (.waiting count total) (m :: messages) w (.error e.awaited)
      (c.afterFailure (pure ()) count e w') := by
  rw [← folds.raised, ← folds.afterFault]
  exact .of_error hook run messages

/-- The serving side of a stream has failed. -/
theorem comesTo_broken (hook : c.options.HasOrdinaryHook) (folds : asked.Folds step sum value)
    (e : Fault) (v : World (φ × ν)) :
    ComesTo c asked (.waiting count total) .closed [.failed e] v (.error e.awaited)
      (c.afterFailure (pure ()) count e v) :=
  folds.raised e ▸ comesTo_failed hook (folds.afterFault count e v)

/-- The serving side of a stream has come to its end. -/
theorem comesTo_finished (hook : c.options.HasOrdinaryHook) (folds : asked.Folds step sum value)
    (v : World (φ × ν)) :
    ComesTo c asked (.waiting count total) .closed [.finished] v (.ok (value (sum total)))
      (v.grow [c.finishedEntry count]) := by
  have taken : (Near.take c asked count total .finished).run v =
      .ok (.ended (.ok (asked.result total))) (v.grow [c.finishedEntry count]) := by
    rw [Near.take, EStateM.run_bind, Client.run_log]
    rfl
  rw [folds.result]
  exact comesTo_ending trivial (.of_ended hook taken) rfl

/-- Taking a chunk and settling the reply is one step of taking the stream. -/
theorem take_chunk (hook : c.options.HasOrdinaryHook) (within : asked.Within Part.near)
    (folds : asked.Folds step sum value) {r r' : Wire.FetchStreamResponse} {v : World (φ × ν)}
    (arrives : (Channel.carry r).run v = .ok r' v) (count total : Nat) :
    (∃ e w, (step (sum total) r'.video).run v = .error e w ∧
      ∀ messages, Finishes c asked (.waiting count total) (.chunk r :: messages) v
        (.error e.awaited) (c.afterFailure (pure ()) count e w)) ∨
    ∃ w, (step (sum total) r'.video).run v = .ok (sum (total + r'.video.length)) w ∧
      Part.far.get w = Part.far.get v ∧
      ∀ messages outcome u,
        Finishes c asked (.waiting (count + 1) (total + r'.video.length)) messages w outcome u →
        Finishes c asked (.waiting count total) (.chunk r :: messages) v outcome u := by
  have taken : (Near.take c asked count total (.chunk r)).run v =
      match (asked.accept r'.video).run (v.grow [.delivered r'.video]) with
      | .ok reply w => .ok (.settling reply count (total + r'.video.length)) w
      | .error e w => .error e w := by
    simp only [Near.take, EStateM.run_bind, arrives, Act.run_note]
    cases (asked.accept r'.video).run (v.grow [.delivered r'.video]) <;> rfl
  have settled (reply : Reply (φ × ν)) (w : World (φ × ν)) :
      (Near.settle reply count (total + r'.video.length)).run w =
        match reply.settle.run w with
        | .ok _ w => .ok (.waiting (count + 1) (total + r'.video.length)) w
        | .error e w => .error e w := by
    rw [Near.settle, EStateM.run_bind]
    cases reply.settle.run w <;> rfl
  simp only [folds.step, EStateM.run_bind, Act.run_note]
  rcases (within.accept r'.video).cases (v := v.grow [.delivered r'.video]) rfl with
    ⟨reply, k, accepted, -⟩ | ⟨e, k, accepted, -⟩
  · let w := Part.near.put k (v.grow [.delivered r'.video])
    have first : (Near.landing c asked count (Near.take c asked count total (.chunk r))).run v =
        .ok (.settling reply count (total + r'.video.length)) w := by
      rw [Near.run_landing hook, taken, accepted]
    rcases (within.settle accepted).cases (v := w) rfl with ⟨u, l, done, -⟩ | ⟨e, l, failed, -⟩
    · refine .inr ⟨Part.near.put l w, by simp only [accepted, w, done, EStateM.run_pure], rfl,
        fun messages outcome u rest => ?_⟩
      exact .took first (.settled (by rw [Near.run_landing hook, settled, done]) rest)
    · refine .inl ⟨e, Part.near.put l w, by simp only [accepted, w, failed], fun messages => ?_⟩
      rw [← folds.afterFault, ← folds.raised]
      exact .took first (.settled (by rw [Near.run_landing hook, settled, failed]) .ended)
  · refine .inl ⟨e, Part.near.put k (v.grow [.delivered r'.video]), by simp only [accepted],
      fun messages => ?_⟩
    exact folds.finishes_of_error hook (by rw [taken, accepted]) messages

/-- A stream that is taken in lock-step comes to what its two sides come to apart. -/
theorem comesTo_streaming (unhooked : c.options.hook = none) (within : asked.Within Part.near)
    (folds : asked.Folds step sum value) {requestId : String} {feed : Feed (φ × ν) Bytes}
    (feeds : feed.Within Part.far) {rest : List (Act (φ × ν) Bytes)}
    (items : ∀ next ∈ rest, next.Within Part.far) (count taken : Nat)
    {rs : List Wire.FetchStreamResponse} {ending : Ending Wire.FetchStreamResponse β}
    (h : Takes (Channel.served feed.finish) (fun b r => step b r.video)
      (rest.map (Channel.response requestId)) (sum total) v rs ending v') :
    let call := Channel.servedFeed (Service.responses requestId feed)
    let ended := landed value (Act.waited (c.outcome call (count + rs.length) v' ending))
    ComesTo c asked (.waiting count total) (.streaming requestId feed taken rest) [] v ended.1
      ended.2 := by
  have hook := Client.hasOrdinaryHook_of_none unhooked
  -- On the items that are left, each of which is produced, written and taken before the next one.
  induction rest generalizing v count total taken rs with
  | nil =>
    have serving : (Far.streaming requestId feed taken []).Serving Part.far := ⟨feeds, items⟩
    have next := Far.run_next [] (.streaming requestId feed taken []) v
    rw [Far.advance, EStateM.run_bind] at next
    cases h with
    | complete h =>
      rw [Channel.run_served] at h
      cases finished : feed.finish.run v <;> rw [finished] at h next <;> cases h
      exact .of_step unhooked within trivial serving next (comesTo_finished hook folds v')
    | unfinished h =>
      rw [Channel.run_served] at h
      cases finished : feed.finish.run v <;> rw [finished] at h next <;> cases h
      exact .of_step unhooked within trivial serving next (comesTo_broken hook folds _ v')
  | cons next rest ih =>
    have serving : (Far.streaming requestId feed taken (next :: rest)).Serving Part.far :=
      ⟨feeds, items⟩
    have others : ∀ next ∈ rest, next.Within Part.far := fun next hn =>
      items next (List.mem_cons_of_mem _ hn)
    have response := Channel.run_response requestId next v
    have stepped := Far.run_next [] (.streaming requestId feed taken (next :: rest)) v
    rw [Far.advance, EStateM.run_bind] at stepped
    cases produced : next.run v with
    | error e w =>
      rw [produced] at response stepped
      refine .of_step unhooked within trivial serving stepped ?_
      cases h with
      | broken h =>
        rw [response] at h
        cases h
        exact comesTo_broken hook folds _ v'
      | refused h => rw [response] at h; cases h
      | taken h => rw [response] at h; cases h
    | ok chunk w =>
      rw [produced] at response stepped
      dsimp only at response
      refine .of_step unhooked within trivial serving stepped ?_
      have left : (Far.streaming requestId feed (taken + 1) rest).Serving Part.far :=
        ⟨feeds, others⟩
      refine .of_step unhooked within trivial left rfl ?_
      rcases Channel.run_carry_cases (ofChunk requestId chunk) w with ⟨r, arrives⟩ | ⟨e, lost⟩
      · rw [arrives] at response
        cases h with
        | broken h => rw [response] at h; cases h
        | refused h hs =>
          rw [response] at h
          cases h
          rcases take_chunk hook within folds arrives count total with
            ⟨e, w', stepped, finishes⟩ | ⟨w', stepped, -⟩ <;> rw [stepped] at hs <;> cases hs
          exact comesTo_ending left finishes
            (Client.talk_afterFailure unhooked (feeds.abandon _ _) count _ v')
        | taken h hs others' =>
          rw [response] at h
          cases h
          rcases take_chunk hook within folds arrives count total with
            ⟨e, w', stepped, -⟩ | ⟨w', stepped, kept, finishes⟩ <;> rw [stepped] at hs <;> cases hs
          have after := ih others (count + 1) (taken + 1) others'
          rw [Nat.add_assoc, Nat.add_comm 1] at after
          exact after.of_message kept finishes
      · rw [lost] at response
        cases h with
        | broken h =>
          rw [response] at h
          cases h
          have refused : (Near.take c asked count total (.chunk (ofChunk requestId chunk))).run v' =
              .error e v' := by
            rw [Near.take, EStateM.run_bind, lost]
          exact comesTo_ending left (folds.finishes_of_error hook refused) rfl
        | refused h => rw [response] at h; cases h
        | taken h => rw [response] at h; cases h

/-- A stream, from its dispatch on. -/
theorem comesTo_stream (unhooked : c.options.hook = none) (within : asked.Within Part.near)
    (folds : asked.Folds step sum value) {table : Store.Table (φ × ν)}
    (stores : table.Within Part.far) {start stop container : String} {w : World (φ × ν)}
    (run : ((Far.called (.fetchStream (c.streamRequest start stop container
      (w.supply w.drawn)))).next table).run (c.afterSending (.fetchStream
        (c.streamRequest start stop container (w.supply w.drawn))) w) = .ok (far, sent) v) :
    let ended := landed value ((Act.awaited do
      (← (c.over (.direct table)).feed start stop container).fold step (sum 0)).run w)
    ComesTo c asked (.waiting 0 0) far sent v ended.1 ended.2 := by
  have hook := Client.hasOrdinaryHook_of_none unhooked
  let r := c.streamRequest start stop container (w.supply w.drawn)
  let v₀ := c.afterSending (.fetchStream r) w
  -- A stream that fails to open is found out when the caller asks for the first chunk.
  have failing {e : Fault} {v : World (φ × ν)}
      (answered : (do Service.fetchStream table (← Channel.carry r)).run v₀ = .error e v) :
      (Act.awaited do
        (← (c.over (.direct table)).feed start stop container).fold step (sum 0)).run w =
        .error e.atCaller.awaited (c.afterFailure (pure ()) 0 e.atCaller v) := by
    have opened : ((Channel.direct table).fetchStream r c.options.deadline).run v₀ =
        .ok (.failing e.atCaller) v := by
      rw [Channel.direct, EStateM.run_bind, Act.run_attempt, answered]
      rfl
    exact Client.run_awaited_feed_fold (c := c.over (.direct table)) hook opened (.unfinished rfl)
  rcases Far.dispatch_cases .fetchStream (fun _ => rfl) (Service.fetchStream table)
      (fun r s => do
        return Service.responses r.requestId (← s.fetchStream r.start r.stop r.container))
      (fun _ => rfl) r v₀ with
    ⟨e, v₁, failed, answered⟩ | ⟨r', s, found, resolved, answered⟩
  · cases failed.symm.trans run
    rw [failing answered]
    exact comesTo_broken hook folds e.atCaller v
  · cases resolved.symm.trans run
    have serving : (Far.resolved (.fetchStream r') s).Serving Part.far := stores _ _ found
    have next := Far.run_next [] (.resolved (.fetchStream r') s)
      (v₀.grow [(Request.fetchStream r').receipt])
    rw [Far.advance, Far.serve, EStateM.run_bind] at next
    cases produced : (s.fetchStream r'.start r'.stop r'.container).run
        (v₀.grow [(Request.fetchStream r').receipt]) with
    | error e v =>
      rw [produced] at next
      rw [failing (v := v) (by rw [answered, EStateM.run_bind, produced])]
      exact .of_step unhooked within trivial serving next (comesTo_broken hook folds e.atCaller v)
    | ok feed v =>
      rw [produced] at next
      have opened : ((Channel.direct table).fetchStream r c.options.deadline).run v₀ =
          .ok (Channel.servedFeed (Service.responses r'.requestId feed)) v := by
        rw [Channel.direct, EStateM.run_bind, Act.run_attempt, answered, EStateM.run_bind, produced]
        rfl
      have feeds := Store.Within.feed serving _ _ _ _ _ _ produced
      obtain ⟨rs, ending, last, takes⟩ := Feed.exists_takes (Channel.served feed.finish)
        (fun b (r : Wire.FetchStreamResponse) => step b r.video)
        (feed.items.map (Channel.response r'.requestId)) (sum 0) v
      have streamed := comesTo_streaming unhooked within folds feeds feeds.items 0 0 takes
      rw [Nat.zero_add] at streamed
      rw [← Channel.items_servedFeed] at takes
      rw [Client.run_awaited_feed_fold (c := c.over (.direct table)) hook opened takes]
      exact .of_step unhooked within trivial serving next streamed

/-- **A call that is run alone comes to what its two sides come to apart, from the dispatch on.** -/
theorem Asked.exists_run_alone (unhooked : c.options.hook = none) (within : asked.Within Part.near)
    {table : Store.Table (φ × ν)} (stores : table.Within Part.far) {w : World (φ × ν)}
    (run : ((Far.called (asked.request c (w.supply w.drawn))).next table).run
      (c.afterSending (asked.request c (w.supply w.drawn)) w) = .ok (far, sent) v) :
    ∃ outcome last, (asked.alone c table).run w = .ok outcome last ∧
      ComesTo c asked (.waiting 0 0) far sent v outcome last := by
  have hook := Client.hasOrdinaryHook_of_none unhooked
  cases asked with
  | fetch start stop container =>
    refine ⟨_, _, run_attempt_map _ .video w, ?_⟩
    rw [Client.run_fetch (c := c.over (.direct table)) hook rfl, landed_mapOk]
    exact comesTo_single unhooked within stores rfl .fetch (fun _ => rfl) (Service.fetch table)
      (fun _ => rfl) .video (fun _ _ => by simp only [Far.serve, bind_assoc, pure_bind])
      (fun n => .video n.video) (fun _ => rfl) run
  | save start stop container metadata background =>
    refine ⟨_, _, run_attempt_map _ .filename w, ?_⟩
    rw [Client.run_save (c := c.over (.direct table)) hook rfl, landed_mapOk]
    exact comesTo_single unhooked within stores rfl .save (fun _ => rfl) (Service.save table)
      (fun _ => rfl) .saved (fun _ _ => by simp only [Far.serve, bind_assoc, pure_bind])
      (fun n => .filename n.filename) (fun _ => rfl) run
  | fetchStream start stop container callback =>
    have folds : (Asked.fetchStream start stop container callback).Folds
        (fun _ : Unit => Client.hand callback) (fun _ => ()) fun _ => .done := by
      refine ⟨rfl, fun _ chunk => ?_, fun _ => rfl⟩
      simp only [Client.hand, Asked.accept, bind_pure_unit]
    exact ⟨_, _, run_attempt_map _ (fun _ => .done) w,
      comesTo_stream unhooked within folds stores run⟩
  | streamInto start stop container write =>
    have folds : (Asked.streamInto start stop container write).Folds (Client.handOn write) id
        .written := by
      refine ⟨rfl, fun total chunk => ?_, fun _ => rfl⟩
      simp only [Client.handOn, Asked.accept, bind_assoc, pure_bind]
      rfl
    exact ⟨_, _, run_attempt_map _ .written w, comesTo_stream unhooked within folds stores run⟩

end Concurrent

end Footage
