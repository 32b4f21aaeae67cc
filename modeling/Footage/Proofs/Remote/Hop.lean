import Footage.Channel.Direct
import Footage.Proofs.Client.Streaming
import Footage.Proofs.Wire.RoundTrip
import Mathlib.Logic.Function.Iterate

/-!
# One hop

A client *reaches* a store (`Client.Reaches`) if its channel leads to a service that serves the
store under the name that the client sends.  Over such a hop every operation of the client is the
same operation of the store, at the world that the hop leaves before it (`World.Travels`):
`Client.Reaches.fetch`, `Client.Reaches.save` and `Client.Reaches.stream`.  What the store returns
comes back as it is, and its faults come back as remote ones.

`Act.Relays` and `Store.Streams` are what these statements say of one operation, in a form in which
hops can be put one after the other.
-/

namespace Footage

open Wire (Kind)
open Feed (Takes Ending)

variable {σ α β : Type}

/-! ### What a hop leaves in the journal -/

/-- Between two worlds there is nothing but traffic, with a number of request ids that were
drawn. -/
def World.Travels (n : Nat) (w w' : World σ) : Prop :=
  ∃ events, (∀ e ∈ events, e.IsTraffic) ∧ w' = w.grow events n

namespace World

theorem travels_grow {events : List Event} (h : ∀ e ∈ events, e.IsTraffic) (n : Nat)
    (w : World σ) : w.Travels n (w.grow events n) :=
  ⟨events, h, rfl⟩

theorem travels_refl (w : World σ) : w.Travels 0 w :=
  ⟨[], by simp, by simp⟩

theorem Travels.trans {m n : Nat} {w₁ w₂ w₃ : World σ} (h₁ : w₁.Travels m w₂)
    (h₂ : w₂.Travels n w₃) : w₁.Travels (m + n) w₃ := by
  obtain ⟨first, t₁, rfl⟩ := h₁
  obtain ⟨second, t₂, rfl⟩ := h₂
  refine ⟨first ++ second, fun e he => ?_, grow_grow ..⟩
  rcases List.mem_append.1 he with he | he
  · exact t₁ e he
  · exact t₂ e he

theorem Travels.supply {n : Nat} {w w' : World σ} (h : w.Travels n w') : w'.supply = w.supply := by
  obtain ⟨events, -, rfl⟩ := h
  rfl

end World

namespace Client

variable {c : Client σ}

/-- What a client does about a fault in the stream itself is traffic. -/
theorem travels_afterFailure (count : Nat) (e : Fault) (w : World σ) :
    w.Travels 0 (c.afterFailure (pure ()) count e w) := by
  by_cases ho : e.isOrdinary
  · rw [afterFailure, if_pos ho]
    have told : w.Travels 0 (w.grow [c.failedEntry count e, .cancelled]) := by
      refine World.travels_grow (fun e he => ?_) 0 w
      simp only [List.mem_cons, List.not_mem_nil, or_false] at he
      rcases he with rfl | rfl <;> trivial
    exact told.trans (World.travels_grow (fun _ => isTraffic_of_mem_presented) 0 _)
  · rw [afterFailure, if_neg ho]
    exact w.travels_refl

end Client

/-! ### Messages in transit -/

namespace Channel

variable {M N : Type} [Wire.Message M] [Wire.Message N]

/-- A message arrives as it was sent. -/
theorem run_carry (lawful : Wire.Message.Lawful M) {m : M} (fits : Wire.Message.Fits m)
    (known : Wire.Message.unknown m = []) (w : World σ) : (carry m).run w = .ok m w := by
  rw [carry, Wire.Message.parse_encode lawful fits known, Act.run_ofExcept_ok]

theorem run_served (x : Act σ α) (w : World σ) :
    (served x).run w =
      match x.run w with
      | .ok a w => .ok a w
      | .error e w => .error e.atCaller w := by
  rw [served, Act.run_tryCatch]
  cases x.run w <;> rfl

/-- What a run of the serving side comes to for its caller. -/
def returned : EStateM.Result Fault (World σ) N → EStateM.Result Fault (World σ) N
  | .ok n w => (carry n).run w
  | .error e w => .error e.atCaller w

/-- A call is answered from the request as it was sent. -/
theorem run_call (lawful : Wire.Message.Lawful M) {m : M} (fits : Wire.Message.Fits m)
    (known : Wire.Message.unknown m = []) (answer : M → Act σ N) (w : World σ) :
    (do carry (← served (do answer (← carry m)))).run w = returned ((answer m).run w) := by
  rw [EStateM.run_bind, run_served, EStateM.run_bind, run_carry lawful fits known]
  dsimp only
  cases (answer m).run w <;> rfl

end Channel

/-! ### What a service does for a request -/

namespace Service

/-- The entry of the log about a request that has arrived. -/
def receivedEntry (method : Wire.Method) (requestId name : String) : Event :=
  .logged { logger := "videostore.service", level := .debug,
            message := "Received " ++ method.name ++ " request: " ++ requestId ++ " for " ++ name,
            about := none }

theorem run_received (method : Wire.Method) (requestId name : String) (w : World σ) :
    (received method requestId name).run w =
      .ok () (w.grow [receivedEntry method requestId name]) :=
  Act.run_log ..

theorem travels_received (method : Wire.Method) (requestId name : String) (w : World σ) :
    w.Travels 0 (w.grow [receivedEntry method requestId name]) :=
  World.travels_grow (fun e he => by obtain rfl := List.mem_singleton.1 he; trivial) 0 w

variable {table : Store.Table σ} {t : Store σ}

theorem run_fetch {r : Wire.FetchRequest} (found : table.lookup r.name = some t) (w : World σ) :
    (fetch table r).run w =
      Act.mapOk (fun video => { video, requestId := r.requestId })
        ((t.fetch r.start r.stop r.container).run
          (w.grow [receivedEntry .fetch r.requestId r.name])) := by
  simp only [fetch, EStateM.run_bind, run_received, resolve, found, EStateM.run_pure]
  generalize EStateM.run _ _ = result
  cases result <;> rfl

theorem run_save {r : Wire.SaveRequest} (found : table.lookup r.name = some t) (w : World σ) :
    (save table r).run w =
      Act.mapOk (fun filename => { filename, requestId := r.requestId })
        ((t.save r.start r.stop r.container r.metadata r.background).run
          (w.grow [receivedEntry .save r.requestId r.name])) := by
  simp only [save, EStateM.run_bind, run_received, resolve, found, EStateM.run_pure]
  generalize EStateM.run _ _ = result
  cases result <;> rfl

/-- The responses to a request with an id, for the chunks of a feed. -/
def responses (requestId : String) (feed : Feed σ Bytes) : Feed σ Wire.FetchStreamResponse :=
  feed.map fun chunk => return { video := chunk, requestId }

theorem run_fetchStream {r : Wire.FetchStreamRequest} (found : table.lookup r.name = some t)
    (w : World σ) :
    (fetchStream table r).run w =
      Act.mapOk (responses r.requestId) ((t.fetchStream r.start r.stop r.container).run
        (w.grow [receivedEntry .fetchStream r.requestId r.name])) := by
  simp only [fetchStream, EStateM.run_bind, run_received, resolve, found, EStateM.run_pure]
  generalize EStateM.run _ _ = result
  cases result <;> rfl

end Service

/-! ### The way to the store and back -/

namespace Channel

variable {table : Store.Table σ} {t : Store σ} (deadline : Option Number.Quantity)

theorem run_direct_fetch {r : Wire.FetchRequest} (found : table.lookup r.name = some t)
    (fits : Wire.Message.Fits r) (known : r.unknown = []) (w : World σ) :
    ((direct table).fetch r deadline).run w =
      returned (Act.mapOk (fun video => { video, requestId := r.requestId })
        ((t.fetch r.start r.stop r.container).run
          (w.grow [Service.receivedEntry .fetch r.requestId r.name]))) := by
  rw [direct, run_call (Wire.MessageType.lawful .fetchRequest) fits known, Service.run_fetch found]

theorem run_direct_save {r : Wire.SaveRequest} (found : table.lookup r.name = some t)
    (fits : Wire.Message.Fits r) (known : r.unknown = []) (w : World σ) :
    ((direct table).save r deadline).run w =
      returned (Act.mapOk (fun filename => { filename, requestId := r.requestId })
        ((t.save r.start r.stop r.container r.metadata r.background).run
          (w.grow [Service.receivedEntry .save r.requestId r.name]))) := by
  rw [direct, run_call (Wire.MessageType.lawful .saveRequest) fits known, Service.run_save found]

/-- A stream is open for its caller even if the store failed to open it, and fails then as soon as
the caller asks for a chunk. -/
theorem run_direct_fetchStream {r : Wire.FetchStreamRequest}
    (found : table.lookup r.name = some t) (fits : Wire.Message.Fits r) (known : r.unknown = [])
    (w : World σ) :
    ((direct table).fetchStream r deadline).run w =
      match (t.fetchStream r.start r.stop r.container).run
          (w.grow [Service.receivedEntry .fetchStream r.requestId r.name]) with
      | .ok feed w => .ok (servedFeed (Service.responses r.requestId feed)) w
      | .error e w => .ok (.failing e.atCaller) w := by
  rw [direct, EStateM.run_bind, Act.run_attempt, EStateM.run_bind,
    run_carry (Wire.MessageType.lawful .fetchStreamRequest) fits known]
  dsimp only
  rw [Service.run_fetchStream found]
  cases (t.fetchStream r.start r.stop r.container).run
    (w.grow [Service.receivedEntry .fetchStream r.requestId r.name]) <;> rfl

end Channel

namespace Client

variable {c : Client σ}

theorem travels_afterSending (r : Request) (w : World σ) : w.Travels 1 (c.afterSending r w) :=
  World.travels_grow (fun _ => isTraffic_of_mem_sent) 1 w

end Client

/-! ### Operations that answer once -/

/-- One act is another one that is run behind a number of hops: what it returns comes back as it
is, if it is short enough, and its fault comes back as it looks from that far away. -/
def Act.Relays (hops : Nat) (fits : α → Prop) (near far : Act σ α) (w : World σ) : Prop :=
  ∃ w₁, w.Travels hops w₁ ∧
    (∀ a w₂, far.run w₁ = .ok a w₂ → fits a → near.run w = .ok a w₂) ∧
    ∀ e w₂, far.run w₁ = .error e w₂ → near.run w = .error (Fault.atCaller^[hops] e) w₂

theorem Act.Relays.trans {m n : Nat} {fits : α → Prop} {near middle far : Act σ α} {w : World σ}
    (first : Act.Relays m fits near middle w)
    (second : ∀ w₁, w.Travels m w₁ → Act.Relays n fits middle far w₁) :
    Act.Relays (m + n) fits near far w := by
  obtain ⟨w₁, t₁, ok₁, error₁⟩ := first
  obtain ⟨w₂, t₂, ok₂, error₂⟩ := second w₁ t₁
  refine ⟨w₂, t₁.trans t₂, fun a w₃ h fit => ok₁ a w₃ (ok₂ a w₃ h fit) fit, fun e w₃ h => ?_⟩
  rw [Function.iterate_add_apply]
  exact error₁ _ w₃ (error₂ e w₃ h)

/-- An operation is relayed when its result is answered in a message and the caller takes it out
again. -/
theorem Act.relays_of_returned {M : Type} [Wire.Message M] (lawful : Wire.Message.Lawful M)
    {answer : α → M} {value : M → α} {fits : α → Prop} {near far : Act σ α} {w w₁ : World σ}
    (travel : w.Travels 1 w₁)
    (run : near.run w = mapOk value (Channel.returned (mapOk answer (far.run w₁))))
    (back : ∀ a, fits a → Wire.Message.Fits (answer a))
    (known : ∀ a, Wire.Message.unknown (answer a) = []) (same : ∀ a, value (answer a) = a) :
    Act.Relays 1 fits near far w := by
  refine ⟨w₁, travel, fun a w₂ h fit => ?_, fun e w₂ h => ?_⟩
  · rw [run, h, mapOk, Channel.returned, Channel.run_carry lawful (back a fit) (known a), mapOk,
      same]
  · rw [run, h]
    rfl

/-- The channel of a client leads to a service that serves the store under the name that the
client sends, and the client's hook is an ordinary one. -/
structure Client.Reaches (c : Client σ) (t : Store σ) : Prop where
  served : ∃ table, c.channel = Channel.direct table ∧ table.lookup c.name.short = some t
  name : Kind.text.Fits c.name.short
  hook : c.options.HasOrdinaryHook

namespace Client.Reaches

variable {c : Client σ} {t : Store σ} {start stop container metadata : String}

/-- **A hop for fetching.** -/
theorem fetch (h : c.Reaches t) (texts : ∀ s ∈ [start, stop, container], Kind.text.Fits s)
    {w : World σ} (ids : ∀ n, Kind.text.Fits (w.supply n)) :
    Act.Relays 1 Kind.bytes.Fits (c.fetch start stop container) (t.fetch start stop container)
      w := by
  obtain ⟨table, hc, found⟩ := h.served
  let r := c.fetchRequest start stop container (w.supply w.drawn)
  have fits : Wire.Message.Fits r := by
    simpa [Wire.Message.Fits, Wire.Message.slots, r, fetchRequest, h.name, ids] using texts
  have run := Client.run_fetch (r := r) h.hook rfl
  rw [hc, Channel.run_direct_fetch _ found fits rfl] at run
  have travel : w.Travels 1 ((c.afterSending (.fetch r) w).grow
      [Service.receivedEntry .fetch r.requestId r.name]) :=
    (travels_afterSending (.fetch r) w).trans (Service.travels_received ..)
  refine Act.relays_of_returned (Wire.MessageType.lawful .fetchResponse) travel run
    (fun video fit => ?_) (fun _ => rfl) fun _ => rfl
  simpa [Wire.Message.Fits, Wire.Message.slots, r, fetchRequest, ids] using fit

/-- **A hop for saving.** -/
theorem save (h : c.Reaches t)
    (texts : ∀ s ∈ [start, stop, container, metadata], Kind.text.Fits s) (background : Bool)
    {w : World σ} (ids : ∀ n, Kind.text.Fits (w.supply n)) :
    Act.Relays 1 Kind.text.Fits (c.save start stop container metadata background)
      (t.save start stop container metadata background) w := by
  obtain ⟨table, hc, found⟩ := h.served
  let r := c.saveRequest start stop container metadata background (w.supply w.drawn)
  have fits : Wire.Message.Fits r := by
    have flag : Kind.flag.Fits background := trivial
    simpa [Wire.Message.Fits, Wire.Message.slots, r, saveRequest, h.name, ids, flag] using texts
  have run := Client.run_save (r := r) h.hook rfl
  rw [hc, Channel.run_direct_save _ found fits rfl] at run
  have travel : w.Travels 1 ((c.afterSending (.save r) w).grow
      [Service.receivedEntry .save r.requestId r.name]) :=
    (travels_afterSending (.save r) w).trans (Service.travels_received ..)
  refine Act.relays_of_returned (Wire.MessageType.lawful .saveResponse) travel run
    (fun filename fit => ?_) (fun _ => rfl) fun _ => rfl
  simpa [Wire.Message.Fits, Wire.Message.slots, r, saveRequest, ids] using fit

end Client.Reaches

end Footage
