import Footage.Proofs.Remote.Hop

/-!
# Streams over one hop

Taking the chunks of a stream that comes over a hop is taking the chunks of the store's own stream
(`Client.Reaches.stream`): the same chunks in the same order, and the store goes on to the next
one when the taker asks for it.  When the store fails, at the start or after any number of chunks,
the taker has got the chunks from before the fault, and the fault comes as a remote one.
-/

namespace Footage

open Wire (Kind)
open Feed (Takes Ending)

variable {σ β : Type}

namespace Feed.Ending

@[simp] theorem last_mapBroken {α : Type} (f : Fault → Fault) (ending : Ending α β) :
    (ending.mapBroken f).last = ending.last := by
  cases ending <;> rfl

@[simp] theorem mapBroken_mapBroken {α : Type} (f g : Fault → Fault) (ending : Ending α β) :
    (ending.mapBroken f).mapBroken g = ending.mapBroken (g ∘ f) := by
  cases ending <;> rfl

end Feed.Ending

/-- A stream of a store is opened and its chunks are taken with a step, which comes to an ending.
A store that fails to open a stream has broken it before the first chunk. -/
inductive Store.Streams (t : Store σ) (start stop container : String) (step : β → Bytes → Act σ β)
    (b : β) (w : World σ) : List Bytes → Ending Bytes β → World σ → Prop where
  | opened {feed : Feed σ Bytes} {w₁ w' : World σ} {chunks : List Bytes}
      {ending : Ending Bytes β} :
      (t.fetchStream start stop container).run w = .ok feed w₁ →
      Takes feed.finish step feed.items b w₁ chunks ending w' →
      Streams t start stop container step b w chunks ending w'
  | unopened {e : Fault} {w' : World σ} :
      (t.fetchStream start stop container).run w = .error e w' →
      Streams t start stop container step b w [] (.broken e) w'

/-- The streams of one store are those of another one behind a number of hops: from the world that
the hops leave, what the far store comes to is what the near one comes to, with nothing but
traffic after it. -/
def Store.Echoes (hops : Nat) (near far : Store σ) (start stop container : String)
    (w : World σ) : Prop :=
  ∃ w₁, w.Travels hops w₁ ∧
    ∀ {β : Type} (step : β → Bytes → Act σ β) (b : β) (chunks : List Bytes)
      (ending : Ending Bytes β) (w₂ : World σ),
      far.Streams start stop container step b w₁ chunks ending w₂ →
      (∀ chunk ∈ chunks ++ ending.last, Kind.bytes.Fits chunk) →
      ∃ w₃, w₂.Travels 0 w₃ ∧
        near.Streams start stop container step b w chunks
          (ending.mapBroken (Fault.atCaller^[hops])) w₃

theorem Store.Echoes.trans {m n : Nat} {near middle far : Store σ}
    {start stop container : String} {w : World σ}
    (first : Store.Echoes m near middle start stop container w)
    (second : ∀ w₁, w.Travels m w₁ → Store.Echoes n middle far start stop container w₁) :
    Store.Echoes (m + n) near far start stop container w := by
  obtain ⟨w₁, t₁, echo₁⟩ := first
  obtain ⟨w₂, t₂, echo₂⟩ := second w₁ t₁
  refine ⟨w₂, t₁.trans t₂, fun step b chunks ending w₃ h fit => ?_⟩
  obtain ⟨w₄, t₄, h₄⟩ := echo₂ step b chunks ending w₃ h fit
  obtain ⟨w₅, t₅, h₅⟩ := echo₁ step b chunks _ w₄ h₄ (by simpa using fit)
  refine ⟨w₅, t₄.trans t₅, ?_⟩
  rwa [Feed.Ending.mapBroken_mapBroken, ← Function.iterate_add] at h₅

/-- The response to a request with an id that brings a chunk. -/
def Wire.FetchStreamResponse.ofChunk (requestId : String) (video : Bytes) :
    Wire.FetchStreamResponse :=
  { video, requestId }

open Wire.FetchStreamResponse (ofChunk)

namespace Channel

/-- The act that brings a chunk of the store as a response to a request with an id. -/
def response (requestId : String) (next : Act σ Bytes) : Act σ Wire.FetchStreamResponse := do
  carry (← served (do return ofChunk requestId (← next)))

theorem run_response (requestId : String) (next : Act σ Bytes) (w : World σ) :
    (response requestId next).run w =
      match next.run w with
      | .ok chunk w => (carry (ofChunk requestId chunk)).run w
      | .error e w => .error e.atCaller w := by
  rw [response, EStateM.run_bind, run_served, EStateM.run_bind]
  cases next.run w <;> rfl

theorem items_servedFeed (requestId : String) (feed : Feed σ Bytes) :
    (servedFeed (Service.responses requestId feed)).items =
      feed.items.map (response requestId) := by
  rw [servedFeed, Service.responses, Feed.map, List.map_map]
  rfl

end Channel

/-- **Taking the responses of a served stream is taking the chunks of the store.** -/
theorem takes_servedFeed {requestId : String} (id : Kind.text.Fits requestId)
    {feed : Feed σ Bytes} {step : β → Bytes → Act σ β} {items : List (Act σ Bytes)} {b : β}
    {w w' : World σ} {chunks : List Bytes} {ending : Ending Bytes β}
    (h : Takes feed.finish step items b w chunks ending w')
    (fit : ∀ chunk ∈ chunks ++ ending.last, Kind.bytes.Fits chunk) :
    Takes (Channel.servedFeed (Service.responses requestId feed)).finish
      (fun b r => step b r.video)
      (items.map (Channel.response requestId)) b w (chunks.map (ofChunk requestId))
      ((ending.mapBroken Fault.atCaller).map (ofChunk requestId)) w' := by
  have arrives {chunk : Bytes} (hc : Kind.bytes.Fits chunk) (w : World σ) :
      (Channel.carry (ofChunk requestId chunk)).run w = .ok (ofChunk requestId chunk) w := by
    refine Channel.run_carry (Wire.MessageType.lawful .fetchStreamResponse) ?_ rfl w
    simpa [Wire.Message.Fits, Wire.Message.slots, ofChunk] using ⟨hc, id⟩
  -- Every item of the served stream is one of the store's, taken at the same world.
  induction h with
  | complete h =>
    refine .complete ?_
    simp only [Channel.servedFeed, Service.responses, Feed.map, Channel.run_served, h]
  | unfinished h =>
    refine .unfinished ?_
    simp only [Channel.servedFeed, Service.responses, Feed.map, Channel.run_served, h]
  | broken h =>
    refine .broken ?_
    rw [Channel.run_response, h]
  | refused h hs =>
    refine .refused ?_ hs
    rw [Channel.run_response, h]
    exact arrives (fit _ (by simp [Ending.last])) _
  | taken h hs _ ih =>
    refine .taken ?_ hs (ih fun chunk hc => fit chunk (List.mem_cons_of_mem _ hc))
    rw [Channel.run_response, h]
    exact arrives (fit _ (by simp)) _

namespace Client

variable {c : Client σ} {t : Store σ} {start stop container : String}

/-- What a client adds when the responses of a call have come to their end is traffic. -/
theorem travels_afterResponses {α : Type} (count : Nat) (w : World σ) (ending : Ending α β) :
    w.Travels 0 (c.afterResponses count w ending) := by
  cases ending with
  | complete b =>
    exact World.travels_grow (fun e he => by obtain rfl := List.mem_singleton.1 he; trivial) 0 w
  | broken e => exact travels_afterFailure count e w
  | refused a e => exact w.travels_refl

/-- **A hop for streaming.** -/
theorem Reaches.stream (h : c.Reaches t)
    (texts : ∀ s ∈ [start, stop, container], Kind.text.Fits s) {w : World σ}
    (ids : ∀ n, Kind.text.Fits (w.supply n)) :
    Store.Echoes 1 c.asStore t start stop container w := by
  obtain ⟨table, hc, found⟩ := h.served
  let r := c.streamRequest start stop container (w.supply w.drawn)
  have fits : Wire.Message.Fits r := by
    simpa [Wire.Message.Fits, Wire.Message.slots, r, streamRequest, h.name, ids] using texts
  have travel : w.Travels 1 ((c.afterSending (.fetchStream r) w).grow
      [Service.receivedEntry .fetchStream r.requestId r.name]) :=
    (travels_afterSending (.fetchStream r) w).trans (Service.travels_received ..)
  have run := Channel.run_direct_fetchStream c.options.deadline found fits rfl
    (c.afterSending (.fetchStream r) w)
  refine ⟨_, travel, fun step b chunks ending w₂ far fit => ?_⟩
  -- A store that fails to open its stream is found out when the first chunk is asked for.
  cases far with
  | @opened feed w₁ _ _ _ hf taken =>
    change (t.fetchStream r.start r.stop r.container).run _ = _ at hf
    rw [hf, ← hc] at run
    have responses := takes_servedFeed (ids w.drawn) taken fit
    rw [← Channel.items_servedFeed] at responses
    have near := takes_chunks h.hook responses
    have same : (chunks.map (ofChunk (w.supply w.drawn))).map (·.video) = chunks := by
      simp [Function.comp_def, ofChunk]
    have ended : ((ending.mapBroken Fault.atCaller).map (ofChunk (w.supply w.drawn))).map
        (·.video) = ending.mapBroken Fault.atCaller := by
      cases ending <;> rfl
    rw [same, ended] at near
    exact ⟨_, travels_afterResponses _ w₂ _, .opened (run_feed h.hook run) near⟩
  | @unopened e _ he =>
    change (t.fetchStream r.start r.stop r.container).run _ = _ at he
    rw [he, ← hc] at run
    have failed : Takes (Feed.failing e.atCaller : Feed σ Wire.FetchStreamResponse).finish
        (fun b (r : Wire.FetchStreamResponse) => step b r.video) [] b w₂ [] (.broken e.atCaller)
        w₂ := .unfinished rfl
    have near := takes_chunks h.hook failed
    exact ⟨_, travels_afterFailure 0 e.atCaller w₂, .opened (run_feed h.hook run) near⟩

end Client

end Footage
