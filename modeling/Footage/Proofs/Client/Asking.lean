import Footage.Proofs.Client.Presenting

/-!
# One request and its answer

An operation that is answered once sends a request and makes something of the response: it comes to
what the call over the channel comes to when the request has been sent (`Client.run_fetch`,
`Client.run_save`).
-/

namespace Footage

variable {σ α β : Type}

namespace Act

/-- What a run comes to when something is made of what it returns. -/
def mapOk (f : α → β) : EStateM.Result Fault (World σ) α → EStateM.Result Fault (World σ) β
  | .ok a w => .ok (f a) w
  | .error e w => .error e w

theorem run_map (f : α → β) (x : Act σ α) (w : World σ) :
    (do return f (← x) : Act σ β).run w = mapOk f (x.run w) := by
  rw [EStateM.run_bind]
  cases x.run w <;> rfl

theorem mapOk_mapOk {γ : Type} (f : α → β) (g : β → γ)
    (result : EStateM.Result Fault (World σ) α) :
    mapOk g (mapOk f result) = mapOk (fun a => g (f a)) result := by
  cases result <;> rfl

/-- The outcome of an act that makes something of what another one returns. -/
theorem run_attempt_of_mapOk {x : Act σ α} {y : Act σ β} {f : β → α} {w w₁ w' : World σ}
    (h : x.run w = mapOk f (y.run w₁)) {outcome : Except Fault β}
    (attempted : (attempt y).run w₁ = .ok outcome w') :
    (attempt x).run w = .ok (outcome.map f) w' := by
  rw [run_attempt] at attempted ⊢
  rw [h]
  cases hy : y.run w₁ with
  | ok b w₂ =>
    rw [hy] at attempted
    cases attempted
    rfl
  | error e w₂ =>
    rw [hy] at attempted
    cases attempted
    rfl

/-- An act that makes something of what another one returns leads to the same world. -/
theorem after_of_run_mapOk {x : Act σ α} {y : Act σ β} {f : β → α} {w w₁ : World σ}
    (h : x.run w = mapOk f (y.run w₁)) : x.after w = y.after w₁ := by
  cases hy : y.run w₁ with
  | ok b w₂ =>
    rw [hy] at h
    rw [after_of_ok h, after_of_ok hy]
  | error e w₂ =>
    rw [hy] at h
    rw [after_of_error h, after_of_error hy]

end Act

namespace Client

variable {c : Client σ} {start stop container metadata : String} {background : Bool}

/-- The request that a client makes for the video of a range with an id. -/
def fetchRequest (c : Client σ) (start stop container requestId : String) : Wire.FetchRequest :=
  { name := c.name.short, start, stop, container, requestId }

/-- The request that a client makes for saving a range with an id. -/
def saveRequest (c : Client σ) (start stop container metadata : String) (background : Bool)
    (requestId : String) : Wire.SaveRequest :=
  { name := c.name.short, start, stop, container, metadata, background, requestId }

theorem run_fetch (hook : c.options.HasOrdinaryHook) {r : Wire.FetchRequest} {w : World σ}
    (hr : r = c.fetchRequest start stop container (w.supply w.drawn)) :
    (c.fetch start stop container).run w =
      Act.mapOk (·.video)
        ((c.channel.fetch r c.options.deadline).run (c.afterSending (.fetch r) w)) := by
  simp only [hr, Client.fetch, fetchRequest, EStateM.run_bind, Act.run_drawId, run_send hook,
    grow_sent]
  generalize EStateM.run _ _ = response
  cases response <;> rfl

theorem run_save (hook : c.options.HasOrdinaryHook) {r : Wire.SaveRequest} {w : World σ}
    (hr : r = c.saveRequest start stop container metadata background (w.supply w.drawn)) :
    (c.save start stop container metadata background).run w =
      Act.mapOk (·.filename)
        ((c.channel.save r c.options.deadline).run (c.afterSending (.save r) w)) := by
  simp only [hr, Client.save, saveRequest, EStateM.run_bind, Act.run_drawId, run_send hook,
    grow_sent]
  generalize EStateM.run _ _ = response
  cases response <;> rfl

end Client

end Footage
