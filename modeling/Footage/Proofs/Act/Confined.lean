import Footage.Proofs.Act.Respects
import Footage.Feed

/-!
# Acts that are confined

An act is *confined* to surroundings with a property and to faults of a kind (`Act.Confined`) if
from such surroundings it only leads to such surroundings, whether it fails or not, and if all its
faults are of the kind.  As with the relations that acts respect, this goes through every way of
putting acts together, and through taking all items of a feed (`Feed.Confined.fold`).
-/

namespace Footage

variable {σ α β : Type}

/-- From surroundings with the property the act only leads to such surroundings, and its faults
are of the kind. -/
def Act.Confined (P : σ → Prop) (F : Fault → Prop) (x : Act σ α) : Prop :=
  ∀ w : World σ, P w.state →
    match x.run w with
    | .ok _ w' => P w'.state
    | .error e w' => P w'.state ∧ F e

namespace Act

variable {P : σ → Prop} {F G : Fault → Prop}

theorem Confined.of_ok {x : Act σ α} {w w' : World σ} {a : α} (hx : x.Confined P F)
    (hp : P w.state) (h : x.run w = .ok a w') : P w'.state := by
  have told := hx w hp
  rwa [h] at told

theorem Confined.of_error {x : Act σ α} {w w' : World σ} {e : Fault} (hx : x.Confined P F)
    (hp : P w.state) (h : x.run w = .error e w') : P w'.state ∧ F e := by
  have told := hx w hp
  rwa [h] at told

theorem Confined.after {x : Act σ α} (hx : x.Confined P F) {w : World σ} (hp : P w.state) :
    P (x.after w).state := by
  cases h : x.run w with
  | ok a w' => exact after_of_ok h ▸ hx.of_ok hp h
  | error e w' => exact after_of_error h ▸ (hx.of_error hp h).1

/-- What leaves the surroundings as they are is confined to those with any property. -/
theorem Confined.of_forall_eq {x : Act σ α} (hx : ∀ s, x.Confined (· = s) F) :
    x.Confined P F := by
  intro w hp
  cases h : x.run w with
  | ok a w' =>
    have same : w'.state = w.state := (hx w.state).of_ok rfl h
    show P w'.state
    rwa [same]
  | error e w' =>
    have same : w'.state = w.state ∧ F e := (hx w.state).of_error rfl h
    exact ⟨show P w'.state by rwa [same.1], same.2⟩

theorem confined_pure (a : α) : (pure a : Act σ α).Confined P F := fun _ hp => hp

theorem confined_throw {e : Fault} (he : F e) : (throw e : Act σ α).Confined P F :=
  fun _ hp => ⟨hp, he⟩

theorem confined_ofExcept {x : Except Fault α} (h : ∀ e, x = .error e → F e) :
    (ofExcept x : Act σ α).Confined P F := by
  cases x with
  | ok a => exact confined_pure a
  | error e => exact confined_throw (h e rfl)

theorem confined_note (e : Event) : (note e : Act σ Unit).Confined P F := by
  intro w hp
  rw [run_note]
  exact hp

theorem confined_drawId : (drawId : Act σ String).Confined P F := by
  intro w hp
  rw [run_drawId]
  exact hp

theorem Confined.bind_run {x : Act σ α} {f : α → Act σ β} (hx : x.Confined P F)
    (hf : ∀ w a w', x.run w = .ok a w' → (f a).Confined P F) : (x >>= f).Confined P F := by
  intro w hp
  rw [EStateM.run_bind]
  cases h : x.run w with
  | ok a w' => exact hf w a w' h w' (hx.of_ok hp h)
  | error e w' => exact hx.of_error hp h

theorem Confined.bind {x : Act σ α} {f : α → Act σ β} (hx : x.Confined P F)
    (hf : ∀ a, (f a).Confined P F) : (x >>= f).Confined P F :=
  hx.bind_run fun _ a _ _ => hf a

/-- What takes the place of a fault must be of the kind too. -/
theorem Confined.awaited {x : Act σ α} (hx : x.Confined P F) (kept : ∀ e, F e → F e.awaited) :
    x.awaited.Confined P F := by
  intro w hp
  rw [run_awaited]
  cases h : x.run w with
  | ok a w' => exact hx.of_ok hp h
  | error e w' => exact (hx.of_error hp h).imp_right (kept e)

/-- A handler meets faults of the kind only. -/
theorem Confined.guarding {x : Act σ α} {handler : Fault → Act σ Unit} (hx : x.Confined P F)
    (hh : ∀ e, F e → (handler e).Confined P F) : (x.guarding handler).Confined P F := by
  intro w hp
  rw [run_guarding]
  cases h : x.run w with
  | ok a w' => exact hx.of_ok hp h
  | error e w' =>
    obtain ⟨hp', he⟩ := hx.of_error hp h
    dsimp only
    cases h' : (handler e).run w' with
    | ok u w'' =>
      have still := (hh e he).of_ok hp' h'
      exact ⟨still, he⟩
    | error e' w'' =>
      have ended := (hh e he).of_error hp' h'
      exact ended

/-- An act whose outcome does not matter may fail with any fault. -/
theorem confined_discard_attempt {x : Act σ α} (hx : x.Confined P fun _ => True) :
    (do discard x.attempt : Act σ Unit).Confined P F := by
  intro w hp
  rw [run_discard_attempt]
  exact hx.after hp

end Act

/-- All that a feed does is confined; what it does when it is abandoned may fail in any way. -/
structure Feed.Confined (P : σ → Prop) (F : Fault → Prop) (feed : Feed σ α) : Prop where
  items : ∀ next ∈ feed.items, next.Confined P F
  finish : feed.finish.Confined P F
  abandon : ∀ taken e, (feed.abandon taken e).Confined P fun _ => True

namespace Feed

variable {P : σ → Prop} {F : Fault → Prop}

/-- Taking all items of a feed is confined, if the steps are, and what the feed does when one of
them fails. -/
theorem Confined.fold {feed : Feed σ α} (h : feed.Confined P F) {step : β → α → Act σ β}
    (hs : ∀ b a, (step b a).Confined P F)
    (left : ∀ taken e, F e → (feed.abandon taken e).Confined P F) (b : β) :
    (feed.fold step b).Confined P F := by
  have go (items : List (Act σ α)) (hi : ∀ next ∈ items, next.Confined P F) (taken : Nat) (b : β) :
      (feed.foldFrom step taken b items).Confined P F := by
    induction items generalizing taken b with
    | nil => exact h.finish.bind fun _ => Act.confined_pure b
    | cons next rest ih =>
      obtain ⟨first, others⟩ := List.forall_mem_cons.1 hi
      exact first.bind fun a => ((hs b a).guarding (left (taken + 1))).bind fun b' =>
        ih others (taken + 1) b'
  exact go feed.items h.items 0 b

end Feed

end Footage
