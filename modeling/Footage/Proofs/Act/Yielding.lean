import Footage.Feed
import Mathlib.Data.List.Forall2

/-!
# Acts that yield something

An act *yields* something of a kind (`Act.Yields`) if from every world it returns such a thing and
leaves the surroundings as they are.  This goes through the ways of putting acts together.  A feed
yields values (`Feed.Yields`) if its items do, one after the other, and the producer then finishes.
-/

namespace Footage

variable {σ α β : Type}

/-- From every world the act returns something of the kind, and it leaves the surroundings as they
are. -/
def Act.Yields (P : α → Prop) (x : Act σ α) : Prop :=
  ∀ w, ∃ a w', x.run w = .ok a w' ∧ P a ∧ w'.state = w.state

namespace Act

variable {P : α → Prop} {Q : β → Prop}

theorem yields_pure {a : α} (h : P a) : (pure a : Act σ α).Yields P :=
  fun w => ⟨a, w, rfl, h, rfl⟩

theorem yields_note (e : Event) : (note e : Act σ Unit).Yields fun _ => True :=
  fun w => ⟨(), w.grow [e], run_note e w, trivial, rfl⟩

theorem yields_drawId : (drawId : Act σ String).Yields fun _ => True :=
  fun w => ⟨w.supply w.drawn, w.grow [] 1, run_drawId w, trivial, rfl⟩

theorem Yields.bind {x : Act σ α} {f : α → Act σ β} (hx : x.Yields P)
    (hf : ∀ a, P a → (f a).Yields Q) : (x >>= f).Yields Q := by
  intro w
  obtain ⟨a, w₁, ran, ha, still⟩ := hx w
  obtain ⟨b, w₂, ran', hb, still'⟩ := hf a ha w₁
  refine ⟨b, w₂, ?_, hb, still'.trans still⟩
  rw [EStateM.run_bind, ran]
  exact ran'

/-- The handler of an act that yields something is not needed. -/
theorem Yields.guarding {x : Act σ α} (hx : x.Yields P) (handler : Fault → Act σ Unit) :
    (x.guarding handler).Yields P := by
  intro w
  obtain ⟨a, w', ran, ha, still⟩ := hx w
  exact ⟨a, w', by rw [run_guarding, ran], ha, still⟩

end Act

/-- The items of the feed come to these values one after the other, and then it is finished. -/
structure Feed.Yields (value : α → β) (values : List β) (feed : Feed σ α) : Prop where
  items : List.Forall₂ (fun next b => Act.Yields (value · = b) next) feed.items values
  finish : feed.finish.Yields fun _ => True

end Footage
