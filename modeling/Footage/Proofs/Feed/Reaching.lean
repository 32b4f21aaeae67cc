import Footage.Proofs.Act.Showing
import Footage.Proofs.Feed.Taking

/-!
# Between two items of a feed

`Feed.Takes` says how taking the items of a feed ends.  `Feed.Reaches` says where it stands on the
way: some items have gone through their steps, the producer has not been asked for the next one yet.
The moments in between are those of the one run that there is.

* `Feed.Takes.exists_reaches`, `Feed.Reaches.takes` : the ending follows on the moment when the
  last item has gone through.
* `Feed.Reaches.prefix_of_takes` : at every moment the items that have gone through are the first
  ones of those that go through in the end.
* `Feed.Reaches.shows` : where each step shows something of its own and the producer nothing, what
  is shown at a moment is what the items that have gone through show, in their order.
-/

namespace Footage.Feed

variable {σ α β : Type} {step : β → α → Act σ β}

/-- From what has been made so far and from a world, some items are produced and go each through
its step.  These items, the acts that are still to be asked for, what has then been made and the
world follow. -/
inductive Reaches (step : β → α → Act σ β) :
    List (Act σ α) → β → World σ → List α → List (Act σ α) → β → World σ → Prop where
  | here {items : List (Act σ α)} {b : β} {w : World σ} : Reaches step items b w [] items b w
  | taken {next : Act σ α} {rest todo : List (Act σ α)} {b b₁ b' : β} {w w₁ w₂ w' : World σ}
      {a : α} {as : List α} :
      next.run w = .ok a w₁ → (step b a).run w₁ = .ok b₁ w₂ →
      Reaches step rest b₁ w₂ as todo b' w' →
      Reaches step (next :: rest) b w (a :: as) todo b' w'

variable {items todo : List (Act σ α)} {b b' : β} {w w' w₁ : World σ} {as done : List α}
  {ending : Ending α β} {finish : Act σ Unit}

/-- The acts that are still to be asked for are those behind as many as items have gone through. -/
theorem Reaches.exists_append (h : Reaches step items b w as todo b' w') :
    ∃ front, items = front ++ todo ∧ front.length = as.length := by
  induction h with
  | here => exact ⟨[], rfl, rfl⟩
  | @taken next rest todo b b₁ b' w w₁ w₂ w' a as _ _ _ ih =>
    obtain ⟨front, rfl, length⟩ := ih
    exact ⟨next :: front, rfl, by rw [List.length_cons, List.length_cons, length]⟩

/-- Taking the items comes to its ending from the moment when the last one has gone through. -/
theorem Takes.exists_reaches (h : Takes finish step items b w as ending w') :
    ∃ todo b' w₁, Reaches step items b w as todo b' w₁ ∧
      Takes finish step todo b' w₁ [] ending w' := by
  induction h with
  | complete h => exact ⟨_, _, _, .here, .complete h⟩
  | unfinished h => exact ⟨_, _, _, .here, .unfinished h⟩
  | broken h => exact ⟨_, _, _, .here, .broken h⟩
  | refused h hs => exact ⟨_, _, _, .here, .refused h hs⟩
  | taken h hs _ ih =>
    obtain ⟨todo, b', w₁, reached, last⟩ := ih
    exact ⟨todo, b', w₁, .taken h hs reached, last⟩

/-- What taking the rest comes to from a moment is what taking all items comes to. -/
theorem Reaches.takes (h : Reaches step items b w done todo b' w₁)
    (last : Takes finish step todo b' w₁ as ending w') :
    Takes finish step items b w (done ++ as) ending w' := by
  induction h with
  | here => exact last
  | taken h hs _ ih => exact .taken h hs (ih last)

/-- Every moment is one on the way to the ending. -/
theorem Reaches.prefix_of_takes (h : Reaches step items b w done todo b' w₁)
    (takes : Takes finish step items b w as ending w') :
    ∃ rest, as = done ++ rest ∧ Takes finish step todo b' w₁ rest ending w' := by
  -- What an act comes to is settled, so both go the same way as long as items go through.
  induction h generalizing as with
  | here => exact ⟨as, rfl, takes⟩
  | taken h hs _ ih =>
    cases takes with
    | broken h' => cases h.symm.trans h'
    | refused h' hs' =>
      cases h.symm.trans h'
      cases hs.symm.trans hs'
    | taken h' hs' takes =>
      cases h.symm.trans h'
      cases hs.symm.trans hs'
      obtain ⟨rest, rfl, last⟩ := ih takes
      exact ⟨rest, rfl, last⟩

/-- **What is shown at a moment is what the items before it show**, where the producer shows
nothing. -/
theorem Reaches.shows {p : Event → Bool} {shown : α → List Event}
    (quiet : ∀ next ∈ items, next.Respects (World.Adds (p · = false)))
    (each : ∀ b a b' w w', (step b a).run w = .ok b' w' → w.Shows p (shown a) w')
    (h : Reaches step items b w as todo b' w') : w.Shows p (as.flatMap shown) w' := by
  induction h with
  | here => exact World.shows_nil_of_adds (refl_of _ _)
  | taken h hs _ ih =>
    obtain ⟨first, others⟩ := List.forall_mem_cons.1 quiet
    have produced := World.shows_nil_of_adds (first.of_ok h)
    simpa using (produced.trans (each _ _ _ _ _ hs)).trans (ih others)

end Footage.Feed
