import Footage.Feed
import Footage.Proofs.Act.Respects

/-!
# Taking items from a feed

`Feed.Takes` says, without the machinery of `Feed.fold`, what it is to take the items of a feed in
order with a step on each: it goes on up to the first failure, which is either the producer's or
the step's, and ends in one of three ways (`Feed.Ending`).

* `Feed.exists_takes`, `Feed.Takes.unique` : from every world, taking the items comes to just one
  ending.
* `Feed.run_fold` : folding a feed is taking its items; when the step fails, the producer is told
  before the fault goes on.
* `Feed.Takes.respects` : what the producer and the step respect is respected up to the ending.
-/

namespace Footage.Feed

variable {σ α β γ : Type}

/-- How taking items with a step came to its end. -/
inductive Ending (α β : Type) where
  /-- All items were taken and the producer finished, with what the steps have made. -/
  | complete (b : β)
  /-- The producer failed in place of the next item, or in place of finishing. -/
  | broken (e : Fault)
  /-- The step failed on an item. -/
  | refused (a : α) (e : Fault)

namespace Ending

/-- The ending with other items. -/
def map (f : α → γ) : Ending α β → Ending γ β
  | complete b => complete b
  | broken e => broken e
  | refused a e => refused (f a) e

/-- The ending as it looks when the producer's faults are seen as others. -/
def mapBroken (f : Fault → Fault) : Ending α β → Ending α β
  | complete b => complete b
  | broken e => broken (f e)
  | refused a e => refused a e

/-- The item on which the step failed, as a list. -/
def last : Ending α β → List α
  | refused a _ => [a]
  | _ => []

end Ending

/-- From what has been made so far and from a world, the items are taken in order: each is
produced and then goes through one step before the next one is asked for, until something fails.
The items that went through, the ending and the world at the ending follow. -/
inductive Takes (finish : Act σ Unit) (step : β → α → Act σ β) :
    List (Act σ α) → β → World σ → List α → Ending α β → World σ → Prop where
  | complete {b : β} {w w' : World σ} :
      finish.run w = .ok () w' → Takes finish step [] b w [] (.complete b) w'
  | unfinished {b : β} {w w' : World σ} {e : Fault} :
      finish.run w = .error e w' → Takes finish step [] b w [] (.broken e) w'
  | broken {next : Act σ α} {rest : List (Act σ α)} {b : β} {w w' : World σ} {e : Fault} :
      next.run w = .error e w' → Takes finish step (next :: rest) b w [] (.broken e) w'
  | refused {next : Act σ α} {rest : List (Act σ α)} {b : β} {w w₁ w' : World σ} {a : α}
      {e : Fault} :
      next.run w = .ok a w₁ → (step b a).run w₁ = .error e w' →
      Takes finish step (next :: rest) b w [] (.refused a e) w'
  | taken {next : Act σ α} {rest : List (Act σ α)} {b b' : β} {w w₁ w₂ w' : World σ} {a : α}
      {as : List α} {ending : Ending α β} :
      next.run w = .ok a w₁ → (step b a).run w₁ = .ok b' w₂ →
      Takes finish step rest b' w₂ as ending w' →
      Takes finish step (next :: rest) b w (a :: as) ending w'

/-- Taking items comes to some ending from every world. -/
theorem exists_takes (finish : Act σ Unit) (step : β → α → Act σ β) (items : List (Act σ α))
    (b : β) (w : World σ) : ∃ as ending w', Takes finish step items b w as ending w' := by
  -- On the items; the world and what has been made go on from one to the next.
  induction items generalizing b w with
  | nil =>
    cases h : finish.run w with
    | ok u w' => exact ⟨[], .complete b, w', .complete h⟩
    | error e w' => exact ⟨[], .broken e, w', .unfinished h⟩
  | cons next rest ih =>
    cases h : next.run w with
    | error e w' => exact ⟨[], .broken e, w', .broken h⟩
    | ok a w₁ =>
      cases hs : (step b a).run w₁ with
      | error e w' => exact ⟨[], .refused a e, w', .refused h hs⟩
      | ok b' w₂ =>
        obtain ⟨as, ending, w', ht⟩ := ih b' w₂
        exact ⟨a :: as, ending, w', .taken h hs ht⟩

/-- What taking items comes to is settled by the world that it starts from. -/
theorem Takes.unique {finish : Act σ Unit} {step : β → α → Act σ β} {items : List (Act σ α)}
    {b : β} {w w₁ w₂ : World σ} {first second : List α} {ending ending' : Ending α β}
    (h₁ : Takes finish step items b w first ending w₁)
    (h₂ : Takes finish step items b w second ending' w₂) :
    first = second ∧ ending = ending' ∧ w₁ = w₂ := by
  -- An act comes to one result from a world, so the second run goes the way of the first one.
  induction h₁ generalizing second with
  | complete h => cases h₂ <;> simp_all
  | unfinished h => cases h₂ <;> simp_all
  | broken h => cases h₂ <;> simp_all
  | refused h hs =>
    cases h₂ with
    | broken h' => simp_all
    | refused h' hs' =>
      rw [h] at h'; cases h'
      rw [hs] at hs'; cases hs'
      exact ⟨rfl, rfl, rfl⟩
    | taken h' hs' =>
      rw [h] at h'; cases h'
      rw [hs] at hs'; cases hs'
  | taken h hs _ ih =>
    cases h₂ with
    | broken h' => simp_all
    | refused h' hs' =>
      rw [h] at h'; cases h'
      rw [hs] at hs'; cases hs'
    | taken h' hs' rest =>
      rw [h] at h'; cases h'
      rw [hs] at hs'; cases hs'
      obtain ⟨rfl, rfl, rfl⟩ := ih rest
      exact ⟨rfl, rfl, rfl⟩

/-- What becomes of taking items for someone who waits for the result: after `taken` items, a step
that fails makes the producer abandon the feed. -/
def conclude (feed : Feed σ α) (taken : Nat) (w : World σ) :
    Ending α β → EStateM.Result Fault (World σ) β
  | .complete b => .ok b w
  | .broken e => .error e w
  | .refused _ e =>
    match (feed.abandon (taken + 1) e).run w with
    | .ok _ w => .error e w
    | .error e' w => .error e' w

theorem run_foldFrom (feed : Feed σ α) {step : β → α → Act σ β} {items : List (Act σ α)} {b : β}
    {w w' : World σ} {as : List α} {ending : Ending α β}
    (h : Takes feed.finish step items b w as ending w') (n : Nat) :
    (feed.foldFrom step n b items).run w = feed.conclude (n + as.length) w' ending := by
  -- Each item that went through is counted in `n` when the rest is taken.
  induction h generalizing n with
  | complete h => simp only [foldFrom, EStateM.run_bind, h, EStateM.run_pure, conclude]
  | unfinished h => simp only [foldFrom, EStateM.run_bind, h, conclude]
  | broken h => simp only [foldFrom, EStateM.run_bind, h, conclude]
  | @refused next rest b w w₁ w' a e h hs =>
    simp only [foldFrom, EStateM.run_bind, h, Act.run_guarding, hs, conclude, List.length_nil,
      Nat.add_zero]
    cases (feed.abandon (n + 1) e).run w' <;> rfl
  | taken h hs _ ih =>
    simp only [foldFrom, EStateM.run_bind, h, Act.run_guarding, hs, ih, List.length_cons]
    rw [Nat.add_right_comm, Nat.add_assoc]

/-- **Folding a feed is taking its items**, up to the first failure. -/
theorem run_fold (feed : Feed σ α) {step : β → α → Act σ β} {b : β} {w w' : World σ}
    {as : List α} {ending : Ending α β}
    (h : Takes feed.finish step feed.items b w as ending w') :
    (feed.fold step b).run w = feed.conclude as.length w' ending := by
  simpa [fold] using run_foldFrom feed h 0

/-! ### Relations that are respected -/

/-- Everything that the producer does respects a relation. -/
structure Respects (R : World σ → World σ → Prop) (feed : Feed σ α) : Prop where
  items : ∀ next ∈ feed.items, next.Respects R
  finish : feed.finish.Respects R
  abandon : ∀ taken e, (feed.abandon taken e).Respects R

theorem Respects.mono {R R' : World σ → World σ → Prop} {feed : Feed σ α} (h : feed.Respects R)
    (imp : ∀ w w', R w w' → R' w w') : feed.Respects R' where
  items next hn := (h.items next hn).mono imp
  finish := h.finish.mono imp
  abandon taken e := (h.abandon taken e).mono imp

/-- What the producer and the step respect is respected up to the ending. -/
theorem Takes.respects {R : World σ → World σ → Prop} [IsTrans _ R] {finish : Act σ Unit}
    {step : β → α → Act σ β} {items : List (Act σ α)} {b : β} {w w' : World σ} {as : List α}
    {ending : Ending α β} (h : Takes finish step items b w as ending w')
    (hf : finish.Respects R) (hi : ∀ next ∈ items, next.Respects R)
    (hs : ∀ b a, (step b a).Respects R) : R w w' := by
  induction h with
  | complete h => exact hf.of_ok h
  | unfinished h => exact hf.of_error h
  | broken h => exact (hi _ List.mem_cons_self).of_error h
  | refused h he => exact trans_of R ((hi _ List.mem_cons_self).of_ok h) ((hs _ _).of_error he)
  | taken h he _ ih =>
    have front := trans_of R ((hi _ List.mem_cons_self).of_ok h) ((hs _ _).of_ok he)
    exact trans_of R front (ih fun next hn => hi next (List.mem_cons_of_mem _ hn))

end Footage.Feed
