import Footage.Feed
import Footage.Proofs.Act.Respects
import Mathlib.Data.List.Forall2

/-!
# Two acts side by side

Two acts *agree* under a relation between worlds (`Act.Agree`) if from related worlds they come to
related values, or both to the same fault, and to related worlds again.  This goes through every way
of putting acts together and through taking all items of two feeds (`Feed.Agree.fold`), so that a
statement about two runs is proved for the smallest acts only.

An act is *blind* (`Act.Blind`) if it agrees with itself from worlds that differ in nothing but what
happened before: it does not look at the journal.
-/

namespace Footage

variable {σ α β γ δ : Type}

namespace Act

/-- Two runs came to related values, or both to the same fault, and to related worlds. -/
inductive Matches (R : World σ → World σ → Prop) (S : α → β → Prop) :
    EStateM.Result Fault (World σ) α → EStateM.Result Fault (World σ) β → Prop where
  | ok {a : α} {b : β} {v w : World σ} : S a b → R v w → Matches R S (.ok a v) (.ok b w)
  | error {e : Fault} {v w : World σ} : R v w → Matches R S (.error e v) (.error e w)

/-- From related worlds two acts come to related values, or both to the same fault, and to related
worlds. -/
def Agree (R : World σ → World σ → Prop) (S : α → β → Prop) (x : Act σ α) (y : Act σ β) : Prop :=
  ∀ v w, R v w → Matches R S (x.run v) (y.run w)

variable {R : World σ → World σ → Prop} {S : α → β → Prop} {T : γ → δ → Prop}

/-- The two ways in which acts that agree end. -/
theorem Agree.cases {x : Act σ α} {y : Act σ β} (h : Agree R S x y) {v w : World σ} (hr : R v w) :
    (∃ a b v' w', x.run v = .ok a v' ∧ y.run w = .ok b w' ∧ S a b ∧ R v' w') ∨
      ∃ e v' w', x.run v = .error e v' ∧ y.run w = .error e w' ∧ R v' w' := by
  have ended := h v w hr
  generalize x.run v = p at ended ⊢
  generalize y.run w = q at ended ⊢
  cases ended with
  | ok hs hr => exact .inl ⟨_, _, _, _, rfl, rfl, hs, hr⟩
  | error hr => exact .inr ⟨_, _, _, rfl, rfl, hr⟩

theorem agree_pure {a : α} {b : β} (h : S a b) :
    Agree R S (pure a : Act σ α) (pure b : Act σ β) :=
  fun _ _ hr => .ok h hr

theorem agree_throw (e : Fault) : Agree R S (throw e : Act σ α) (throw e : Act σ β) :=
  fun _ _ hr => .error hr

theorem agree_ofExcept {x : Except Fault α} : Agree R Eq (ofExcept x : Act σ α) (ofExcept x) := by
  cases x with
  | ok a => exact agree_pure rfl
  | error e => exact agree_throw e

theorem agree_note {e f : Event} (h : ∀ v w, R v w → R (v.grow [e]) (w.grow [f])) :
    Agree R Eq (note e : Act σ Unit) (note f) := by
  intro v w hr
  rw [run_note, run_note]
  exact .ok rfl (h v w hr)

theorem Agree.bind {x : Act σ α} {y : Act σ β} {f : α → Act σ γ} {g : β → Act σ δ}
    (h : Agree R S x y) (hf : ∀ a b, S a b → Agree R T (f a) (g b)) :
    Agree R T (x >>= f) (y >>= g) := by
  intro v w hr
  rw [EStateM.run_bind, EStateM.run_bind]
  rcases h.cases hr with ⟨a, b, v', w', hx, hy, hs, hr'⟩ | ⟨e, v', w', hx, hy, hr'⟩
  · rw [hx, hy]
    exact hf a b hs v' w' hr'
  · rw [hx, hy]
    exact .error hr'

/-- After acts that come to equal values it is enough to look at one value at a time. -/
theorem Agree.bind_eq {x y : Act σ α} {f : α → Act σ γ} {g : α → Act σ δ} (h : Agree R Eq x y)
    (hf : ∀ a, Agree R T (f a) (g a)) : Agree R T (x >>= f) (y >>= g) :=
  h.bind fun a _ hab => hab ▸ hf a

/-- What is known of the values of the first act may be used for both. -/
theorem Agree.with_value {P : α → Prop} {x : Act σ α} {y : Act σ β} (h : Agree R S x y)
    (hp : ∀ v a v', x.run v = .ok a v' → P a) : Agree R (fun a b => S a b ∧ P a) x y := by
  intro v w hr
  rcases h.cases hr with ⟨a, b, v', w', hx, hy, hs, hr'⟩ | ⟨e, v', w', hx, hy, hr'⟩
  · rw [hx, hy]
    exact .ok ⟨hs, hp v a v' hx⟩ hr'
  · rw [hx, hy]
    exact .error hr'

theorem Agree.tryCatch {x : Act σ α} {y : Act σ β} {f : Fault → Act σ α} {g : Fault → Act σ β}
    (h : Agree R S x y) (hf : ∀ e, Agree R S (f e) (g e)) :
    Agree R S (MonadExcept.tryCatch x f) (MonadExcept.tryCatch y g) := by
  intro v w hr
  rw [run_tryCatch, run_tryCatch]
  rcases h.cases hr with ⟨a, b, v', w', hx, hy, hs, hr'⟩ | ⟨e, v', w', hx, hy, hr'⟩
  · rw [hx, hy]
    exact .ok hs hr'
  · rw [hx, hy]
    exact hf e v' w' hr'

theorem Agree.attempt {x y : Act σ α} (h : Agree R Eq x y) :
    Agree R Eq (Act.attempt x) (Act.attempt y) := by
  unfold Act.attempt
  exact (h.bind_eq fun a => agree_pure rfl).tryCatch fun e => agree_pure rfl

theorem Agree.awaited {x : Act σ α} {y : Act σ β} (h : Agree R S x y) :
    Agree R S x.awaited y.awaited :=
  h.tryCatch fun e => agree_throw e.awaited

theorem Agree.guarding {x : Act σ α} {y : Act σ β} {f g : Fault → Act σ Unit} (h : Agree R S x y)
    (hf : ∀ e, Agree R Eq (f e) (g e)) : Agree R S (x.guarding f) (y.guarding g) :=
  h.tryCatch fun e => (hf e).bind_eq fun _ => agree_throw e

/-- Of acts whose outcomes do not matter only the worlds do. -/
theorem Agree.discard_attempt {x y : Act σ α} (h : Agree R Eq x y) :
    Agree R Eq (do discard x.attempt : Act σ Unit) (do discard y.attempt) := by
  intro v w hr
  rw [run_discard_attempt, run_discard_attempt]
  rcases h.cases hr with ⟨a, b, v', w', hx, hy, -, hr'⟩ | ⟨e, v', w', hx, hy, hr'⟩
  · rw [after_of_ok hx, after_of_ok hy]
    exact .ok rfl hr'
  · rw [after_of_error hx, after_of_error hy]
    exact .ok rfl hr'

end Act

/-! ### Feeds -/

/-- All that two feeds do agrees, step by step. -/
structure Feed.Agree (R : World σ → World σ → Prop) (f g : Feed σ α) : Prop where
  items : List.Forall₂ (Act.Agree R Eq) f.items g.items
  finish : Act.Agree R Eq f.finish g.finish
  abandon : ∀ taken e, Act.Agree R Eq (f.abandon taken e) (g.abandon taken e)

/-- Taking all items of two feeds agrees, with steps that do. -/
theorem Feed.Agree.fold {R : World σ → World σ → Prop} {f g : Feed σ α} (h : f.Agree R g)
    {step step' : β → α → Act σ β} (hs : ∀ b a, Act.Agree R Eq (step b a) (step' b a)) (b : β) :
    Act.Agree R Eq (f.fold step b) (g.fold step' b) := by
  -- On the items, which are the same in number; each pair is taken after the same values.
  have go {xs ys : List (Act σ α)} (items : List.Forall₂ (Act.Agree R Eq) xs ys) (taken : Nat)
      (b : β) :
      Act.Agree R Eq (f.foldFrom step taken b xs) (g.foldFrom step' taken b ys) := by
    induction items generalizing taken b with
    | nil => exact h.finish.bind_eq fun _ => Act.agree_pure rfl
    | cons first _ ih =>
      refine first.bind_eq fun a => Act.Agree.bind_eq ?_ fun b' => ih (taken + 1) b'
      exact (hs b a).guarding (h.abandon (taken + 1))
  exact go h.items 0 b

/-! ### Acts that do not look back -/

/-- Two worlds are the same but for what their journals began with. -/
def World.Twins (past past' : List Event) (v w : World σ) : Prop :=
  v.drawn = w.drawn ∧ v.supply = w.supply ∧ v.state = w.state ∧
    ∃ events, v.journal = past ++ events ∧ w.journal = past' ++ events

/-- What the act comes to, and what it adds to the journal, does not depend on what stood in the
journal before. -/
def Act.Blind (x : Act σ α) : Prop := ∀ past past', Act.Agree (World.Twins past past') Eq x x

/-- Nothing that a feed does depends on what stood in the journal before. -/
structure Feed.Blind (feed : Feed σ α) : Prop where
  items : ∀ next ∈ feed.items, next.Blind
  finish : feed.finish.Blind
  abandon : ∀ taken e, (feed.abandon taken e).Blind

namespace Act

theorem blind_pure (a : α) : (pure a : Act σ α).Blind := fun _ _ => agree_pure rfl

theorem blind_throw (e : Fault) : (throw e : Act σ α).Blind := fun _ _ => agree_throw e

theorem blind_ofExcept (x : Except Fault α) : (ofExcept x : Act σ α).Blind :=
  fun _ _ => agree_ofExcept

theorem Blind.bind {x : Act σ α} {f : α → Act σ β} (hx : x.Blind) (hf : ∀ a, (f a).Blind) :
    (x >>= f).Blind :=
  fun past past' => (hx past past').bind_eq fun a => hf a past past'

end Act

end Footage
