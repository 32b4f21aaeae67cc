import Footage.Proofs.Act.Respects

/-!
# Events of a kind

`World.Shows` says which events of a kind a run has left, in their order.  What two runs show one
after the other is what the first one shows and then what the second one does (`World.Shows.trans`);
a run that adds no event of the kind shows nothing (`World.shows_nil_of_adds`).
-/

namespace Footage

variable {σ α β : Type} {p : Event → Bool}

namespace World

/-- From one world to a later one the events of a kind are just these, in order. -/
def Shows (p : Event → Bool) (w : World σ) (shown : List Event) (w' : World σ) : Prop :=
  ∃ events, w'.journal = w.journal ++ events ∧ events.filter p = shown

theorem shows_grow (w : World σ) (events : List Event) (ids : Nat) :
    w.Shows p (events.filter p) (w.grow events ids) :=
  ⟨events, rfl, rfl⟩

theorem shows_nil_of_adds {w w' : World σ} (h : w.Adds (p · = false) w') : w.Shows p [] w' := by
  obtain ⟨events, hj, he⟩ := h
  exact ⟨events, hj, List.filter_eq_nil_iff.2 fun e hm => by simp [he e hm]⟩

theorem Shows.trans {w₁ w₂ w₃ : World σ} {first second : List Event} (h₁ : w₁.Shows p first w₂)
    (h₂ : w₂.Shows p second w₃) : w₁.Shows p (first ++ second) w₃ := by
  obtain ⟨e₁, j₁, s₁⟩ := h₁
  obtain ⟨e₂, j₂, s₂⟩ := h₂
  exact ⟨e₁ ++ e₂, by rw [j₂, j₁, List.append_assoc], by rw [List.filter_append, s₁, s₂]⟩

theorem Adds.mono {P Q : Event → Prop} {w w' : World σ} (h : w.Adds P w')
    (imp : ∀ e, P e → Q e) : w.Adds Q w' := by
  obtain ⟨events, hj, he⟩ := h
  exact ⟨events, hj, fun e hm => imp e (he e hm)⟩

end World

theorem Act.adds_note {P : Event → Prop} {e : Event} (h : P e) :
    (note e : Act σ Unit).Respects (World.Adds P) :=
  respects_note fun w => World.adds_grow (fun e' he => by
    obtain rfl := List.mem_singleton.1 he
    exact h) w 0

namespace Act

variable {w w₁ : World σ} {shown more : List Event}

/-- What follows an act and shows nothing leaves what the act shows. -/
theorem shows_bind {x : Act σ α} {f : α → Act σ β} (hx : w.Shows p shown (x.after w))
    (hf : ∀ a w₁, x.run w = .ok a w₁ → w₁.Adds (p · = false) ((f a).after w₁)) :
    w.Shows p shown ((x >>= f).after w) := by
  cases h : x.run w with
  | ok a w₁ =>
    have next : (x >>= f).after w = (f a).after w₁ := by
      simp only [after, EStateM.run_bind, h]
    rw [after_of_ok h] at hx
    have both := hx.trans (World.shows_nil_of_adds (hf a w₁ h))
    rw [List.append_nil] at both
    rwa [next]
  | error e w₁ =>
    rw [after_of_error h] at hx
    rwa [after_of_error (x := x >>= f) (by rw [EStateM.run_bind, h])]

/-- After an act that shows nothing it is the rest that counts. -/
theorem shows_bind_of_run {x : Act σ α} {f : α → Act σ β} {a : α} (h : x.run w = .ok a w₁)
    (first : w.Shows p [] w₁) (rest : w₁.Shows p shown ((f a).after w₁)) :
    w.Shows p shown ((x >>= f).after w) := by
  have next : (x >>= f).after w = (f a).after w₁ := by
    simp only [after, EStateM.run_bind, h]
  rw [next]
  exact first.trans rest

theorem shows_guarding {x : Act σ α} {handler : Fault → Act σ Unit}
    (hx : w.Shows p shown (x.after w))
    (hh : ∀ e, (handler e).Respects (World.Adds (p · = false))) :
    w.Shows p shown ((x.guarding handler).after w) := by
  cases h : x.run w with
  | ok a w₁ =>
    rw [after_of_ok h] at hx
    rwa [after_of_ok (x := x.guarding handler) (by rw [run_guarding, h])]
  | error e w₁ =>
    have next : (x.guarding handler).after w = (handler e).after w₁ := by
      simp only [after, run_guarding, h]
      cases (handler e).run w₁ <;> rfl
    rw [after_of_error h] at hx
    have both := hx.trans (World.shows_nil_of_adds (hh e w₁))
    rw [List.append_nil] at both
    rwa [next]

end Act

end Footage
