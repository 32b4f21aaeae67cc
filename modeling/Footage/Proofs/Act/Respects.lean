import Footage.Act
import Mathlib.Order.Defs.Unbundled

/-!
# Acts that respect a relation between worlds

`Act.after` is the world that an act leads to, whether it fails or not, and an act *respects* a
relation if that world is always related to the one that it starts from (`Act.Respects`).  For a
relation that is reflexive and transitive this goes through every way of putting acts together,
so that a statement of the form "nothing of that kind happens" is proved for the smallest acts
only.

`World.Adds P` is the relation that serves for journals: what is added to the journal is of the
kind `P`, and nothing that stood there goes away.
-/

namespace Footage

variable {σ α β : Type}

namespace Act

/-- The world that an act leads to, whether it fails or not. -/
def after (x : Act σ α) (w : World σ) : World σ :=
  match x.run w with
  | .ok _ w => w
  | .error _ w => w

theorem after_of_ok {x : Act σ α} {w w' : World σ} {a : α} (h : x.run w = .ok a w') :
    x.after w = w' := by
  simp only [after, h]

theorem after_of_error {x : Act σ α} {w w' : World σ} {e : Fault} (h : x.run w = .error e w') :
    x.after w = w' := by
  simp only [after, h]

@[simp] theorem run_discard_attempt (x : Act σ α) (w : World σ) :
    (do discard x.attempt : Act σ Unit).run w = .ok () (x.after w) := by
  have h : (do discard x.attempt : Act σ Unit).run w =
      (x.attempt >>= fun _ => pure ()).run w := by
    simp only [discard, Functor.discard, Functor.mapConst, EStateM.run, EStateM.map, bind,
      EStateM.bind, pure, EStateM.pure, Function.comp]
  rw [h, EStateM.run_bind, run_attempt]
  cases hx : x.run w with
  | ok a w' => rw [after_of_ok hx]; rfl
  | error e w' => rw [after_of_error hx]; rfl

/-- An act that is attempted comes to an outcome. -/
theorem exists_run_attempt (x : Act σ α) (w : World σ) :
    ∃ outcome w', (attempt x).run w = .ok outcome w' := by
  rw [run_attempt]
  cases x.run w with
  | ok a w' => exact ⟨_, w', rfl⟩
  | error e w' => exact ⟨_, w', rfl⟩

/-- An act that goes on with the value of another one returns only when both do. -/
theorem exists_of_run_bind_ok {x : Act σ α} {f : α → Act σ β} {w w' : World σ} {b : β}
    (h : (x >>= f).run w = .ok b w') :
    ∃ a w₁, x.run w = .ok a w₁ ∧ (f a).run w₁ = .ok b w' := by
  rw [EStateM.run_bind] at h
  cases hx : x.run w with
  | ok a w₁ =>
    rw [hx] at h
    exact ⟨a, w₁, rfl, h⟩
  | error e w₁ =>
    rw [hx] at h
    cases h

/-- Going on with an outcome depends only on how one goes on with its value, if it has one. -/
theorem ofExcept_bind_congr {x : Except Fault α} {f g : α → Act σ β}
    (h : ∀ a, x = .ok a → f a = g a) : (ofExcept x >>= f) = (ofExcept x >>= g) := by
  cases x with
  | ok a => exact h a rfl
  | error e => rfl

/-- A guarded act returns only when the act itself does, and then the handler is not run. -/
theorem run_of_guarding_ok {x : Act σ α} {handler : Fault → Act σ Unit} {w w' : World σ} {a : α}
    (h : (x.guarding handler).run w = .ok a w') : x.run w = .ok a w' := by
  rw [run_guarding] at h
  cases hx : x.run w with
  | ok b w₁ =>
    rw [hx] at h
    exact h
  | error e w₁ =>
    rw [hx] at h
    dsimp only at h
    split at h <;> cases h

/-- To wait for an act leads to the same world. -/
@[simp] theorem after_awaited (x : Act σ α) (w : World σ) : x.awaited.after w = x.after w := by
  simp only [after, run_awaited]
  cases x.run w <;> rfl

theorem run_awaited_eq_ok_iff {x : Act σ α} {w w' : World σ} {a : α} :
    x.awaited.run w = .ok a w' ↔ x.run w = .ok a w' := by
  rw [run_awaited]
  cases x.run w <;> simp [waited]

/-- The act leads only to worlds that are related to the one that it starts from. -/
def Respects (R : World σ → World σ → Prop) (x : Act σ α) : Prop := ∀ w, R w (x.after w)

section

variable {R : World σ → World σ → Prop}

theorem Respects.of_ok {x : Act σ α} {w w' : World σ} {a : α} (hx : x.Respects R)
    (h : x.run w = .ok a w') : R w w' :=
  after_of_ok h ▸ hx w

theorem Respects.of_error {x : Act σ α} {w w' : World σ} {e : Fault} (hx : x.Respects R)
    (h : x.run w = .error e w') : R w w' :=
  after_of_error h ▸ hx w

theorem respects_pure [Std.Refl R] (a : α) : (pure a : Act σ α).Respects R :=
  fun w => refl_of R w

theorem Respects.mono {R' : World σ → World σ → Prop} {x : Act σ α} (hx : x.Respects R)
    (h : ∀ w w', R w w' → R' w w') : x.Respects R' :=
  fun w => h w _ (hx w)

theorem respects_throw [Std.Refl R] (e : Fault) : (throw e : Act σ α).Respects R :=
  fun w => refl_of R w

theorem respects_ofExcept [Std.Refl R] (x : Except Fault α) :
    (ofExcept x : Act σ α).Respects R := by
  cases x with
  | ok a => exact respects_pure a
  | error e => exact respects_throw e

theorem respects_ofExcept_bind [Std.Refl R] {x : Except Fault α} {f : α → Act σ β}
    (h : ∀ a, x = .ok a → (f a).Respects R) : (ofExcept x >>= f).Respects R := by
  cases x with
  | ok a => exact h a rfl
  | error e => exact respects_throw e

theorem respects_state [Std.Refl R] : (state : Act σ σ).Respects R := fun w => refl_of R w

theorem respects_note {e : Event} (h : ∀ w, R w (w.grow [e])) : (note e).Respects R := by
  intro w
  rw [after_of_ok (run_note e w)]
  exact h w

theorem Respects.bind_run [IsTrans _ R] {x : Act σ α} {f : α → Act σ β} (hx : x.Respects R)
    {w : World σ} (hf : ∀ a w', x.run w = .ok a w' → R w' ((f a).after w')) :
    R w ((x >>= f).after w) := by
  cases h : x.run w with
  | ok a w' =>
    have hb : (x >>= f).after w = (f a).after w' := by
      simp only [after, EStateM.run_bind, h]
    rw [hb]
    exact trans_of R (hx.of_ok h) (hf a w' h)
  | error e w' =>
    rw [after_of_error (x := x >>= f) (by rw [EStateM.run_bind, h])]
    exact hx.of_error h

theorem Respects.bind [IsTrans _ R] {x : Act σ α} {f : α → Act σ β} (hx : x.Respects R)
    (hf : ∀ a, (f a).Respects R) : (x >>= f).Respects R :=
  fun _ => hx.bind_run fun a w' _ => hf a w'

theorem Respects.tryCatch [IsTrans _ R] {x : Act σ α} {handler : Fault → Act σ α}
    (hx : x.Respects R) (hh : ∀ e, (handler e).Respects R) :
    (MonadExcept.tryCatch x handler).Respects R := by
  intro w
  cases h : x.run w with
  | ok a w' =>
    rw [after_of_ok (x := MonadExcept.tryCatch x handler) (by rw [run_tryCatch, h])]
    exact hx.of_ok h
  | error e w' =>
    have hb : (MonadExcept.tryCatch x handler).after w = (handler e).after w' := by
      simp only [after, run_tryCatch, h]
    rw [hb]
    exact trans_of R (hx.of_error h) (hh e w')

theorem Respects.attempt [Std.Refl R] [IsTrans _ R] {x : Act σ α} (hx : x.Respects R) :
    (attempt x).Respects R := by
  unfold Act.attempt
  exact (hx.bind fun a => respects_pure _).tryCatch fun e => respects_pure _

theorem Respects.awaited {x : Act σ α} (hx : x.Respects R) : x.awaited.Respects R :=
  fun w => after_awaited x w ▸ hx w

theorem Respects.guarding [Std.Refl R] [IsTrans _ R] {x : Act σ α}
    {handler : Fault → Act σ Unit} (hx : x.Respects R) (hh : ∀ e, (handler e).Respects R) :
    (x.guarding handler).Respects R :=
  hx.tryCatch fun e => (hh e).bind fun _ => respects_throw e

theorem Respects.ensuring [Std.Refl R] [IsTrans _ R] {x : Act σ α} {last : Act σ Unit}
    (hx : x.Respects R) (hl : last.Respects R) : (x.ensuring last).Respects R :=
  (hx.guarding fun _ => hl).bind fun _ => hl.bind fun _ => respects_pure _

end

end Act

/-! ### What is added to the journal -/

/-- The second world has the journal of the first one with events of a kind added. -/
def World.Adds (P : Event → Prop) (w w' : World σ) : Prop :=
  ∃ events, w'.journal = w.journal ++ events ∧ ∀ e ∈ events, P e

namespace World

/-- A world in which nothing has happened yet, and where all ids are the same. -/
def fresh (s : σ) : World σ where
  supply _ := "id"
  state := s

variable {P : Event → Prop}

theorem adds_grow {events : List Event} (h : ∀ e ∈ events, P e) (w : World σ) (ids : Nat) :
    w.Adds P (w.grow events ids) :=
  ⟨events, rfl, h⟩

instance : Std.Refl (Adds P (σ := σ)) := ⟨fun _ => ⟨[], by simp⟩⟩

instance : IsTrans (World σ) (Adds P) where
  trans := by
    rintro w₁ w₂ w₃ ⟨first, h₁, p₁⟩ ⟨second, h₂, p₂⟩
    refine ⟨first ++ second, by rw [h₂, h₁, List.append_assoc], fun e he => ?_⟩
    rcases List.mem_append.1 he with he | he
    · exact p₁ e he
    · exact p₂ e he

end World

end Footage
