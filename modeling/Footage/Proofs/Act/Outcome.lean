/-!
# Outcomes of one step after another

A step that may fail ends with a value or a fault.  When one step goes on with the value of another,
the whole ends with a value only if both do (`exists_of_bind_ok`), and its fault is that of the
first step, or that of the second one after the first one has returned (`of_bind_error`).  Where the
fault of the second step does not depend on that value, it is simply the first fault of the two
(`faultOf_bind`).
-/

namespace Footage

variable {ε α β : Type} {x : Except ε α} {f : α → Except ε β}

theorem exists_of_bind_ok {b : β} (h : (x >>= f) = .ok b) : ∃ a, x = .ok a ∧ f a = .ok b := by
  cases x with
  | error e => cases h
  | ok a => exact ⟨a, rfl, h⟩

theorem of_bind_error {e : ε} (h : (x >>= f) = .error e) :
    x = .error e ∨ ∃ a, x = .ok a ∧ f a = .error e := by
  cases x with
  | error e' => exact .inl (by cases h; rfl)
  | ok a => exact .inr ⟨a, rfl, h⟩

/-- The fault that something ended with, if it did. -/
def faultOf : Except ε α → Option ε
  | .ok _ => none
  | .error e => some e

theorem faultOf_eq_some_iff {e : ε} : faultOf x = some e ↔ x = .error e := by
  cases x <;> simp [faultOf]

theorem faultOf_bind {o : Option ε} (h : ∀ a, faultOf (f a) = o) :
    faultOf (x >>= f) = (faultOf x).or o := by
  cases x with
  | ok a => exact h a
  | error e => rfl

theorem faultOf_bind_pure (g : α → β) :
    faultOf (do return g (← x) : Except ε β) = faultOf x := by
  cases x <;> rfl

end Footage
