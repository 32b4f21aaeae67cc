import Footage.Proofs.Act.Agreeing

/-!
# Acts within a part of the world

A `Part` is something of the world that can be read and replaced.  An act is *within* a part
(`Act.Within`) if it depends on nothing else and changes nothing else: from two worlds with the same
part it comes to the same, and both worlds end with the same part in place of the former one.

The surroundings of a call have two parts here, one on the side of whoever serves the call
(`Part.far`) and one on the side of whoever makes it (`Part.near`).  With the journal the latter is
all that the maker of a call deals with (`Part.talk`).
-/

namespace Footage

variable {σ κ α β : Type}

/-- Something of the world that can be read and replaced. -/
structure Part (σ κ : Type) where
  get : World σ → κ
  put : κ → World σ → World σ
  get_put : ∀ k w, get (put k w) = k
  put_get : ∀ w, put (get w) w = w
  put_put : ∀ k l w, put k (put l w) = put k w

attribute [simp] Part.get_put Part.put_get Part.put_put

namespace Part

variable {φ ν : Type}

/-- What the serving side keeps. -/
@[simps]
def far : Part (φ × ν) φ where
  get w := w.state.1
  put k w := { w with state := (k, w.state.2) }
  get_put _ _ := rfl
  put_get _ := rfl
  put_put _ _ _ := rfl

/-- What the caller's side keeps. -/
@[simps]
def near : Part (φ × ν) ν where
  get w := w.state.2
  put k w := { w with state := (w.state.1, k) }
  get_put _ _ := rfl
  put_get _ := rfl
  put_put _ _ _ := rfl

/-- The journal, and what the caller's side keeps. -/
@[simps]
def talk : Part (φ × ν) (List Event × ν) where
  get w := (w.journal, w.state.2)
  put k w := { w with journal := k.1, state := (w.state.1, k.2) }
  get_put _ _ := rfl
  put_get _ := rfl
  put_put _ _ _ := rfl

/-- Two worlds have come from two others, with the same part in place of the former ones. -/
def Alike (p : Part σ κ) (v₀ w₀ v w : World σ) : Prop := ∃ k, v = p.put k v₀ ∧ w = p.put k w₀

theorem alike_of_get_eq {p : Part σ κ} {v w : World σ} (h : p.get v = p.get w) :
    p.Alike v w v w :=
  ⟨p.get v, (p.put_get v).symm, by rw [h, p.put_get]⟩

end Part

namespace Act

/-- The act depends on a part of the world only, and changes nothing else. -/
def Within (p : Part σ κ) (x : Act σ α) : Prop := ∀ v w, Agree (p.Alike v w) Eq x x

variable {p : Part σ κ}

/-- What an act within a part comes to from two worlds with the same part. -/
theorem Within.cases {x : Act σ α} (h : x.Within p) {v w : World σ} (same : p.get v = p.get w) :
    (∃ a k, x.run v = .ok a (p.put k v) ∧ x.run w = .ok a (p.put k w)) ∨
      ∃ e k, x.run v = .error e (p.put k v) ∧ x.run w = .error e (p.put k w) := by
  rcases (h v w).cases (Part.alike_of_get_eq same) with
    ⟨a, _, _, _, hv, hw, rfl, k, rfl, rfl⟩ | ⟨e, _, _, hv, hw, k, rfl, rfl⟩
  · exact .inl ⟨a, k, hv, hw⟩
  · exact .inr ⟨e, k, hv, hw⟩

theorem Within.of_ok {x : Act σ α} (h : x.Within p) {v w v' : World σ} {a : α}
    (same : p.get v = p.get w) (run : x.run v = .ok a v') :
    ∃ k, v' = p.put k v ∧ x.run w = .ok a (p.put k w) := by
  rcases h.cases same with ⟨b, k, hv, hw⟩ | ⟨e, k, hv, -⟩
  · rw [run] at hv
    cases hv
    exact ⟨k, rfl, hw⟩
  · rw [run] at hv
    cases hv

theorem Within.exists_after {x : Act σ α} (h : x.Within p) (w : World σ) :
    ∃ k, x.after w = p.put k w := by
  rcases h.cases (v := w) rfl with ⟨a, k, run, -⟩ | ⟨e, k, run, -⟩
  · exact ⟨k, after_of_ok run⟩
  · exact ⟨k, after_of_error run⟩

theorem within_pure (a : α) : (pure a : Act σ α).Within p := fun _ _ => agree_pure rfl

theorem Within.bind {x : Act σ α} {f : α → Act σ β} (hx : x.Within p) (hf : ∀ a, (f a).Within p) :
    (x >>= f).Within p :=
  fun v w => (hx v w).bind_eq fun a => hf a v w

theorem Within.tryCatch {x : Act σ α} {handler : Fault → Act σ α} (hx : x.Within p)
    (hh : ∀ e, (handler e).Within p) : (MonadExcept.tryCatch x handler).Within p :=
  fun v w => (hx v w).tryCatch fun e => hh e v w

end Act

/-- All that the feed does is within a part of the world. -/
structure Feed.Within (p : Part σ κ) (feed : Feed σ α) : Prop where
  items : ∀ next ∈ feed.items, next.Within p
  finish : feed.finish.Within p
  abandon : ∀ taken e, (feed.abandon taken e).Within p

end Footage
