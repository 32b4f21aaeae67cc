import Footage.Files
import Footage.Journal
import Footage.Proofs.Act.Respects
import Footage.Proofs.Disk.Paths

/-!
# What acts do to the disk

The journal holds every change of the disk, so it tells what was on the disk at any moment
(`Journal.disk`).  Two relations between worlds say what happens to the disk from one to the other.

* `World.Untouched` : nothing is changed.
* `World.Keeps P` : at every moment the disk has the property `P`, if it has it at first.

An act on files makes one change, or it fails and leaves the disk untouched (`Act.Changes`).
-/

namespace Footage

open Disk (Change)

variable {α : Type}

/-- The event is a change of the disk. -/
def Event.IsChange (e : Event) : Prop := ∃ c, e = changed c

/-- The disk after the changes in a journal. -/
def Journal.disk (d : Disk) (events : List Event) : Disk := (changes events).foldl Disk.after d

namespace Journal

@[simp] theorem disk_nil (d : Disk) : disk d [] = d := rfl

@[simp] theorem disk_append (d : Disk) (first second : List Event) :
    disk d (first ++ second) = disk (disk d first) second := by
  simp [disk, changes]

@[simp] theorem disk_changed (d : Disk) (c : Change) : disk d [.changed c] = d.after c := rfl

theorem disk_of_not_change {events : List Event} (h : ∀ e ∈ events, ¬ e.IsChange) (d : Disk) :
    disk d events = d := by
  have none : changes events = [] := by
    refine List.filterMap_eq_nil_iff.2 fun e he => ?_
    cases e with
    | changed c => exact absurd ⟨c, rfl⟩ (h _ he)
    | _ => rfl
  rw [disk, none, List.foldl_nil]

end Journal

namespace World

/-! ### Worlds with the same disk -/

/-- From the first world to the second one nothing happens to the disk, apart from troubles that
are met. -/
def Untouched (w w' : World Disk) : Prop :=
  w'.state.calm = w.state.calm ∧ w.Adds (¬ ·.IsChange) w'

instance : Std.Refl Untouched := ⟨fun w => ⟨rfl, refl_of _ w⟩⟩

instance : IsTrans (World Disk) Untouched where
  trans := fun _ _ _ h₁ h₂ => ⟨h₂.1.trans h₁.1, trans_of _ h₁.2 h₂.2⟩

/-- From the first world to the second one the disk has a property at every moment, if it has it
in the first one. -/
def Keeps (P : Disk → Prop) (w w' : World Disk) : Prop :=
  P w.state.calm → ∃ events, w'.journal = w.journal ++ events ∧
    w'.state.calm = Journal.disk w.state.calm events ∧
    ∀ past, past <+: events → P (Journal.disk w.state.calm past)

variable {P : Disk → Prop}

theorem Keeps.last {w w' : World Disk} (h : w.Keeps P w') (hp : P w.state.calm) :
    P w'.state.calm := by
  obtain ⟨events, -, hd, hk⟩ := h hp
  rw [hd]
  exact hk events List.prefix_rfl

theorem Untouched.keeps {w w' : World Disk} (h : w.Untouched w') : w.Keeps P w' := by
  intro hp
  obtain ⟨hd, events, hj, he⟩ := h
  refine ⟨events, hj, by rw [hd, Journal.disk_of_not_change he], fun past hpast => ?_⟩
  rwa [Journal.disk_of_not_change fun e hm => he e (hpast.subset hm)]

theorem Keeps.mono {Q : Disk → Prop} {w w' : World Disk} (h : w.Keeps P w')
    (hp : P w.state.calm) (imp : ∀ d, P d → Q d) : w.Keeps Q w' := by
  intro _
  obtain ⟨events, hj, hd, hk⟩ := h hp
  exact ⟨events, hj, hd, fun past hpast => imp _ (hk past hpast)⟩

instance : Std.Refl (Keeps P) := ⟨fun w => Untouched.keeps (refl_of _ w)⟩

instance : IsTrans (World Disk) (Keeps P) where
  trans := by
    intro w₁ w₂ w₃ h₁ h₂ hp
    obtain ⟨first, j₁, d₁, k₁⟩ := h₁ hp
    obtain ⟨second, j₂, d₂, k₂⟩ := h₂ (Keeps.last h₁ hp)
    refine ⟨first ++ second, by rw [j₂, j₁, List.append_assoc],
      by rw [d₂, d₁, Journal.disk_append], fun past hpast => ?_⟩
    -- A moment of the whole is one of the first part, or one of the second part after it.
    rcases List.prefix_or_prefix_of_prefix hpast (List.prefix_append first second) with h | h
    · exact k₁ past h
    · obtain ⟨rest, rfl⟩ := h
      rw [Journal.disk_append, ← d₁]
      exact k₂ rest ((List.prefix_append_right_inj first).1 hpast)

/-- The world after a change of the disk. -/
def change (w : World Disk) (c : Change) : World Disk :=
  { w with state := w.state.after c, journal := w.journal ++ [.changed c] }

@[simp] theorem calm_change (w : World Disk) (c : Change) :
    (w.change c).state.calm = w.state.calm.after c :=
  Disk.calm_after w.state c

theorem keeps_change {w : World Disk} {c : Change} (h : P (w.state.calm.after c)) :
    w.Keeps P (w.change c) := by
  intro hp
  refine ⟨[.changed c], rfl, by simp, fun past hpast => ?_⟩
  rcases List.prefix_cons_iff.1 hpast with rfl | ⟨rest, rfl, hrest⟩
  · exact hp
  · obtain rfl := List.prefix_nil.1 hrest
    exact h

end World

/-! ### Acts on files -/

namespace Act

/-- From a world an act makes one change of the disk, which is the one that is expected with what
it returns; or it fails, and the disk is untouched. -/
def Changes (x : Act Disk α) (w : World Disk) (expected : α → Change → Prop) : Prop :=
  match x.run w with
  | .ok a w' => ∃ c w₁, expected a c ∧ w.Untouched w₁ ∧ w' = w₁.change c
  | .error _ w' => w.Untouched w'

variable {expected : α → Change → Prop} {w : World Disk}

theorem changes_throw (e : Fault) : (throw e : Act Disk α).Changes w expected :=
  refl_of World.Untouched w

theorem Changes.of_ok {x : Act Disk α} {w' : World Disk} {a : α} (hx : x.Changes w expected)
    (h : x.run w = .ok a w') :
    ∃ c w₁, expected a c ∧ w.Untouched w₁ ∧ w' = w₁.change c := by
  unfold Changes at hx
  rwa [h] at hx

theorem Changes.of_error {x : Act Disk α} {w' : World Disk} {e : Fault}
    (hx : x.Changes w expected) (h : x.run w = .error e w') : w.Untouched w' := by
  unfold Changes at hx
  rwa [h] at hx

/-- The disk keeps a property if the change that is expected does not end it. -/
theorem Changes.keeps {P : Disk → Prop} {x : Act Disk α} (h : x.Changes w expected)
    (hc : ∀ a c, expected a c → P w.state.calm → P (w.state.calm.after c)) :
    w.Keeps P (x.after w) := by
  cases hx : x.run w with
  | error e w' =>
    rw [after_of_error hx]
    exact (h.of_error hx).keeps
  | ok a w' =>
    rw [after_of_ok hx]
    obtain ⟨c, w₁, he, ht, rfl⟩ := h.of_ok hx
    intro hp
    have changed : P (w₁.state.calm.after c) := ht.1 ▸ hc a c he hp
    exact trans_of (World.Keeps P) ht.keeps (World.keeps_change changed) hp

/-- What leaves the disk untouched may come before the change. -/
theorem Respects.changes {β : Type} {x : Act Disk β} {f : β → Act Disk α}
    (hx : x.Respects World.Untouched)
    (hf : ∀ b w₁, x.run w = .ok b w₁ → (f b).Changes w₁ expected) :
    (x >>= f).Changes w expected := by
  unfold Changes
  rw [EStateM.run_bind]
  cases h : x.run w with
  | error e w₁ => exact hx.of_error h
  | ok b w₁ =>
    have met := hx.of_ok h
    have next := hf b w₁ h
    dsimp only
    cases hr : (f b).run w₁ with
    | error e w₂ => exact trans_of _ met (next.of_error hr)
    | ok a w₂ =>
      obtain ⟨c, w₃, he, ht, rfl⟩ := next.of_ok hr
      exact ⟨c, w₃, he, trans_of _ met ht, rfl⟩

end Act

namespace Files

open Act (changes_throw)

variable {w : World Disk}

@[simp] theorem run_change (c : Change) (w : World Disk) :
    (change c).run w = .ok () (w.change c) := by
  simp [change, World.change, World.grow]

theorem changes_change {c : Change} {expected : Unit → Change → Prop} (h : expected () c) :
    (change c).Changes w expected := by
  unfold Act.Changes
  rw [run_change]
  exact ⟨c, w, h, refl_of _ w, rfl⟩

theorem changes_change_return {c : Change} {a : α} {expected : α → Change → Prop}
    (h : expected a c) : (do change c; return a).Changes w expected := by
  unfold Act.Changes
  rw [EStateM.run_bind, run_change]
  exact ⟨c, w, h, refl_of _ w, rfl⟩

theorem respects_meetTrouble : (meetTrouble).Respects World.Untouched := by
  intro w
  have met (rest : List (Option Fault)) :
      w.Untouched { w with state := { w.state with troubles := rest } } :=
    ⟨rfl, [], by simp⟩
  simp only [meetTrouble, Act.after, EStateM.run_bind, Act.run_state]
  cases w.state.troubles with
  | nil => exact refl_of _ w
  | cons next rest =>
    cases next with
    | none => exact met rest
    | some e => exact met rest

theorem respects_checkPath (path : String) : (checkPath path).Respects World.Untouched := by
  unfold checkPath
  split
  · exact Act.respects_throw _
  · exact Act.respects_pure ()

theorem changes_append (place : Place) (bytes : Bytes) :
    (append place bytes).Changes w fun _ c =>
      c = .written place (w.state.calm.content place ++ bytes) := by
  refine respects_meetTrouble.changes fun _ w₁ h => ?_
  refine Act.respects_state.changes fun d w₂ hd => ?_
  cases hd
  refine changes_change ?_
  rw [← (respects_meetTrouble.of_ok h).1, Disk.content_calm]

theorem changes_remove (place : Place) :
    (remove place).Changes w fun _ c => c = .removed place :=
  respects_meetTrouble.changes fun _ _ _ => changes_change rfl

/-- A temporary file that is made is empty and has a free name in the directory. -/
theorem changes_createTemporary (directory : Disk.Absolute) :
    (createTemporary directory).Changes w fun file c =>
      (w.state.freeName? directory.place).map directory.child = some file ∧
        c = .written file.place [] := by
  -- All checks come before the change, so a file that cannot be made leaves no trace.
  unfold createTemporary
  refine Act.respects_state.changes fun d w₁ hd => ?_
  cases hd
  cases hn : w.state.freeName? directory.place with
  | none => exact changes_throw _
  | some name =>
    refine (respects_checkPath _).changes fun _ w₁ _ => ?_
    dsimp only
    split
    · exact changes_throw _
    · split
      · exact changes_throw _
      · exact respects_meetTrouble.changes fun _ _ _ => changes_change_return ⟨rfl, rfl⟩

/-- A file is made where the path leads to. -/
theorem changes_create (path : String) :
    (create path).Changes w fun place c =>
      w.state.calm.Writable path place ∧ c = .written place [] := by
  unfold create
  refine (respects_checkPath _).changes fun _ w₁ h => ?_
  have same := ((respects_checkPath _).of_ok h).1
  refine Act.respects_state.changes fun d w₂ hd => ?_
  cases hd
  dsimp only
  split
  · exact changes_throw _
  · exact changes_throw _
  · exact changes_throw _
  · next directory name located =>
    split
    · exact changes_throw _
    · exact changes_throw _
    · next found file looked =>
      have writable : w₁.state.Writable path (directory ++ [name]) :=
        ⟨directory, name, found, located, looked, file, rfl⟩
      have before := same ▸ writable.calm
      exact respects_meetTrouble.changes fun _ _ _ => changes_change_return ⟨before, rfl⟩

/-- A file is moved to where the path leads to. -/
theorem changes_move (source : Disk.Absolute) (path : String) :
    (move source path).Changes w fun _ c =>
      ∃ place, w.state.calm.Writable path place ∧ c = .moved source.place place := by
  unfold move
  refine (respects_checkPath _).changes fun _ w₁ h => ?_
  have same := ((respects_checkPath _).of_ok h).1
  refine Act.respects_state.changes fun d w₂ hd => ?_
  cases hd
  dsimp only
  split
  · exact changes_throw _
  · exact changes_throw _
  · next directory name slash located =>
    split
    · exact changes_throw _
    · next found looked =>
      split
      · exact changes_throw _
      · next hs =>
        split
        · exact changes_throw _
        · next file =>
          rw [Bool.not_eq_true] at hs
          subst hs
          have writable : w₁.state.Writable path (directory ++ [name]) :=
            ⟨directory, name, found, located, looked, file, rfl⟩
          have before := same ▸ writable.calm
          exact respects_meetTrouble.changes fun _ _ _ => changes_change ⟨_, before, rfl⟩

end Files

end Footage
