import Footage.Proofs.Concurrent.Call
import Mathlib.Data.List.Induction
import Mathlib.Logic.Function.Basic

/-!
# Calls in progress at once

A `System` is one client and one service with any number of calls between them.  The calls share
the table of the service, the supply of request ids and the journal; what belongs to one call is in
its `Call`.  A schedule is a list of labels: a call goes on by one step of one of its sides, or the
table is changed.  `System.run` follows a schedule, whatever the order of its labels; a step that is
not possible when its turn comes does nothing.

Every event of the journal is marked with the call whose step noted it, and `System.own` is what one
call has noted.  A step of another call leaves a call and its own events as they are
(`System.step_frame`).
-/

namespace Footage.Concurrent

variable {ι σ : Type}

/-- What may happen next. -/
inductive Label (ι σ : Type) where
  /-- The table of the service is changed. -/
  | change (table : Store.Table σ)
  /-- The caller's side of a call goes on. -/
  | caller (i : ι)
  /-- The serving side of a call goes on. -/
  | server (i : ι)
  /-- The serving side of a call that was given up stops. -/
  | stop (i : ι)

/-- The call that the label is about. -/
def Label.call? : Label ι σ → Option ι
  | change _ => none
  | caller i | server i | stop i => some i

/-- One client and one service, with the calls between them. -/
structure System (ι σ : Type) where
  table : Store.Table σ
  supply : Nat → String
  drawn : Nat := 0
  /-- All that has happened, each event with the call that noted it. -/
  journal : List (ι × Event) := []
  calls : ι → Call σ

namespace System

/-- The world of a call: what is shared, and the state that belongs to the call. -/
def world (s : System ι σ) (i : ι) : World σ where
  journal := s.journal.map (·.2)
  drawn := s.drawn
  supply := s.supply
  state := (s.calls i).state

/-- The system before any call has begun, with the states that belong to the calls. -/
def fresh (table : Store.Table σ) (supply : Nat → String) (drawn : Nat) (states : ι → σ) :
    System ι σ where
  table
  supply
  drawn
  calls i := { state := states i }

variable [DecidableEq ι]

/-- What one call has noted. -/
def own (s : System ι σ) (i : ι) : List Event :=
  s.journal.filterMap fun entry => if entry.1 = i then some entry.2 else none

/-- Takes over what a step of a call has come to. -/
def absorb (s : System ι σ) (i : ι) :
    EStateM.Result Fault (World σ) (Call σ) → System ι σ
  | .ok call w =>
    { s with
      drawn := w.drawn
      journal := s.journal ++ (w.journal.drop s.journal.length).map (i, ·)
      calls := Function.update s.calls i { call with state := w.state } }
  | .error _ _ => s

variable (c : Client σ) (asked : ι → Asked σ)

/-- One step. -/
def step (s : System ι σ) : Label ι σ → System ι σ
  | .change table => { s with table }
  | .caller i => s.absorb i (((s.calls i).caller c (asked i)).run (s.world i))
  | .server i => s.absorb i (((s.calls i).server s.table).run (s.world i))
  | .stop i => s.absorb i ((s.calls i).stop.run (s.world i))

/-- Follows a schedule. -/
def run (s : System ι σ) (labels : List (Label ι σ)) : System ι σ := labels.foldl (step c asked) s

/-! ### What a step changes -/

variable {c asked} {s : System ι σ} {i j : ι}

@[simp] theorem run_append_singleton (labels : List (Label ι σ)) (l : Label ι σ) :
    s.run c asked (labels ++ [l]) = (s.run c asked labels).step c asked l := by
  simp [run]

/-- A step that has noted some events, and drawn some ids. -/
theorem absorb_ok {call : Call σ} {w : World σ} {events : List Event}
    (noted : w.journal = (s.world i).journal ++ events) :
    s.absorb i (.ok call w) =
      { s with
        drawn := w.drawn
        journal := s.journal ++ events.map (i, ·)
        calls := Function.update s.calls i { call with state := w.state } } := by
  simp [absorb, noted, world]

theorem own_append (s : System ι σ) (j : ι) (events : List Event) (i : ι) :
    ({ s with journal := s.journal ++ events.map (j, ·) } : System ι σ).own i =
      s.own i ++ if j = i then events else [] := by
  by_cases h : j = i
  · simp [own, h, List.filterMap_map]
  · simp [own, h, List.filterMap_map]

theorem absorb_supply (r : EStateM.Result Fault (World σ) (Call σ)) :
    (s.absorb i r).supply = s.supply := by
  cases r <;> rfl

theorem absorb_table (r : EStateM.Result Fault (World σ) (Call σ)) :
    (s.absorb i r).table = s.table := by
  cases r <;> rfl

theorem step_supply (s : System ι σ) (l : Label ι σ) :
    (s.step c asked l).supply = s.supply := by
  cases l with
  | change table => rfl
  | caller i => exact absorb_supply _
  | server i => exact absorb_supply _
  | stop i => exact absorb_supply _

theorem absorb_frame (h : j ≠ i) (r : EStateM.Result Fault (World σ) (Call σ)) :
    (s.absorb j r).calls i = s.calls i ∧ (s.absorb j r).own i = s.own i := by
  cases r with
  | error e w => exact ⟨rfl, rfl⟩
  | ok call w =>
    refine ⟨Function.update_of_ne (Ne.symm h) _ _, ?_⟩
    have kept := own_append s j (w.journal.drop s.journal.length) i
    rw [if_neg h, List.append_nil] at kept
    exact kept

/-- **A call is left as it is by what is not its own step.** -/
theorem step_frame {l : Label ι σ} (h : l.call? ≠ some i) :
    (s.step c asked l).calls i = s.calls i ∧ (s.step c asked l).own i = s.own i := by
  cases l with
  | change table => exact ⟨rfl, rfl⟩
  | caller j => exact absorb_frame (fun e => h (congrArg some e)) _
  | server j => exact absorb_frame (fun e => h (congrArg some e)) _
  | stop j => exact absorb_frame (fun e => h (congrArg some e)) _

/-- A property that all tables have is one of the table in force. -/
theorem run_table {P : Store.Table σ → Prop} (first : P s.table) {labels : List (Label ι σ)}
    (changes : ∀ table, .change table ∈ labels → P table) :
    P (s.run c asked labels).table := by
  induction labels using List.reverseRecOn with
  | nil => exact first
  | append_singleton labels l ih =>
    have before := ih fun table h => changes table (List.mem_append_left _ h)
    rw [run_append_singleton]
    cases l with
    | change table => exact changes table (by simp)
    | caller i => exact (absorb_table (s := run c asked s labels) _).symm ▸ before
    | server i => exact (absorb_table (s := run c asked s labels) _).symm ▸ before
    | stop i => exact (absorb_table (s := run c asked s labels) _).symm ▸ before

theorem run_supply (s : System ι σ) (labels : List (Label ι σ)) :
    (s.run c asked labels).supply = s.supply := by
  induction labels using List.reverseRecOn with
  | nil => rfl
  | append_singleton labels l ih => rw [run_append_singleton, step_supply, ih]

end System

end Footage.Concurrent
