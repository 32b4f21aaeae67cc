import Footage.Journal
import Footage.Proofs.Log.Configuring

/-!
# What each event brings to the console

The standard error output of a run is put together from what its events bring to it, each in its
turn (`Journal.transcript`, `Journal.errorOutput_eq`).  What an event brings depends only on itself
and on how often, and with which levels, the console has been configured before
(`Journal.getElem?_transcript`).  So in a whole journal, however often the console is configured on
the way, every entry is written as often as the levels before it say
(`Journal.getElem?_transcript_logged`).
-/

namespace Footage.Journal

open Log (Console Entry Level copies)

variable {time : String} {c c₀ : Console} {journal : List Event}

/-- The levels with which the console is configured, in order. -/
def configured (journal : List Event) : List Level :=
  journal.filterMap fun
    | .configured level => some level
    | _ => none

theorem configured_append (past rest : List Event) :
    configured (past ++ rest) = configured past ++ configured rest :=
  List.filterMap_append

theorem configured_eq_nil (h : ∀ e ∈ journal, ∀ level, e ≠ .configured level) :
    configured journal = [] := by
  rw [configured, List.filterMap_eq_nil_iff]
  intro e he
  cases e with
  | configured level => exact absurd rfl (h _ he level)
  | _ => rfl

/-- The texts that an event brings to the standard error output. -/
def errorTexts (time : String) (c : Console) : Event → List String
  | .logged entry => c.lines time entry
  | .complained text => [text]
  | _ => []

/-- The events, each with the texts that it brings to the standard error output. -/
def transcript (time : String) (c : Console) : List Event → List (Event × List String)
  | [] => []
  | e :: rest => (e, errorTexts time c e) :: transcript time ((configured [e]).foldl .add c) rest

/-- The output is what the events bring to it, in their order. -/
theorem errorOutput_eq (time : String) (c : Console) (journal : List Event) :
    errorOutput time c journal = String.join ((transcript time c journal).flatMap (·.2)) := by
  induction journal generalizing c with
  | nil => rfl
  | cons e rest ih =>
    rw [transcript, List.flatMap_cons, String.join_append, ← ih]
    cases e <;> simp [errorOutput, errorTexts, configured]

theorem map_fst_transcript (time : String) (c : Console) (journal : List Event) :
    (transcript time c journal).map (·.1) = journal := by
  induction journal generalizing c with
  | nil => rfl
  | cons e rest ih => rw [transcript, List.map_cons, ih]

/-- What an event brings depends on the events before it through the console. -/
theorem getElem?_transcript (time : String) (c : Console) (journal : List Event) (i : Nat) :
    (transcript time c journal)[i]? = journal[i]?.map fun e =>
      (e, errorTexts time ((configured (journal.take i)).foldl .add c) e) := by
  induction journal generalizing c i with
  | nil => rfl
  | cons e rest ih =>
    cases i with
    | zero => rfl
    | succ i =>
      have split : configured (e :: rest.take i) = configured [e] ++ configured (rest.take i) :=
        configured_append [e] _
      rw [transcript, List.getElem?_cons_succ, List.getElem?_cons_succ, List.take_succ_cons, ih,
        split, List.foldl_append]

/-- **Every entry is written as often as the levels before it say.** -/
theorem getElem?_transcript_logged (fresh : c.Fresh)
    (set : ∀ l, .configured l ∈ journal → l ≠ .notset) {i : Nat} {e : Entry}
    (logged : journal[i]? = some (.logged e)) (alone : c.Inherits e.logger) (time : String) :
    (transcript time c journal)[i]? =
      some (.logged e,
        List.replicate (copies (configured (journal.take i)) e.level) (e.line time)) := by
  have before : ∀ l ∈ configured (journal.take i), l ≠ .notset := by
    intro l hl
    obtain ⟨e', he', same⟩ := List.mem_filterMap.1 hl
    cases e' with
    | configured l' =>
      cases same
      exact set l (List.mem_of_mem_take he')
    | _ => cases same
  rw [getElem?_transcript, logged, Option.map_some, errorTexts,
    (Console.configured_foldl c _).lines_eq fresh before alone]

end Footage.Journal
