import Footage.Client

/-!
# Sessions

A session is a sequence of operations on one client, each of which goes on from the world that the
one before it has left, whether that one returned or failed (`Client.session`).
-/

namespace Footage.Client

variable {σ : Type}

/-- An operation of a client with its arguments. -/
inductive Operation (σ : Type) where
  | fetch (start stop container : String)
  | save (start stop container metadata : String) (background : Bool)
  | fetchStream (start stop container : String) (onChunk : Candidate (Bytes → Act σ (Reply σ)))
  | streamInto (start stop container : String) (write : Bytes → Act σ Unit)
  | doCommand (entries : List (String × Value))
  | close

/-- What an operation returns. -/
inductive Result where
  | video (bytes : Bytes)
  | filename (name : String)
  | record (entries : List (String × Value))
  /-- How many bytes went into a writer. -/
  | written (count : Nat)
  | done

/-- Carries out one operation. -/
def perform (c : Client σ) : Operation σ → Act σ Result
  | .fetch start stop container => do return .video (← c.fetch start stop container)
  | .save start stop container metadata background => do
    return .filename (← c.save start stop container metadata background)
  | .fetchStream start stop container onChunk => do
    c.fetchStream start stop container onChunk
    return .done
  | .streamInto start stop container write => do
    return .written (← c.streamInto start stop container write)
  | .doCommand entries => do return .record (← c.doCommand entries)
  | .close => do
    c.close
    return .done

/-- Carries out operations one after the other, with the outcome of each. -/
def session (c : Client σ) : List (Operation σ) → Act σ (List (Except Fault Result))
  | [] => return []
  | op :: rest => do
    let outcome ← Act.attempt (c.perform op)
    return outcome :: (← c.session rest)

end Footage.Client
