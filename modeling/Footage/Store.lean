import Footage.Feed
/-!
# Video stores

The operations that a video store offers.  A store may be at hand or far away: what a service
serves is a store, and what a client reaches is one again.

`Store.scripted` is a store that answers from a script and notes down every call.
-/

namespace Footage

/-- The operations on stored video. -/
structure Store (σ : Type) where
  /-- The encoded video of a range. -/
  fetch : (start stop container : String) → Act σ Bytes
  /-- Saves a range to a file and names the file. -/
  save : (start stop container metadata : String) → (background : Bool) → Act σ String
  /-- The encoded video of a range in chunks. -/
  fetchStream : (start stop container : String) → Act σ (Feed σ Bytes)
  /-- Anything else, from a record to a record. -/
  doCommand : List (String × Value) → Act σ (List (String × Value))

/-- Stores by the names under which they are served. -/
abbrev Store.Table (σ : Type) := List (String × Store σ)

/-- The table with a store under a name, in place of the former one. -/
def Store.Table.put {σ : Type} (t : Table σ) (key : String) (s : Store σ) : Table σ :=
  (key, s) :: t.filter (·.1 ≠ key)

/-- The table without the store under a name. -/
def Store.Table.drop {σ : Type} (t : Table σ) (key : String) : Table σ := t.filter (·.1 ≠ key)

/-- What a scripted store answers. -/
structure Script where
  video : Bytes := []
  chunkSize : Nat := 4
  /-- The fault that every operation fails with; a stream fails before the chunk of index
  `failAfter`, and the other operations do not, if that is given. -/
  fault : Option Fault := none
  failAfter : Option Nat := none
  /-- The name of saved files; by default made of the range's start and the container. -/
  filename : Option String := none
  /-- The result of commands; by default the command, echoed. -/
  result : Option (List (String × Value)) := none

namespace Script

/-- The bytes in runs of `size`, of which the last may be shorter. -/
def slices (size : Nat) (bytes : Bytes) : List Bytes :=
  match bytes with
  | [] => []
  | b :: rest => (b :: rest.take (size - 1)) :: slices size (rest.drop (size - 1))
termination_by bytes.length
decreasing_by
  rw [List.length_drop, List.length_cons]
  omega

/-- The fault that an operation fails with at once. -/
def immediate (s : Script) : Option Fault :=
  match s.failAfter with
  | none => s.fault
  | some _ => none

/-- The chunks that are produced, and the fault that then ends the stream, if one does. -/
def chunks (s : Script) : List Bytes × Option Fault :=
  let all := slices s.chunkSize s.video
  match s.fault, s.failAfter with
  | some e, some n => if n < all.length then (all.take n, some e) else (all, none)
  | _, _ => (all, none)

end Script

/-- A store that answers from a script and notes every call down under a key. -/
def Store.scripted {σ : Type} (key : String) (s : Script) : Store σ :=
  let begin (n : Note) : Act σ Unit := do
    Act.note (.noted key n)
    match s.immediate with
    | some e => throw e
    | none => pure ()
  { fetch := fun start stop container => do
      begin (.fetch start stop container)
      return s.video
    save := fun start stop container metadata background => do
      begin (.save start stop container metadata background)
      return s.filename.getD (start ++ "." ++ if container = "" then "mp4" else container)
    fetchStream := fun start stop container => do
      begin (.fetchStream start stop container)
      let (chunks, failure) := s.chunks
      return {
        items := chunks.map pure
        finish :=
          match failure with
          | none => Act.note (.noted key (.done chunks.length))
          | some e => do
            Act.note (.noted key (.stopped e.kind chunks.length))
            throw e
        abandon := fun taken e => Act.note (.noted key (.stopped e.kind taken)) }
    doCommand := fun command => do
      begin (.command command)
      return s.result.getD [("echo", .record command)] }

end Footage
