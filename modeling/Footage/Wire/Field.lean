import Footage.Wire.Varint
/-!
# Fields

A message on the wire is a run of fields, each with a number and a payload of one of five wire
types.  `Field.all?` cuts a byte string into its fields and keeps the bytes of each, so that a
field that no one knows can be passed on as it came.
-/

namespace Footage.Wire

/-- What a field carries, by wire type. -/
inductive Payload where
  | varint (n : Nat)
  /-- Eight bytes. -/
  | long (bytes : Bytes)
  /-- A byte string with its length before it. -/
  | delimited (bytes : Bytes)
  /-- Fields between a start and an end mark. -/
  | group
  /-- Four bytes. -/
  | short (bytes : Bytes)
deriving DecidableEq, Repr

/-- A field, with the bytes that it was read from. -/
structure Field where
  number : Nat
  payload : Payload
  raw : Bytes
deriving DecidableEq, Repr

/-! ### Writing -/

/-- The key of a field: its number and wire type in one varint. -/
def key (number wireType : Nat) : Bytes := Varint.encode (number * 8 + wireType)

/-- A field that holds a number as a varint. -/
def writeVarint (number n : Nat) : Bytes := key number 0 ++ Varint.encode n

/-- A field that holds eight bytes. -/
def writeLong (number : Nat) (bytes : Bytes) : Bytes := key number 1 ++ bytes

/-- A field that holds bytes with their length before them. -/
def writeDelimited (number : Nat) (bytes : Bytes) : Bytes :=
  key number 2 ++ Varint.encode bytes.length ++ bytes

/-! ### Reading -/

/-- The first `n` bytes and the rest, if there are that many. -/
def take? (n : Nat) (bytes : Bytes) : Option (Bytes × Bytes) :=
  let front := bytes.take n
  if front.length = n then some (front, bytes.drop n) else none

/-- The number and wire type of the field at the front; a key has at most five bytes and fits 32
bits. -/
def readKey? (bytes : Bytes) : Option ((Nat × Nat) × Bytes) :=
  match Varint.read? 5 bytes with
  | some (n, rest) => if n < 2 ^ 32 then some ((n / 8, n % 8), rest) else none
  | none => none

/-- A number of 64 bits, in at most ten bytes; further bits of it are dropped. -/
def readWord? (bytes : Bytes) : Option (Nat × Bytes) :=
  (Varint.read? 10 bytes).map fun (n, rest) => (n % 2 ^ 64, rest)

/-- How long a byte string may be. -/
def longest : Nat := 2 ^ 31 - 2

/-- A byte string with its length before it. -/
def readDelimited? (bytes : Bytes) : Option (Bytes × Bytes) :=
  match readWord? bytes with
  | some (n, rest) => if n ≤ longest then take? n rest else none
  | none => none

/-- A payload of one of the wire types that are not groups. -/
def readPlain? (wireType : Nat) (bytes : Bytes) : Option (Payload × Bytes) :=
  match wireType with
  | 0 => (readWord? bytes).map fun (n, rest) => (.varint n, rest)
  | 1 => (take? 8 bytes).map fun (b, rest) => (.long b, rest)
  | 2 => (readDelimited? bytes).map fun (b, rest) => (.delimited b, rest)
  | 5 => (take? 4 bytes).map fun (b, rest) => (.short b, rest)
  | _ => none

theorem length_le_of_take? {n : Nat} {bytes front rest : Bytes}
    (h : take? n bytes = some (front, rest)) : rest.length ≤ bytes.length := by
  simp only [take?] at h
  split at h
  · cases h; simp
  · cases h

theorem length_lt_of_readKey? {bytes rest : Bytes} {k : Nat × Nat}
    (h : readKey? bytes = some (k, rest)) : rest.length < bytes.length := by
  simp only [readKey?] at h
  split at h
  · next hr =>
    split at h
    · cases h; exact Varint.length_lt_of_read? hr
    · cases h
  · cases h

theorem length_lt_of_readWord? {bytes rest : Bytes} {n : Nat}
    (h : readWord? bytes = some (n, rest)) : rest.length < bytes.length := by
  obtain ⟨⟨m, r⟩, hr, he⟩ := Option.map_eq_some_iff.1 h
  cases he
  exact Varint.length_lt_of_read? hr

theorem length_le_of_readPlain? {wireType : Nat} {bytes rest : Bytes} {p : Payload}
    (h : readPlain? wireType bytes = some (p, rest)) : rest.length ≤ bytes.length := by
  unfold readPlain? at h
  split at h
  · obtain ⟨⟨n, r⟩, hr, he⟩ := Option.map_eq_some_iff.1 h
    cases he
    exact Nat.le_of_lt (length_lt_of_readWord? hr)
  · obtain ⟨⟨b, r⟩, hr, he⟩ := Option.map_eq_some_iff.1 h
    cases he
    exact length_le_of_take? hr
  · obtain ⟨⟨b, r⟩, hr, he⟩ := Option.map_eq_some_iff.1 h
    cases he
    simp only [readDelimited?] at hr
    split at hr
    · next hv =>
      split at hr
      · have := length_lt_of_readWord? hv
        have := length_le_of_take? hr
        omega
      · cases hr
    · cases hr
  · obtain ⟨⟨b, r⟩, hr, he⟩ := Option.map_eq_some_iff.1 h
    cases he
    exact length_le_of_take? hr
  · cases h

/-- What follows the groups with the given numbers, the innermost first, when the front of the
bytes is inside them; `room` more groups may be opened in the innermost one. -/
def skipGroups (room : Nat) (groups : List Nat) (bytes : Bytes) : Option Bytes :=
  match groups with
  | [] => some bytes
  | current :: outer =>
    match hk : readKey? bytes with
    | none => none
    | some ((number, wireType), rest) =>
      if wireType = 4 then
        if number = current then
          have := length_lt_of_readKey? hk
          skipGroups (room + 1) outer rest
        else none
      else if number = 0 then none
      else if wireType = 3 then
        match room with
        | 0 => none
        | room + 1 =>
          have := length_lt_of_readKey? hk
          skipGroups room (number :: current :: outer) rest
      else
        match hp : readPlain? wireType rest with
        | none => none
        | some (_, rest') =>
          have := length_lt_of_readKey? hk
          have := length_le_of_readPlain? hp
          skipGroups room (current :: outer) rest'
termination_by bytes.length

theorem length_le_of_skipGroups {room : Nat} {groups : List Nat} {bytes rest : Bytes}
    (h : skipGroups room groups bytes = some rest) : rest.length ≤ bytes.length := by
  fun_induction skipGroups room groups bytes <;> try cases h
  · exact Nat.le_refl _
  · next ih => have := ih h; omega
  · next ih => have := ih h; omega
  · next ih => have := ih h; omega

/-- The field at the front of a message inside which `room` further messages or groups may be
nested. -/
def Field.read? (room : Nat) (bytes : Bytes) : Option (Field × Bytes) :=
  match readKey? bytes with
  | none => none
  | some ((number, wireType), rest) =>
    if number = 0 then none
    else
      let made (payload : Payload) (rest' : Bytes) : Field × Bytes :=
        (⟨number, payload, bytes.take (bytes.length - rest'.length)⟩, rest')
      if wireType = 3 then
        match room with
        | 0 => none
        | room + 1 => (skipGroups room [number] rest).map (made .group)
      else (readPlain? wireType rest).map fun (payload, rest') => made payload rest'

theorem Field.length_lt_of_read? {room : Nat} {bytes rest : Bytes} {f : Field}
    (h : Field.read? room bytes = some (f, rest)) : rest.length < bytes.length := by
  simp only [Field.read?] at h
  split at h
  · cases h
  · next hk =>
    have front := length_lt_of_readKey? hk
    split at h
    · cases h
    · split at h
      · split at h
        · cases h
        · obtain ⟨r, hr, he⟩ := Option.map_eq_some_iff.1 h
          cases he
          have := length_le_of_skipGroups hr
          omega
      · obtain ⟨⟨p, r⟩, hr, he⟩ := Option.map_eq_some_iff.1 h
        cases he
        have := length_le_of_readPlain? hr
        dsimp only at *
        omega

/-- All fields of a message inside which `room` further messages or groups may be nested. -/
def Field.all? (room : Nat) (bytes : Bytes) : Option (List Field) :=
  if bytes.isEmpty then some []
  else
    match h : Field.read? room bytes with
    | none => none
    | some (f, rest) =>
      have := Field.length_lt_of_read? h
      (Field.all? room rest).map (f :: ·)
termination_by bytes.length

end Footage.Wire
