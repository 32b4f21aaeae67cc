import Footage.Wire.Tree
/-!
# Messages

A message type is described by its fields (`Slot`): each has a number, a name, a kind, and a way
to get and set it.  From this description alone `Message.encode` writes a message and
`Message.decode` reads one.  A field at its default is not written; a field that the type does
not know, or that arrives with another wire type, is kept at the end of the message.
-/

namespace Footage.Wire

/-- The kinds of fields of a message. -/
inductive Kind where
  | text | flag | bytes | struct
deriving DecidableEq, Repr

namespace Kind

/-- What a field of a kind holds. -/
abbrev Carrier : Kind → Type
  | text => String
  | flag => Bool
  | bytes => Bytes
  | struct => Option Struct

/-- What a field holds that was never set. -/
def default : (k : Kind) → k.Carrier
  | text => ""
  | flag => false
  | bytes => []
  | struct => none

/-- The name of the kind in a description of the message type. -/
def name : Kind → String
  | text => "string"
  | flag => "bool"
  | bytes => "bytes"
  | struct => "message"

/-- A field with the given number on the wire; nothing, when it is at its default. -/
def encode (number : Nat) : (k : Kind) → k.Carrier → Bytes
  | text, s => if s = "" then [] else writeDelimited number (Bytes.ofText s)
  | flag, b => if b then writeVarint number 1 else []
  | bytes, b => if b.isEmpty then [] else writeDelimited number b
  | struct, none => []
  | struct, some s => writeDelimited number s.encode

/-- What reading a payload into a field of a kind comes to. -/
inductive Reading (α : Type) where
  /-- The payload is of another wire type. -/
  | foreign
  /-- The payload is not well formed. -/
  | malformed
  | value (a : α)

/-- A reading that may be malformed. -/
def Reading.ofOption {α : Type} : Option α → Reading α
  | none => malformed
  | some a => value a

/-- Reads a payload into a field that holds `old`: a struct is merged into the former one, all
else replaces it.  Inside a nested message `room` more may be nested. -/
def read (room : Nat) : (k : Kind) → k.Carrier → Payload → Reading k.Carrier
  | text, _, .delimited b => .ofOption (Bytes.toText? b)
  | flag, _, .varint n => .value (n != 0)
  | bytes, _, .delimited b => .value b
  | struct, old, .delimited b => .ofOption ((Struct.merge room (old.getD {}) b).map some)
  | _, _, _ => .foreign

end Kind

/-- A field of the messages of type `M`. -/
structure Slot (M : Type) where
  number : Nat
  name : String
  kind : Kind
  get : M → kind.Carrier
  set : kind.Carrier → M → M

/-- The description of a message type. -/
class Message (M : Type) where
  /-- The name of the type, inside the package. -/
  typeName : String
  /-- The fields, in the order of their numbers. -/
  slots : List (Slot M)
  /-- The message with all fields at their defaults. -/
  blank : M
  /-- The fields that the type does not know, as they came. -/
  unknown : M → Bytes
  /-- The message with one more unknown field. -/
  keep : Bytes → M → M

namespace Message

variable {M : Type} [Message M]

/-- How many messages may be nested below one that is read. -/
def nesting : Nat := 100

/-- A message on the wire. -/
def encode (m : M) : Bytes :=
  (slots.flatMap fun s : Slot M => s.kind.encode s.number (s.get m)) ++ unknown m

/-- Takes a field into a message. -/
def take (m : M) (f : Field) : Option M :=
  match slots.find? fun s : Slot M => s.number == f.number with
  | none => some (keep f.raw m)
  | some s =>
    match s.kind.read (nesting - 1) (s.get m) f.payload with
    | .foreign => some (keep f.raw m)
    | .malformed => none
    | .value a => some (s.set a m)

/-- Reads a message. -/
def decode (bytes : Bytes) : Option M := readFields nesting take blank bytes

end Message

end Footage.Wire
