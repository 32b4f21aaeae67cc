import Footage.Number.Binary64
import Footage.Wire.Field
/-!
# Trees

The structured part of a message: a `Struct` maps keys to `Tree`s, and a tree is a null, a
double, a text, a flag, a struct or a list.  Bytes that the format does not know are kept in the
node that they arrived in, so that writing a tree that was read loses nothing.

A struct keeps its entries in the order in which they are written (`Struct.insert`), so two
structs with the same entries are the same struct.  `Struct.encode` writes one; `Struct.merge`
reads bytes into one, inside which a limited number of further messages may be nested.
-/

namespace Footage.Wire

open Number (Binary64)

/-- A structured value.  `extra` holds the unknown fields of the value itself and `inner` those
of the struct or list in it. -/
inductive Tree where
  /-- A value of no kind. -/
  | absent (extra : Bytes)
  /-- A null, with the number that stands for it; zero is the usual one. -/
  | null (code : Nat) (extra : Bytes)
  | number (x : Binary64) (extra : Bytes)
  | text (s : String) (extra : Bytes)
  | flag (b : Bool) (extra : Bytes)
  | struct (entries : List (String × Tree)) (inner extra : Bytes)
  | list (items : List Tree) (inner extra : Bytes)
deriving Inhabited

/-- Keys with trees. -/
structure Struct where
  entries : List (String × Tree) := []
  unknown : Bytes := []
deriving Inhabited

/-! ### The order of keys -/

/-- Whether a key is written before another: bytewise smaller, except that a key precedes its own
prefixes. -/
def precedes : Bytes → Bytes → Bool
  | [], _ => false
  | _ :: _, [] => true
  | a :: as, b :: bs => if a < b then true else if b < a then false else precedes as bs

/-- The entries with a value for a key, in place of the former one if there is one. -/
def insertEntry (key : String) (t : Tree) : List (String × Tree) → List (String × Tree)
  | [] => [(key, t)]
  | (k, u) :: rest =>
    if key = k then (key, t) :: rest
    else if precedes (Bytes.ofText key) (Bytes.ofText k) then (key, t) :: (k, u) :: rest
    else (k, u) :: insertEntry key t rest

/-- The struct with a value for a key. -/
def Struct.insert (s : Struct) (key : String) (t : Tree) : Struct :=
  { s with entries := insertEntry key t s.entries }

/-! ### Writing -/

/-- The lowest `n` bytes of a number, the lowest first. -/
def littleEndian : Nat → Nat → Bytes
  | 0, _ => []
  | n + 1, x => UInt8.ofNat (x % 256) :: littleEndian n (x / 256)

/-- The number with these bytes, the lowest first. -/
def ofLittleEndian : Bytes → Nat
  | [] => 0
  | b :: rest => b.toNat + 256 * ofLittleEndian rest

mutual
/-- A tree on the wire, without the length that stands before it inside another message. -/
def Tree.encode : Tree → Bytes
  | .absent extra => extra
  | .null code extra => writeVarint 1 code ++ extra
  | .number x extra => writeLong 2 (littleEndian 8 x.bits.toNat) ++ extra
  | .text s extra => writeDelimited 3 (Bytes.ofText s) ++ extra
  | .flag b extra => writeVarint 4 (if b then 1 else 0) ++ extra
  | .struct entries inner extra => writeDelimited 5 (encodeEntries entries ++ inner) ++ extra
  | .list items inner extra => writeDelimited 6 (encodeItems items ++ inner) ++ extra

/-- The entries of a struct; each has its key and its value, also empty ones. -/
def encodeEntries : List (String × Tree) → Bytes
  | [] => []
  | (key, t) :: rest =>
    writeDelimited 1 (writeDelimited 1 (Bytes.ofText key) ++ writeDelimited 2 t.encode) ++
      encodeEntries rest

/-- The items of a list. -/
def encodeItems : List Tree → Bytes
  | [] => []
  | t :: rest => writeDelimited 1 t.encode ++ encodeItems rest
end

/-- A struct on the wire. -/
def Struct.encode (s : Struct) : Bytes := encodeEntries s.entries ++ s.unknown

/-! ### Reading -/

/-- An entry of a struct while it is being read. -/
structure Entry where
  key : String := ""
  value : Option Tree := none
  unknown : Bytes := []

/-- The entry on the wire, as far as it has been read. -/
def Entry.encode (e : Entry) : Bytes :=
  (if e.key = "" then [] else writeDelimited 1 (Bytes.ofText e.key)) ++
    (match e.value with
      | some t => writeDelimited 2 t.encode
      | none => []) ++
    e.unknown

/-- Adds an entry that has been read.  One that holds anything unknown becomes, as a whole, an
unknown field of the struct. -/
def Struct.add (s : Struct) (e : Entry) : Struct :=
  if e.unknown.isEmpty then s.insert e.key (e.value.getD (.absent []))
  else { s with unknown := s.unknown ++ writeDelimited 1 e.encode }

/-- The 64 bits that stand for a 32-bit number with the sign of its 32nd bit. -/
def signExtended (n : Nat) : Nat :=
  let low := n % 2 ^ 32
  if low < 2 ^ 31 then low else low + (2 ^ 64 - 2 ^ 32)

namespace Tree

/-- The unknown fields of the value itself. -/
def extra : Tree → Bytes
  | absent extra | null _ extra | number _ extra | text _ extra | flag _ extra
  | struct _ _ extra | list _ _ extra => extra

/-- The tree with one more unknown field. -/
def keep (raw : Bytes) : Tree → Tree
  | absent extra => absent (extra ++ raw)
  | null code extra => null code (extra ++ raw)
  | number x extra => number x (extra ++ raw)
  | text s extra => text s (extra ++ raw)
  | flag b extra => flag b (extra ++ raw)
  | struct entries inner extra => struct entries inner (extra ++ raw)
  | list items inner extra => list items inner (extra ++ raw)

/-- The struct in a tree; an empty one in a tree of any other kind, which it replaces. -/
def asStruct : Tree → Struct
  | struct entries inner _ => ⟨entries, inner⟩
  | _ => {}

/-- The list in a tree with the unknown fields of it; an empty one in a tree of any other kind,
which it replaces. -/
def asList : Tree → List Tree × Bytes
  | list items inner _ => (items, inner)
  | _ => ([], [])

end Tree

/-- Readers of nested messages: each reads bytes into what has been read before. -/
structure Readers where
  tree : Tree → Bytes → Option Tree
  struct : Struct → Bytes → Option Struct
  entry : Entry → Bytes → Option Entry
  list : List Tree × Bytes → Bytes → Option (List Tree × Bytes)

/-- No further message may be nested. -/
def Readers.none : Readers where
  tree _ _ := .none
  struct _ _ := .none
  entry _ _ := .none
  list _ _ := .none

/-- Takes a field into a tree; a field of another kind replaces what was there. -/
def Tree.take (below : Readers) (t : Tree) (f : Field) : Option Tree :=
  match f.number, f.payload with
  | 1, .varint n => some (.null (signExtended n) t.extra)
  | 2, .long bytes => some (.number ⟨UInt64.ofNat (ofLittleEndian bytes)⟩ t.extra)
  | 3, .delimited bytes => (Bytes.toText? bytes).map fun s => .text s t.extra
  | 4, .varint n => some (.flag (n != 0) t.extra)
  | 5, .delimited bytes =>
    (below.struct t.asStruct bytes).map fun s => .struct s.entries s.unknown t.extra
  | 6, .delimited bytes =>
    (below.list t.asList bytes).map fun (items, inner) => .list items inner t.extra
  | _, _ => some (t.keep f.raw)

/-- Takes a field into an entry. -/
def Entry.take (below : Readers) (e : Entry) (f : Field) : Option Entry :=
  match f.number, f.payload with
  | 1, .delimited bytes => (Bytes.toText? bytes).map fun key => { e with key }
  | 2, .delimited bytes =>
    (below.tree (e.value.getD (.absent [])) bytes).map fun t => { e with value := some t }
  | _, _ => some { e with unknown := e.unknown ++ f.raw }

/-- Takes a field into a struct. -/
def Struct.take (below : Readers) (s : Struct) (f : Field) : Option Struct :=
  match f.number, f.payload with
  | 1, .delimited bytes => (below.entry {} bytes).map s.add
  | _, _ => some { s with unknown := s.unknown ++ f.raw }

/-- Takes a field into a list and its unknown fields. -/
def takeItem (below : Readers) (l : List Tree × Bytes) (f : Field) :
    Option (List Tree × Bytes) :=
  match f.number, f.payload with
  | 1, .delimited bytes => (below.tree (.absent []) bytes).map fun t => (l.1 ++ [t], l.2)
  | _, _ => some (l.1, l.2 ++ f.raw)

/-- Reads all fields of a message with a step for one field. -/
def readFields (room : Nat) (step : α → Field → Option α) (init : α) (bytes : Bytes) : Option α :=
  (Field.all? room bytes).bind fun fields => fields.foldlM step init

/-- The readers of messages inside which `room` further messages may be nested, from those of the
messages in them. -/
def Readers.over (below : Readers) (room : Nat) : Readers where
  tree := readFields room (Tree.take below)
  struct := readFields room (Struct.take below)
  entry := readFields room (Entry.take below)
  list := readFields room (takeItem below)

/-- The readers of messages inside which `room` further messages may be nested. -/
def readers : Nat → Readers
  | 0 => Readers.none.over 0
  | room + 1 => (readers room).over (room + 1)

/-- Reads bytes into a struct. -/
def Struct.merge (room : Nat) (s : Struct) (bytes : Bytes) : Option Struct :=
  (readers room).struct s bytes

end Footage.Wire
