import Footage.Proofs.Act.Outcome
import Footage.Proofs.Wire.RoundTrip
import Footage.Wire.Tree.Value

/-!
# Every assignment of fields is read back

A message whose fields were assigned, and not read, has no unknown fields, at any depth of a struct
either (`Tree.Plain`).  Whatever is assigned is read back, if it keeps to the limits of the wire:
messages are nested at most so deep (`Message.nesting`), and a field is at most so long (`longest`).
`MessageType.parse_encode_assigned` says so of all message types.

Free values become plain ones when they are put in a command (`plain_of_toStruct`).
-/

namespace Footage.Wire

/-! ### How deep messages are nested -/

mutual
/-- How many messages a value on the wire is deep, itself included. -/
def Tree.depth : Tree → Nat
  | .struct entries _ _ => entriesDepth entries + 2
  | .list items _ _ => itemsDepth items + 2
  | _ => 1

/-- How deep messages are nested in the struct with these entries; an entry and its value are a
message each. -/
def entriesDepth : List (String × Tree) → Nat
  | [] => 0
  | (_, t) :: rest => max (t.depth + 1) (entriesDepth rest)

/-- How deep messages are nested in the list with these items. -/
def itemsDepth : List Tree → Nat
  | [] => 0
  | t :: rest => max t.depth (itemsDepth rest)
end

/-- How many messages a struct on the wire is deep, itself included. -/
def Struct.depth (s : Struct) : Nat := entriesDepth s.entries + 1

/-! ### Values of known fields -/

mutual
/-- A value without unknown fields at any depth, whose structs have each key once and in the order
in which they are written, and whose nulls stand for 32-bit numbers. -/
def Tree.Plain : Tree → Prop
  | .absent extra => extra = []
  | .null code extra => signExtended code = code ∧ extra = []
  | .number _ extra => extra = []
  | .text _ extra => extra = []
  | .flag _ extra => extra = []
  | .struct entries inner extra =>
    Ordered entries ∧ PlainEntries entries ∧ inner = [] ∧ extra = []
  | .list items inner extra => PlainItems items ∧ inner = [] ∧ extra = []

/-- Every value of the entries is plain. -/
def PlainEntries : List (String × Tree) → Prop
  | [] => True
  | (_, t) :: rest => t.Plain ∧ PlainEntries rest

/-- Every item is plain. -/
def PlainItems : List Tree → Prop
  | [] => True
  | t :: rest => t.Plain ∧ PlainItems rest
end

/-- A struct without unknown fields at any depth. -/
structure Struct.Plain (s : Struct) : Prop where
  ordered : Ordered s.entries
  entries : PlainEntries s.entries
  unknown : s.unknown = []

theorem Tree.Plain.inert {n : Nat} {t : Tree} (plain : t.Plain) (deep : t.depth ≤ n) :
    Inert n .tree t.extra := by
  have known : t.extra = [] := by cases t <;> simp_all [Tree.Plain, Tree.extra]
  have pos : 1 ≤ t.depth := by cases t <;> simp [Tree.depth]
  obtain ⟨n, rfl⟩ := Nat.exists_eq_add_of_le' (Nat.le_trans pos deep)
  exact known ▸ inert_nil n .tree

mutual
/-- A plain value is such as reading leaves it where it is nested no deeper than allowed. -/
theorem Tree.Plain.settled {n : Nat} : (t : Tree) → t.Plain → t.depth ≤ n → t.Settled n
  | .absent _, plain, deep => ⟨plain.inert deep, trivial⟩
  | .null _ _, plain, deep => ⟨plain.inert deep, plain.1⟩
  | .number _ _, plain, deep => ⟨plain.inert deep, trivial⟩
  | .text _ _, plain, deep => ⟨plain.inert deep, trivial⟩
  | .flag _ _, plain, deep => ⟨plain.inert deep, trivial⟩
  | .struct entries _ _, plain, deep => by
    refine ⟨plain.inert deep, ?_⟩
    obtain ⟨ordered, plain, rfl, -⟩ := plain
    simp only [Tree.depth] at deep
    obtain ⟨n, rfl⟩ := Nat.exists_eq_add_of_le' (Nat.le_trans (Nat.le_add_left 2 _) deep)
    exact ⟨ordered, settled_of_plainEntries entries plain (by omega), inert_nil n .struct⟩
  | .list items _ _, plain, deep => by
    refine ⟨plain.inert deep, ?_⟩
    obtain ⟨plain, rfl, -⟩ := plain
    simp only [Tree.depth] at deep
    obtain ⟨n, rfl⟩ := Nat.exists_eq_add_of_le' (Nat.le_trans (Nat.le_add_left 2 _) deep)
    exact ⟨settled_of_plainItems items plain (by omega), inert_nil n .list⟩

/-- Entries of plain values are read back one by one. -/
theorem settled_of_plainEntries {n : Nat} : (entries : List (String × Tree)) →
    PlainEntries entries → entriesDepth entries ≤ n →
    ∀ p ∈ entries, (encodeEntries [p]).length ≤ longest →
      ∀ s, (inside (n + 1)).struct s (encodeEntries [p]) = some (s.insert p.1 p.2)
  | [], _, _ => by simp
  | (key, t) :: rest, plain, deep => by
    obtain ⟨first, others⟩ := plain
    simp only [entriesDepth] at deep
    refine List.forall_mem_cons.2 ⟨fun size s => ?_, settled_of_plainEntries rest others (by omega)⟩
    obtain ⟨n, rfl⟩ := Nat.exists_eq_add_of_le' (show 1 ≤ n by omega)
    exact read_encodeEntries (Tree.Plain.settled t first (by omega)) size s

/-- Plain items are read back one by one. -/
theorem settled_of_plainItems {n : Nat} : (items : List Tree) →
    PlainItems items → itemsDepth items ≤ n →
    ∀ t ∈ items, (encodeItems [t]).length ≤ longest →
      ∀ l, (inside (n + 1)).list l (encodeItems [t]) = some (l.1 ++ [t], l.2)
  | [], _, _ => by simp
  | t :: rest, plain, deep => by
    obtain ⟨first, others⟩ := plain
    simp only [itemsDepth] at deep
    exact List.forall_mem_cons.2 ⟨fun size l =>
      read_encodeItems (Tree.Plain.settled t first (by omega)) size l,
      settled_of_plainItems rest others (by omega)⟩
end

/-- A plain struct is settled where it is nested no deeper than allowed. -/
theorem Struct.Plain.settled {n : Nat} {s : Struct} (plain : s.Plain) (deep : s.depth ≤ n) :
    s.Settled n := by
  obtain ⟨n, rfl⟩ := Nat.exists_eq_add_of_le' (Nat.le_trans (Nat.le_add_left 1 _) deep)
  have entries := settled_of_plainEntries s.entries plain.entries (Nat.le_of_succ_le_succ deep)
  exact ⟨plain.ordered, entries, plain.unknown ▸ inert_nil n .struct⟩

/-! ### Commands -/

theorem plainEntries_insertEntry (key : String) {t : Tree} (plain : t.Plain)
    {entries : List (String × Tree)} (h : PlainEntries entries) :
    PlainEntries (insertEntry key t entries) := by
  induction entries with
  | nil => exact ⟨plain, trivial⟩
  | cons p rest ih =>
    simp only [insertEntry]
    split
    · exact ⟨plain, h.2⟩
    · split
      · exact ⟨plain, h⟩
      · exact ⟨h.1, ih h.2⟩

mutual
/-- A free value becomes a plain one. -/
theorem plain_of_toTree : (v : Value) → {t : Tree} → v.toTree = .ok t → t.Plain
  | .null, _, h => by
    cases h
    exact ⟨rfl, rfl⟩
  | .flag _, _, h => by
    cases h
    rfl
  | .whole n, _, h => by
    simp only [Value.toTree] at h
    split at h
    · cases h
      rfl
    · cases h
  | .real _, _, h => by
    cases h
    rfl
  | .text _, _, h => by
    cases h
    rfl
  | .bytes _, _, h => by cases h
  | .list items, _, h => by
    rw [Value.toTree] at h
    obtain ⟨ts, hts, made⟩ := exists_of_bind_ok h
    cases made
    exact ⟨plain_of_toTrees items hts, rfl, rfl⟩
  | .record entries, _, h => by
    rw [Value.toTree] at h
    obtain ⟨made, hm, made'⟩ := exists_of_bind_ok h
    cases made'
    obtain ⟨ordered, plain⟩ := plain_of_toEntries entries hm .nil trivial
    exact ⟨ordered, plain, rfl, rfl⟩

/-- Free values become plain items. -/
theorem plain_of_toTrees : (items : List Value) → {ts : List Tree} →
    Value.toTrees items = .ok ts → PlainItems ts
  | [], _, h => by
    cases h
    trivial
  | v :: rest, _, h => by
    rw [Value.toTrees] at h
    obtain ⟨t, ht, h⟩ := exists_of_bind_ok h
    obtain ⟨ts, hts, made⟩ := exists_of_bind_ok h
    cases made
    exact ⟨plain_of_toTree v ht, plain_of_toTrees rest hts⟩

/-- Free entries become plain ones, put in their places among those that are there. -/
theorem plain_of_toEntries : (entries : List (String × Value)) →
    {done made : List (String × Tree)} → Value.toEntries entries done = .ok made →
    Ordered done → PlainEntries done → Ordered made ∧ PlainEntries made
  | [], _, _, h, ordered, plain => by
    cases h
    exact ⟨ordered, plain⟩
  | (key, v) :: rest, _, _, h, ordered, plain => by
    rw [Value.toEntries] at h
    obtain ⟨t, ht, h⟩ := exists_of_bind_ok h
    exact plain_of_toEntries rest h (ordered_insertEntry key t ordered)
      (plainEntries_insertEntry key (plain_of_toTree v ht) plain)
end

/-- The record of a command becomes a plain struct. -/
theorem plain_of_toStruct {entries : List (String × Value)} {s : Struct}
    (h : Value.toStruct entries = .ok s) : s.Plain := by
  rw [Value.toStruct] at h
  obtain ⟨made, hm, made'⟩ := exists_of_bind_ok h
  cases made'
  obtain ⟨ordered, plain⟩ := plain_of_toEntries entries hm .nil trivial
  exact ⟨ordered, plain, rfl⟩

/-! ### Messages -/

/-- A struct in a field is plain, and it is nested no deeper than a parser accepts. -/
def Kind.Plain : (k : Kind) → k.Carrier → Prop
  | struct, some s => s.Plain ∧ s.depth ≤ Message.nesting
  | _, _ => True

/-- An assignment of the fields of a message type, within the limits of the wire: it has no
unknown fields, its structs are plain and not nested too deep, and every field is short enough. -/
structure Message.Assigned {M : Type} [Message M] (m : M) : Prop where
  plain : ∀ s ∈ slots (M := M), s.kind.Plain (s.get m)
  sized : Sized m
  known : unknown m = []

theorem Kind.Plain.settled {k : Kind} {a : k.Carrier} (plain : k.Plain a) :
    k.Settled Message.nesting a := by
  cases k with
  | struct =>
    cases a with
    | none => trivial
    | some s => exact Struct.Plain.settled plain.1 plain.2
  | _ => trivial

theorem Message.Assigned.settled {M : Type} [Message M] (lawful : Lawful M) {m : M}
    (assigned : Assigned m) : Settled nesting m where
  known s hs := (assigned.plain s hs).settled
  kept made := by rw [assigned.known, readFields_nil, lawful.keep_nil]

open Message (Assigned encode)

/-- **Every assignment of the fields of a message is read back as it was**, of whatever type the
message is; so no two assignments are written alike. -/
theorem MessageType.parse_encode_assigned (t : MessageType) {m : t.Carrier}
    (assigned : Assigned m) :
    parse (encode m) = .ok m ∧ ∀ m', Assigned m' → encode m' = encode m → m' = m := by
  have back {m : t.Carrier} (assigned : Assigned m) : parse (encode m) = .ok m := by
    have read := (assigned.settled t.lawful).read t.lawful assigned.sized
    rw [parse, Message.decode_eq_readWith, read]
  refine ⟨back assigned, fun m' assigned' same => ?_⟩
  have read := back assigned'
  rw [same, back assigned] at read
  cases read
  rfl

/-- A command with values of every sort. -/
def everySort : List (String × Value) := [
  ("none", .null),
  ("no", .flag false),
  ("numbers", .list [.real ⟨0⟩, .real ⟨0x8000000000000000⟩, .real ⟨0x7FF8000000000000⟩]),
  ("", .text ""),
  ("empty", .list [.list [], .record []]),
  ("nested", .record [("é", .record [("n", .record [])])])]

/-- A command with values of every sort arrives as it was sent. -/
theorem parse_encode_assigned_everySort : ∃ s, Value.toStruct everySort = .ok s ∧
    let m : MessageType.doCommandRequest.Carrier := { name := "vs-1", command := some s }
    Assigned m ∧ parse (encode m) = .ok m := by
  obtain ⟨s, converted, shallow, short⟩ : ∃ s, Value.toStruct everySort = .ok s ∧
      s.depth ≤ Message.nesting ∧ s.encode.length ≤ longest :=
    ⟨_, rfl, by decide +kernel, by decide +kernel⟩
  have name : (Bytes.ofText "vs-1").length ≤ longest := by decide
  have assigned : Assigned (M := MessageType.doCommandRequest.Carrier)
      { name := "vs-1", command := some s } := {
    plain := by simp [Message.slots, Kind.Plain, plain_of_toStruct converted, shallow]
    sized := by simp [Message.slots, Message.Sized, Kind.payload?, Payload.Fits, short, name]
    known := rfl }
  exact ⟨s, converted, assigned, (MessageType.parse_encode_assigned _ assigned).1⟩

end Footage.Wire
