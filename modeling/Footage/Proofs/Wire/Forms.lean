import Footage.Proofs.Wire.Fronts

/-!
# Well-formed fields

A number may be spelled as a varint in several ways, of which the shortest one is written
(`Varint.Spells`).  So a field may come in many forms: with a key and a length in more bytes than
they need, and with a payload of any wire type (`Field.Formed`).  A reader accepts every such form,
and takes just its bytes, whatever they look like and whatever follows them
(`Field.Formed.intact`).
-/

namespace Footage.Wire

/-! ### Numbers and payloads -/

/-- The bytes, of which there are at most `most`, spell a number with seven bits each, the lowest
first; every byte but the last has its top bit set. -/
inductive Varint.Spells : (most : Nat) → Bytes → Nat → Prop where
  | last {most : Nat} {b : UInt8} : b.toNat < 128 → Spells (most + 1) [b] b.toNat
  | more {most n : Nat} {b : UInt8} {bytes : Bytes} :
      128 ≤ b.toNat → Spells most bytes n →
      Spells (most + 1) (b :: bytes) (b.toNat - 128 + 128 * n)

theorem Varint.Spells.read {most n : Nat} {bytes : Bytes} (h : Spells most bytes n)
    (rest : Bytes) : read? most (bytes ++ rest) = some (n, rest) := by
  induction h with
  | last small => simp [read?, small]
  | more large _ ih => simp [read?, Nat.not_lt.2 large, ih]

/-- What spells a number is just what is read as it. -/
theorem Varint.spells_iff {most n : Nat} {bytes : Bytes} :
    Spells most bytes n ↔ read? most bytes = some (n, []) := by
  refine ⟨fun h => by simpa using h.read [], fun h => ?_⟩
  induction most generalizing bytes n with
  | zero => cases h
  | succ most ih =>
    cases bytes with
    | nil => cases h
    | cons b bytes =>
      rw [read?] at h
      split at h
      · next small =>
        cases h
        exact .last small
      · next large =>
        obtain ⟨⟨m, rest⟩, hm, he⟩ := Option.map_eq_some_iff.1 h
        cases he
        exact .more (Nat.not_lt.1 large) (ih hm)

instance (most n : Nat) (bytes : Bytes) : Decidable (Varint.Spells most bytes n) :=
  decidable_of_iff _ Varint.spells_iff.symm

/-- The bytes are a payload of a wire type.  Of a number only the lowest 64 bits count, and a byte
string has its length before it. -/
inductive Payload.Formed : (wireType : Nat) → Bytes → Payload → Prop where
  | varint {bytes : Bytes} {n : Nat} :
      Varint.Spells 10 bytes n → Formed 0 bytes (.varint (n % 2 ^ 64))
  | long {bytes : Bytes} : bytes.length = 8 → Formed 1 bytes (.long bytes)
  | delimited {size bytes : Bytes} :
      Varint.Spells 10 size bytes.length → bytes.length ≤ longest →
      Formed 2 (size ++ bytes) (.delimited bytes)
  | short {bytes : Bytes} : bytes.length = 4 → Formed 5 bytes (.short bytes)

namespace Payload.Formed

variable {wireType : Nat} {bytes : Bytes} {p : Payload}

theorem read (h : Formed wireType bytes p) (rest : Bytes) :
    readPlain? wireType (bytes ++ rest) = some (p, rest) := by
  cases h with
  | varint spelled => simp only [readPlain?, readWord?, spelled.read, Option.map_some]
  | long size =>
    have front : take? 8 (bytes ++ rest) = some (bytes, rest) := size ▸ take?_append bytes rest
    simp only [readPlain?, front, Option.map_some]
  | @delimited size bytes spelled short =>
    have word : bytes.length % 2 ^ 64 = bytes.length := by
      refine Nat.mod_eq_of_lt ?_
      unfold longest at short
      omega
    simp only [readPlain?, readDelimited?, readWord?, List.append_assoc, spelled.read,
      Option.map_some, word, if_pos short, take?_append]
  | short size =>
    have front : take? 4 (bytes ++ rest) = some (bytes, rest) := size ▸ take?_append bytes rest
    simp only [readPlain?, front, Option.map_some]

theorem wireType_lt (h : Formed wireType bytes p) : wireType < 8 ∧ wireType ≠ 3 := by
  cases h <;> decide

end Payload.Formed

/-! ### Fields -/

/-- The field has the bytes of a well-formed one: a key of at most five bytes that spells its
number and a wire type, and a payload of that type. -/
inductive Field.Formed : Field → Prop where
  | mk {number wireType : Nat} {key bytes : Bytes} {p : Payload} :
      0 < number → number < 2 ^ 29 → Varint.Spells 5 key (number * 8 + wireType) →
      Payload.Formed wireType bytes p → Formed ⟨number, p, key ++ bytes⟩

/-- **A well-formed field is read as it stands**, whatever follows it. -/
theorem Field.Formed.intact {f : Field} (h : f.Formed) (room : Nat) : f.Intact room := by
  intro more _ rest
  obtain @⟨number, wireType, key, bytes, p, pos, small, spelled, formed⟩ := h
  obtain ⟨plain, group⟩ := formed.wireType_lt
  have front : readKey? (key ++ (bytes ++ rest)) = some ((number, wireType), bytes ++ rest) := by
    have fits : number * 8 + wireType < 2 ^ 32 := by omega
    have high : (number * 8 + wireType) / 8 = number := by omega
    have low : (number * 8 + wireType) % 8 = wireType := by omega
    simp only [readKey?, spelled.read, if_pos fits, high, low]
  have raw : (key ++ (bytes ++ rest)).take ((key ++ (bytes ++ rest)).length - rest.length) =
      key ++ bytes := by
    rw [← List.append_assoc, List.length_append, Nat.add_sub_cancel, List.take_left]
  simp only [read?, List.append_assoc, front, if_neg (Nat.ne_of_gt pos), if_neg group,
    formed.read, Option.map_some, raw]

end Footage.Wire
