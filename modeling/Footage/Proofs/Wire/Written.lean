import Footage.Wire.Field

/-!
# Fields as they are written

Each reader is met by what the writer puts in front of further bytes: a key
(`readKey?_key_append`), a byte string (`readDelimited?_append`) and a whole field
(`Field.read?_write_append`).
-/

namespace Footage.Wire

/-! ### Keys and payloads -/

theorem take?_append (front rest : Bytes) :
    take? front.length (front ++ rest) = some (front, rest) := by
  simp [take?]

theorem readKey?_key_append {number wireType : Nat} (hn : number < 2 ^ 29) (hw : wireType < 8)
    (rest : Bytes) : readKey? (key number wireType ++ rest) = some ((number, wireType), rest) := by
  have read : Varint.read? 5 (key number wireType ++ rest) =
      some (number * 8 + wireType, rest) :=
    Varint.read?_encode_append (by omega) rest
  have front : (number * 8 + wireType) / 8 = number := by omega
  have back : (number * 8 + wireType) % 8 = wireType := by omega
  simp only [readKey?, read, front, back]
  rw [if_pos (by omega)]

theorem readWord?_encode_append {n : Nat} (h : n < 2 ^ 64) (rest : Bytes) :
    readWord? (Varint.encode n ++ rest) = some (n, rest) := by
  have read : Varint.read? 10 (Varint.encode n ++ rest) = some (n, rest) :=
    Varint.read?_encode_append (by omega) rest
  rw [readWord?, read]
  exact congrArg (fun word => some (word, rest)) (Nat.mod_eq_of_lt h)

theorem readDelimited?_append {bytes : Bytes} (h : bytes.length ≤ longest) (rest : Bytes) :
    readDelimited? (Varint.encode bytes.length ++ bytes ++ rest) = some (bytes, rest) := by
  have size : bytes.length < 2 ^ 64 := by
    unfold longest at h
    omega
  rw [List.append_assoc]
  simp only [readDelimited?, readWord?_encode_append size, if_pos h, take?_append]

namespace Payload

/-- A payload on the wire, of the wire types that are written for the fields of messages. -/
def write (number : Nat) : Payload → Bytes
  | varint n => writeVarint number n
  | long bytes => writeLong number bytes
  | delimited bytes => writeDelimited number bytes
  | _ => []

/-- The payload is one that is written, and it is as long as a reader accepts. -/
def Fits : Payload → Prop
  | varint n => n < 2 ^ 64
  | long bytes => bytes.length = 8
  | delimited bytes => bytes.length ≤ longest
  | _ => False

instance : (p : Payload) → Decidable p.Fits
  | varint n => inferInstanceAs (Decidable (n < 2 ^ 64))
  | long bytes => inferInstanceAs (Decidable (bytes.length = 8))
  | delimited bytes => inferInstanceAs (Decidable (bytes.length ≤ longest))
  | group => isFalse id
  | short _ => isFalse id

end Payload

namespace Field

/-- The field with a number and a payload, as it is written. -/
def written (number : Nat) (p : Payload) : Field := ⟨number, p, p.write number⟩

/-- **A field is read as it was written**, whatever follows it. -/
theorem read?_write_append (room : Nat) {number : Nat} {p : Payload} (hpos : 0 < number)
    (hn : number < 2 ^ 29) (fits : p.Fits) (rest : Bytes) :
    read? room (p.write number ++ rest) = some (written number p, rest) := by
  have raw : (p.write number ++ rest).take ((p.write number ++ rest).length - rest.length) =
      p.write number := by
    rw [List.length_append, Nat.add_sub_cancel, List.take_left]
  have made : ∀ {wireType : Nat} {payload : Bytes}, wireType < 8 → wireType ≠ 3 →
      p.write number = key number wireType ++ payload →
      readPlain? wireType (payload ++ rest) = some (p, rest) →
      read? room (p.write number ++ rest) = some (written number p, rest) := by
    intro wireType payload hw h3 hp hr
    have front : readKey? (p.write number ++ rest) =
        some ((number, wireType), payload ++ rest) := by
      rw [hp, List.append_assoc, readKey?_key_append hn hw]
    simp only [read?, front, if_neg (Nat.ne_of_gt hpos), if_neg h3, hr, Option.map_some, raw]
    rfl
  -- Of the wire types only these three are ever written.
  cases p with
  | varint n =>
    refine made (by omega) (by omega) rfl ?_
    simp only [readPlain?, readWord?_encode_append fits, Option.map_some]
  | long bytes =>
    refine made (by omega) (by omega) rfl ?_
    have front : take? 8 (bytes ++ rest) = some (bytes, rest) := fits ▸ take?_append bytes rest
    simp only [readPlain?, front, Option.map_some]
  | delimited bytes =>
    refine made (by omega) (by omega) (List.append_assoc _ _ _) ?_
    simp only [readPlain?, readDelimited?_append fits, Option.map_some]
  | group => exact fits.elim
  | short bytes => exact fits.elim

end Field

end Footage.Wire
