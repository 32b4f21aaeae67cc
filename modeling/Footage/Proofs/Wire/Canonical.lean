import Footage.Proofs.Wire.RoundTrip
import Footage.Proofs.Wire.Settling

/-!
# Writing what was read

A message that was read may have arrived in many forms: fields in any order and more than once,
structs in pieces, numbers with more bytes than they need, and fields that no one knows.  Writing
it gives one form, which is read back as the same message
(`MessageType.decode_encode_of_decode`).

There is one exception, at the limit of nesting.  An entry of a struct may do without its value
when it is read, and it is written with an empty one.  Where the entry is the last message that may
be nested, what is written for it is refused (`MessageType.encode_deepest`).
-/

namespace Footage.Wire

namespace Kind

variable {R R' : Readers} {k : Kind} {old old' a : k.Carrier} {p : Payload}

theorem readWith_foreign (h : k.readWith R old p = .foreign) : k.readWith R' old' p = .foreign := by
  cases k with
  | struct =>
    cases p with
    | delimited b =>
      simp only [readWith] at h
      cases hr : R.struct (old.getD {}) b <;> simp [hr, Reading.ofOption] at h
    | _ => rfl
  | _ => cases p <;> first | rfl | exact h

theorem exists_of_readWith_struct {old a : Option Struct}
    (h : struct.readWith R old p = .value a) :
    ∃ b s, p = .delimited b ∧ a = some s ∧ R.struct (old.getD {}) b = some s := by
  cases p with
  | delimited b =>
    simp only [readWith] at h
    cases hr : R.struct (old.getD {}) b with
    | none => simp [hr, Reading.ofOption] at h
    | some s =>
      simp only [hr, Option.map_some, Reading.ofOption, Reading.value.injEq] at h
      exact ⟨b, s, rfl, h.symm, hr⟩
  | _ => cases h

theorem readWith_mono (le : R.Le R') (h : k.readWith R old p = .value a) :
    k.readWith R' old p = .value a := by
  cases k with
  | struct =>
    obtain ⟨b, s, rfl, rfl, read⟩ := exists_of_readWith_struct h
    have read' : R'.struct (old.getD {}) b = some s := le .struct _ _ _ read
    simp only [readWith, read', Option.map_some, Reading.ofOption]
  | _ => cases p <;> exact h

/-- A struct in a field is such as reading leaves it, but for the room of its entries. -/
def NearSettled (spare n : Nat) : (k : Kind) → k.Carrier → Prop
  | struct, some s => s.NearSettled spare n
  | _, _ => True

/-- The last of `n` messages, each in the one before it and the first of them a struct in a field,
is an entry that is written with a value. -/
def HasEntryAt : (k : Kind) → k.Carrier → Nat → Prop
  | struct, some s, n => s.HasEntryAt n
  | _, _, _ => False

theorem NearSettled.settled {spare n : Nat} (near : k.NearSettled spare n a)
    (roomy : spare = 0 → ¬ k.HasEntryAt a n) : k.Settled (spare + n) a := by
  cases k with
  | struct =>
    cases a with
    | none => trivial
    | some s => exact Struct.NearSettled.settled near roomy
  | _ => trivial

/-- What is written for a field is refused where there is no room for the values of its entries. -/
theorem HasEntryAt.lt {n ℓ : Nat} (h : k.HasEntryAt a ℓ) (hp : k.payload? a = some p)
    (fits : p.Fits) (formed : k.readWith (inside n) old p ≠ .malformed) : ℓ < n := by
  cases k with
  | struct =>
    cases a with
    | none => cases hp
    | some s =>
      cases hp
      cases read : (inside n).struct (old.getD {}) s.encode with
      | none => simp [readWith, read, Reading.ofOption] at formed
      | some s' => exact Struct.HasEntryAt.lt h ⟨fits, old.getD {}, s', read⟩
  | _ => exact h.elim

theorem HasEntryAt.exists_payload {n : Nat} (h : k.HasEntryAt a n) :
    ∃ p, k.payload? a = some p := by
  cases k with
  | struct =>
    cases a with
    | none => exact h.elim
    | some s => exact ⟨_, rfl⟩
  | _ => exact h.elim

/-- A struct in a field stays settled, but for the room of its entries. -/
theorem nearSettled_readWith {spare n : Nat} (near : k.NearSettled spare n old)
    (h : k.readWith (inside n) old p = .value a) : k.NearSettled spare n a := by
  cases k with
  | struct =>
    obtain ⟨b, s, rfl, rfl, read⟩ := exists_of_readWith_struct h
    cases n with
    | zero => cases read
    | succ n =>
      have before : (old.getD {}).NearSettled spare (n + 1) := by
        cases old with
        | none => exact NearSettled.blank_struct spare n
        | some s => exact near
      exact resettles spare (n + 1) .struct _ _ _ read before
  | _ => trivial

end Kind

namespace Message

variable {M : Type} [Message M] {R R' : Readers} {m m' : M} {f : Field} {n room : Nat}

theorem takeWith_mono (le : R.Le R') (h : takeWith R m f = some m') :
    takeWith R' m f = some m' := by
  unfold takeWith at h ⊢
  split at h
  · exact h
  · split at h
    · next foreign => simpa only [Kind.readWith_foreign foreign] using h
    · cases h
    · next read => simpa only [Kind.readWith_mono le read] using h

/-- A reader with more room reads the same. -/
theorem readWith_mono {more : Nat} (le : room ≤ more) (le' : R.Le R') {bytes : Bytes}
    (h : readWith room R bytes = some m) : readWith more R' bytes = some m :=
  readFields_mono le (fun _ _ _ => takeWith_mono le') h

/-- The last of `n` messages, each in the one before it and the first of them in a field of the
message, is an entry that is written with a value. -/
def HasEntryAt (m : M) (n : Nat) : Prop :=
  ∃ s ∈ slots (M := M), s.kind.HasEntryAt (s.get m) n

/-- A message is such as reading leaves it, but for the room of the entries in it. -/
structure NearSettled (spare n : Nat) (m : M) : Prop where
  known : ∀ s ∈ slots (M := M), s.kind.NearSettled spare n (s.get m)
  kept : ∀ made : M, readFields (spare + n) (takeWith (inside (spare + n))) made (unknown m) =
    some (keep (unknown m) made)

/-- A message whose entries have room is settled. -/
theorem NearSettled.settled {spare : Nat} (near : NearSettled spare n m)
    (roomy : spare = 0 → ¬ HasEntryAt m n) : Settled (spare + n) m where
  known s hs := (near.known s hs).settled fun tight has => roomy tight ⟨s, hs, has⟩
  kept := near.kept

section

variable (lawful : Lawful M) {spare : Nat}

include lawful

theorem NearSettled.keep (near : NearSettled spare n m) (intact : f.Intact n)
    (foreign : ∀ made : M,
      takeWith (inside (spare + n)) made f = some (Message.keep f.raw made)) :
    NearSettled spare n (Message.keep f.raw m) where
  known s hs := by
    rw [lawful.get_keep s hs]
    exact near.known s hs
  kept made := by
    rw [lawful.unknown_keep, readFields_append (near.kept made),
      readFields_raw (intact.mono (Nat.le_add_left n spare)), foreign, lawful.keep_append]

theorem NearSettled.set (near : NearSettled spare n m) {s : Slot M} (hs : s ∈ slots (M := M))
    {a : s.kind.Carrier} (ha : s.kind.NearSettled spare n a) :
    NearSettled spare n (s.set a m) where
  known t ht := by
    by_cases same : s.number = t.number
    · have found := Slot.find?_number lawful.nodup hs
      rw [same, Slot.find?_number lawful.nodup ht] at found
      cases found
      rw [lawful.get_set_self s hs]
      exact ha
    · rw [lawful.get_set s hs t ht same]
      exact near.known t ht
  kept made := by
    rw [lawful.unknown_set s hs]
    exact near.kept made

theorem nearSettled_takeWith (intact : f.Intact n) (h : takeWith (inside n) m f = some m')
    (near : NearSettled spare n m) : NearSettled spare n m' := by
  unfold takeWith at h
  split at h
  · next absent =>
    cases h
    exact near.keep lawful intact fun made => by simp only [takeWith, absent]
  · next s found =>
    have hs := List.mem_of_find?_eq_some found
    split at h
    · next foreign =>
      cases h
      exact near.keep lawful intact fun made => by
        simp only [takeWith, found, Kind.readWith_foreign foreign]
    · cases h
    · next read =>
      cases h
      exact near.set lawful hs (Kind.nearSettled_readWith (near.known s hs) read)

theorem nearSettled_blank (spare n : Nat) : NearSettled spare n (blank : M) where
  known s hs := by
    rw [lawful.get_blank s hs]
    cases s.kind <;> trivial
  kept made := by rw [lawful.unknown_blank, readFields_nil, lawful.keep_nil]

/-- What is read is settled where there is room for the values of its entries: there is if one more
message may be nested than before, or if none of the entries was the last that might be. -/
theorem settled_of_read (spare : Nat) {bytes : Bytes} (h : readWith n (inside n) bytes = some m)
    (roomy : spare = 0 → ¬ HasEntryAt m n) : Settled (spare + n) m := by
  have near : NearSettled spare n m :=
    readFields_induction h (nearSettled_blank lawful spare n) fun _ _ _ =>
      nearSettled_takeWith lawful
  exact near.settled roomy

/-- Where a message is read as it is written, no entry in it is the last message for which there is
room. -/
theorem HasEntryAt.lt {ℓ : Nat} (sized : Sized m)
    (read : readWith n (inside n) (encode m) = some m') (h : HasEntryAt m ℓ) : ℓ < n := by
  obtain ⟨s, hs, has⟩ := h
  obtain ⟨p, hp⟩ := has.exists_payload
  obtain ⟨fields, all, run⟩ := Option.bind_eq_some_iff.1 read
  rw [encode_eq_knownFields,
    Field.all?_append fun _ => intact_of_mem_knownFields lawful sized n] at all
  obtain ⟨rest, -, rfl⟩ := Option.map_eq_some_iff.1 all
  have written : Field.written s.number p ∈ knownFields m ++ rest :=
    List.mem_append_left rest (List.mem_flatMap.2 ⟨s, hs, mem_fieldOf.2 ⟨p, hp, rfl⟩⟩)
  -- Whatever was read in front of the field, the field is not refused.
  obtain ⟨made, made', taken⟩ := exists_step_of_mem run written
  have formed : s.kind.readWith (inside n) (s.get made) p ≠ .malformed := by
    intro malformed
    simp [takeWith, Field.written, Slot.find?_number lawful.nodup hs, malformed] at taken
  exact has.lt hp (sized s hs p hp) formed

end

end Message

namespace MessageType

open Message (decode encode readWith nesting Sized HasEntryAt)

/-- **Writing a message that was read is canonical, but for one level of nesting.**  With room for
one more nested message what was written is always read back as the same message, and without it
as no other one; so writing what is read back changes nothing any more.  Without more room it is
read back if and only if no entry of a struct in the message, written with its value, is the last
message that may be nested. -/
theorem decode_encode_of_decode (t : MessageType) {bytes : Bytes} {m : t.Carrier}
    (read : decode bytes = some m) (sized : Sized m) :
    readWith (nesting + 1) (inside (nesting + 1)) (encode m) = some m ∧
      (∀ m', decode (encode m) = some m' → m' = m) ∧
      (decode (encode m) = some m ↔ ¬ HasEntryAt m nesting) := by
  rw [Message.decode_eq_readWith] at read
  have again : readWith (nesting + 1) (inside (nesting + 1)) (encode m) = some m := by
    have settled := Message.settled_of_read t.lawful 1 read (by simp)
    rw [Nat.add_comm]
    exact settled.read t.lawful sized
  refine ⟨again, fun m' read' => ?_, fun read' has => ?_, fun roomy => ?_⟩
  · -- What is read with less room is also read with more, and then it is the same message.
    rw [Message.decode_eq_readWith] at read'
    have same := Message.readWith_mono (Nat.le_succ nesting) (inside_le_succ nesting) read'
    exact Option.some.inj (same.symm.trans again)
  · rw [Message.decode_eq_readWith] at read'
    exact Nat.lt_irrefl nesting (has.lt t.lawful sized read')
  · have settled := Message.settled_of_read t.lawful 0 read fun _ => roomy
    rw [Nat.zero_add] at settled
    rw [Message.decode_eq_readWith]
    exact settled.read t.lawful sized

/-- A command whose parts arrive in no order: a name that is given twice and once as a number, a
group that no one knows, and a struct in two pieces, with a key before its own prefix, a key that
is given twice with values of two kinds, an entry with a field of its own, and a length in more
bytes than it needs. -/
def disordered : Bytes :=
  writeDelimited 1 (Bytes.ofText "a") ++ writeVarint 1 7 ++ key 9 3 ++ key 9 4 ++
  writeDelimited 2
    (writeDelimited 1 (writeDelimited 1 (Bytes.ofText "a") ++
        writeDelimited 2 (writeVarint 4 1 ++ writeVarint 7 1)) ++
      writeDelimited 1 (writeVarint 3 5 ++ writeDelimited 2 (writeVarint 1 0))) ++
  key 1 2 ++ [0x81, 0x00] ++ Bytes.ofText "b" ++
  writeDelimited 2
    (writeDelimited 1 (writeDelimited 2 (writeVarint 4 1 ++ writeDelimited 3 (Bytes.ofText "x")) ++
        writeDelimited 1 (Bytes.ofText "ab")) ++
      writeDelimited 1 (writeDelimited 1 (Bytes.ofText "a")))

/-- Lists of one item, one inside the other, around a value. -/
def inLists : Nat → Bytes → Bytes
  | 0, value => value
  | n + 1, value => inLists n (writeDelimited 6 (writeDelimited 1 value))

/-- A command whose struct holds a value so deep that a struct may be nested in it, and an entry in
this struct, but nothing in the entry. -/
def deep (value : Bytes) : Bytes :=
  let named (value : Bytes) := writeDelimited 1 (writeDelimited 1 [] ++ writeDelimited 2 value)
  writeDelimited 2 (named (writeDelimited 5 (named (inLists 46 value))))

/-- A deep command whose last entry goes away again, for a flag comes in the place of its struct. -/
def replaced : Bytes :=
  deep (writeDelimited 5 (writeDelimited 1 (writeDelimited 1 [])) ++ writeVarint 4 1)

/-- The two commands are read, and what is written for them is read back: no entry is too deep. -/
theorem decode_encode_of_decode_disordered :
    (∃ m : doCommandRequest.Carrier, decode disordered = some m ∧ Sized m ∧
        encode m ≠ disordered ∧ decode (encode m) = some m ∧ ¬ HasEntryAt m nesting) ∧
      ∃ m : doCommandRequest.Carrier, decode replaced = some m ∧ Sized m ∧
        encode m ≠ replaced ∧ decode (encode m) = some m ∧ ¬ HasEntryAt m nesting := by
  have rereads : ∀ bytes, ((decode bytes : Option doCommandRequest.Carrier).map fun m =>
      decide (Sized m ∧ encode m ≠ bytes ∧
        (decode (encode m) : Option doCommandRequest.Carrier).isSome)) = some true →
      ∃ m : doCommandRequest.Carrier, decode bytes = some m ∧ Sized m ∧ encode m ≠ bytes ∧
        decode (encode m) = some m ∧ ¬ HasEntryAt m nesting := by
    intro bytes known
    obtain ⟨m, read, holds⟩ := Option.map_eq_some_iff.1 known
    obtain ⟨sized, ne, again⟩ := of_decide_eq_true holds
    obtain ⟨-, same, iff⟩ := decode_encode_of_decode doCommandRequest read sized
    obtain ⟨m', read'⟩ := Option.isSome_iff_exists.1 again
    obtain rfl := same m' read'
    exact ⟨m', read, sized, ne, read', iff.1 read'⟩
  exact ⟨rereads disordered (by decide +kernel), rereads replaced (by decide +kernel)⟩

/-! ### The limit of nesting -/

/-- A command whose struct holds an entry as deep as messages may be nested. -/
def deepest (entry : Bytes) : Bytes := deep (writeDelimited 5 (writeDelimited 1 entry))

/-- A command is read and written with an empty value for an entry that has none; for that value
there is no room, so what was written is refused. -/
theorem encode_deepest :
    ((decode (deepest (writeDelimited 1 [])) : Option DoCommandRequest).map encode =
        some (deepest (writeDelimited 1 [] ++ writeDelimited 2 []))) ∧
      (decode (deepest (writeDelimited 1 [] ++ writeDelimited 2 [])) :
        Option DoCommandRequest).isNone := by
  decide +kernel

end MessageType

end Footage.Wire
