import Footage.Wire.Schema
import Footage.Proofs.Wire.Settled

/-!
# Reading what was written

A message that is settled, so that its structured values and unknown fields are such as reading
leaves them, is read back as it was written (`Message.Settled.read`), if every field that is
written for it is as short as a reader accepts (`Message.Sized`).  A message that holds neither
structs nor unknown fields is settled, and it arrives as it was sent (`Message.parse_encode`).

What the proof needs to know about a message type is that its slots are independent places of a
message that together with the unknown fields make it up (`Message.Lawful`); this is all that
there is to show for each type (`MessageType.lawful`).
-/

namespace Footage.Wire

/-! ### Fields of messages -/

namespace Kind

/-- What is written for a field of a kind; nothing, when the field is at its default. -/
def payload? : (k : Kind) → k.Carrier → Option Payload
  | text, s => if s = "" then none else some (.delimited (Bytes.ofText s))
  | flag, b => if b then some (.varint 1) else none
  | bytes, b => if b.isEmpty then none else some (.delimited b)
  | struct, none => none
  | struct, some s => some (.delimited s.encode)

/-- What a field holds is not longer than a reader accepts; of structs, only those that are not
there are meant. -/
def Fits : (k : Kind) → k.Carrier → Prop
  | text, s => (Bytes.ofText s).length ≤ longest
  | flag, _ => True
  | bytes, b => b.length ≤ longest
  | struct, s => s = none

instance (k : Kind) (a : k.Carrier) : Decidable (k.Fits a) :=
  match k, a with
  | text, s => inferInstanceAs (Decidable ((Bytes.ofText s).length ≤ longest))
  | flag, _ => isTrue trivial
  | bytes, b => inferInstanceAs (Decidable (b.length ≤ longest))
  | struct, none => isTrue rfl
  | struct, some _ => isFalse nofun

/-- A struct in a field is such as reading leaves it where `n` messages may be nested. -/
def Settled (n : Nat) : (k : Kind) → k.Carrier → Prop
  | struct, some s => s.Settled n
  | _, _ => True

/-- Reads a payload into a field that holds `old`, with the given readers of nested messages. -/
def readWith (R : Readers) : (k : Kind) → k.Carrier → Payload → Reading k.Carrier
  | text, _, .delimited b => .ofOption (Bytes.toText? b)
  | flag, _, .varint n => .value (n != 0)
  | bytes, _, .delimited b => .value b
  | struct, old, .delimited b => .ofOption ((R.struct (old.getD {}) b).map some)
  | _, _, _ => .foreign

theorem read_eq_readWith (room : Nat) (k : Kind) (old : k.Carrier) (p : Payload) :
    k.read room old p = k.readWith (inside (room + 1)) old p := by
  cases k <;> cases p <;> rfl

theorem encode_eq (number : Nat) (k : Kind) (a : k.Carrier) :
    k.encode number a = ((k.payload? a).map (Field.written number)).toList.flatMap (·.raw) := by
  cases k with
  | text =>
    simp only [encode, payload?]
    split <;> simp [Field.written, Payload.write]
  | flag =>
    simp only [encode, payload?]
    split <;> simp [Field.written, Payload.write]
  | bytes =>
    simp only [encode, payload?]
    split <;> simp [Field.written, Payload.write]
  | struct => cases a <;> simp [encode, payload?, Field.written, Payload.write]

theorem fits_of_payload? {k : Kind} {a : k.Carrier} (fits : k.Fits a) {p : Payload}
    (h : k.payload? a = some p) : p.Fits := by
  cases k with
  | text =>
    simp only [payload?] at h
    split at h
    · cases h
    · cases h; exact fits
  | flag =>
    simp only [payload?] at h
    split at h
    · cases h; exact Nat.one_lt_two_pow (by omega)
    · cases h
  | bytes =>
    simp only [payload?] at h
    split at h
    · cases h
    · cases h; exact fits
  | struct =>
    obtain rfl : a = none := fits
    cases h

theorem settled_of_fits (n : Nat) {k : Kind} {a : k.Carrier} (fits : k.Fits a) :
    k.Settled n a := by
  cases k with
  | struct =>
    obtain rfl : a = none := fits
    trivial
  | _ => trivial

theorem eq_default_of_payload? {k : Kind} {a : k.Carrier} (h : k.payload? a = none) :
    a = k.default := by
  cases k with
  | text => simpa [payload?, default] using h
  | flag => simpa [payload?, default] using h
  | bytes => simpa [payload?, default] using h
  | struct =>
    cases a with
    | none => rfl
    | some s => cases h

/-- What was written for a field is read back into an unset one as what the field held. -/
theorem readWith_payload? {n : Nat} {k : Kind} {a : k.Carrier} (settled : k.Settled n a)
    {p : Payload} (h : k.payload? a = some p) (fits : p.Fits) :
    k.readWith (inside n) k.default p = .value a := by
  cases k with
  | text =>
    simp only [payload?] at h
    split at h
    · cases h
    · cases h; simp [readWith, Reading.ofOption]
  | flag =>
    simp only [payload?] at h
    split at h
    · next hb => cases h; simp [readWith, hb]
    · cases h
  | bytes =>
    simp only [payload?] at h
    split at h
    · cases h
    · cases h; rfl
  | struct =>
    cases a with
    | none => cases h
    | some s =>
      cases h
      have read : (inside n).struct {} s.encode = some s := Struct.Settled.read settled fits
      simp only [readWith, default, Option.getD_none, read]
      rfl

end Kind

theorem Slot.find?_number {M : Type} {ss : List (Slot M)}
    (nodup : (ss.map (·.number)).Nodup) {s : Slot M} (hs : s ∈ ss) :
    (ss.find? fun t => t.number == s.number) = some s := by
  induction ss with
  | nil => cases hs
  | cons t rest ih =>
    rw [List.map_cons] at nodup
    obtain ⟨fresh, nodup⟩ := List.nodup_cons.1 nodup
    rcases List.mem_cons.1 hs with rfl | hs
    · simp
    · have ne : t.number ≠ s.number := fun he => fresh (he ▸ List.mem_map_of_mem hs)
      rw [List.find?_cons_of_neg (by simpa using ne)]
      exact ih nodup hs

namespace Message

variable {M : Type} [Message M]

/-- The fields that are written for a slot of a message: one, or none at the default. -/
def fieldOf (m : M) (s : Slot M) : List Field :=
  ((s.kind.payload? (s.get m)).map (Field.written s.number)).toList

/-- The fields that are written for the slots of a message. -/
def knownFields (m : M) : List Field := slots.flatMap (fieldOf m)

theorem encode_eq_knownFields (m : M) :
    encode m = (knownFields m).flatMap (·.raw) ++ unknown m := by
  rw [encode, knownFields, List.flatMap_assoc]
  simp only [Kind.encode_eq, fieldOf]

omit [Message M] in
theorem mem_fieldOf {m : M} {s : Slot M} {f : Field} :
    f ∈ fieldOf m s ↔ ∃ p, s.kind.payload? (s.get m) = some p ∧ Field.written s.number p = f := by
  simp only [fieldOf, Option.mem_toList, Option.map_eq_some_iff]

/-- The slots of a message type are independent places of a message, each with a number of its
own, and together with the unknown fields they make up every message. -/
structure Lawful (M : Type) [Message M] : Prop where
  nodup : ((slots (M := M)).map (·.number)).Nodup
  number_pos : ∀ s ∈ slots (M := M), 0 < s.number
  number_lt : ∀ s ∈ slots (M := M), s.number < 2 ^ 29
  get_blank : ∀ s ∈ slots (M := M), s.get blank = s.kind.default
  set_get : ∀ s ∈ slots (M := M), ∀ m, s.set (s.get m) m = m
  get_set_self : ∀ s ∈ slots (M := M), ∀ a m, s.get (s.set a m) = a
  get_set : ∀ s ∈ slots (M := M), ∀ t ∈ slots (M := M), s.number ≠ t.number →
    ∀ a m, t.get (s.set a m) = t.get m
  get_keep : ∀ s ∈ slots (M := M), ∀ raw m, s.get (keep raw m) = s.get m
  unknown_blank : unknown (blank : M) = []
  unknown_set : ∀ s ∈ slots (M := M), ∀ a m, unknown (s.set a m) = unknown m
  unknown_keep : ∀ raw (m : M), unknown (keep raw m) = unknown m ++ raw
  keep_nil : ∀ m : M, keep [] m = m
  keep_append : ∀ first second (m : M), keep (first ++ second) m = keep second (keep first m)
  made : ∀ m : M, keep (unknown m) (slots.foldl (fun made s => s.set (s.get m) made) blank) = m

/-- Everything that a message holds is short enough for the wire. -/
def Fits (m : M) : Prop := ∀ s ∈ slots (M := M), s.kind.Fits (s.get m)

/-- Every field that is written for a message is as short as a reader accepts. -/
def Sized (m : M) : Prop :=
  ∀ s ∈ slots (M := M), ∀ p, s.kind.payload? (s.get m) = some p → p.Fits

instance (m : M) : Decidable (Sized m) :=
  inferInstanceAs (Decidable
    (∀ s ∈ slots (M := M), ∀ p ∈ s.kind.payload? (s.get m), p.Fits))

/-- Takes a field into a message with the given readers of nested messages. -/
def takeWith (R : Readers) (m : M) (f : Field) : Option M :=
  match slots.find? fun s : Slot M => s.number == f.number with
  | none => some (keep f.raw m)
  | some s =>
    match s.kind.readWith R (s.get m) f.payload with
    | .foreign => some (keep f.raw m)
    | .malformed => none
    | .value a => some (s.set a m)

/-- Reads a message in which `room` messages may be nested, with the given readers of these. -/
def readWith (room : Nat) (R : Readers) (bytes : Bytes) : Option M :=
  readFields room (takeWith R) blank bytes

theorem decode_eq_readWith (bytes : Bytes) :
    (decode bytes : Option M) = readWith nesting (inside nesting) bytes := by
  have step : (take : M → Field → Option M) = takeWith (inside nesting) := by
    funext m f
    simp only [take, takeWith, Kind.read_eq_readWith]
    rfl
  rw [decode, readWith, step]

/-- A message is such as reading leaves it where `n` messages may be nested in it. -/
structure Settled (n : Nat) (m : M) : Prop where
  known : ∀ s ∈ slots (M := M), s.kind.Settled n (s.get m)
  kept : ∀ made : M,
    readFields n (takeWith (inside n)) made (unknown m) = some (keep (unknown m) made)

section

variable (lawful : Lawful M)

include lawful

/-- What is written for a slot is read as one field. -/
theorem intact_of_mem_knownFields {m : M} (sized : Sized m) (n : Nat) {f : Field}
    (h : f ∈ knownFields m) : f.Intact n := by
  obtain ⟨s, hs, hf⟩ := List.mem_flatMap.1 h
  obtain ⟨p, hp, rfl⟩ := mem_fieldOf.1 hf
  exact Field.intact_written n (lawful.number_pos s hs) (lawful.number_lt s hs) (sized s hs p hp)

theorem takeWith_written {n : Nat} {m : M} {s : Slot M} (hs : s ∈ slots (M := M))
    (settled : s.kind.Settled n (s.get m)) {p : Payload}
    (h : s.kind.payload? (s.get m) = some p) (fits : p.Fits) {made : M}
    (unset : s.get made = s.kind.default) :
    takeWith (inside n) made (Field.written s.number p) = some (s.set (s.get m) made) := by
  have read := Kind.readWith_payload? settled h fits
  simp only [takeWith, Field.written, Slot.find?_number lawful.nodup hs, unset, read]

/-- Reading the fields of some of the slots sets these slots, if they are still at their
defaults. -/
theorem foldlM_takeWith {n : Nat} {m : M}
    (settled : ∀ s ∈ slots (M := M), s.kind.Settled n (s.get m)) (sized : Sized m)
    {todo : List (Slot M)} (sub : ∀ s ∈ todo, s ∈ slots (M := M))
    (apart : (todo.map (·.number)).Nodup) {made : M}
    (unset : ∀ s ∈ todo, s.get made = s.kind.default) :
    (todo.flatMap (fieldOf m)).foldlM (takeWith (inside n)) made =
      some (todo.foldl (fun made s => s.set (s.get m) made) made) := by
  -- On the slots to do; those that are done stay as they are, for the slots are independent.
  induction todo generalizing made with
  | nil => rfl
  | cons s rest ih =>
    have hs := sub s List.mem_cons_self
    obtain ⟨fresh, apart⟩ := List.nodup_cons.1 (List.map_cons ▸ apart)
    have later : ∀ t ∈ rest, t ∈ slots (M := M) := fun t ht => sub t (List.mem_cons_of_mem _ ht)
    have still : ∀ t ∈ rest, t.get made = t.kind.default := fun t ht =>
      unset t (List.mem_cons_of_mem _ ht)
    rw [List.flatMap_cons, List.foldl_cons]
    cases h : s.kind.payload? (s.get m) with
    | none =>
      -- The slot is at its default on both sides, so leaving it out sets it.
      have same : s.get m = s.get made := by
        rw [Kind.eq_default_of_payload? h, unset s List.mem_cons_self]
      rw [same, lawful.set_get s hs made]
      simpa [fieldOf, h] using ih later apart still
    | some p =>
      have read := takeWith_written lawful hs (settled s hs) h (sized s hs p h)
        (unset s List.mem_cons_self)
      have still' : ∀ t ∈ rest, t.get (s.set (s.get m) made) = t.kind.default := fun t ht => by
        have other : s.number ≠ t.number := fun he => fresh (he ▸ List.mem_map_of_mem ht)
        rw [lawful.get_set s hs t (later t ht) other, still t ht]
      simpa [fieldOf, h, read] using ih later apart still'

/-- **A settled message is read back as it was written.** -/
theorem Settled.read {n : Nat} {m : M} (settled : Settled n m) (sized : Sized m) :
    readWith n (inside n) (encode m) = some m := by
  have fields : readFields n (takeWith (inside n)) blank ((knownFields m).flatMap (·.raw)) =
      some (slots.foldl (fun made s => s.set (s.get m) made) blank) := by
    rw [readFields, Field.all?_of_intact fun _ => intact_of_mem_knownFields lawful sized n,
      Option.bind_some]
    exact foldlM_takeWith lawful settled.known sized (fun _ hs => hs) lawful.nodup
      lawful.get_blank
  rw [readWith, encode_eq_knownFields, readFields_append fields, settled.kept, lawful.made]

/-- A message of known fields without structs is settled. -/
theorem settled_of_fits (n : Nat) {m : M} (fits : Fits m) (known : unknown m = []) :
    Settled n m where
  known s hs := Kind.settled_of_fits n (fits s hs)
  kept made := by rw [known, readFields_nil, lawful.keep_nil]

/-- **A message is read back as it was written**, if what it holds is short enough and it holds
no unknown fields. -/
theorem parse_encode {m : M} (fits : Fits m) (known : unknown m = []) :
    parse (encode m) = .ok m := by
  have sized : Sized m := fun s hs _ => Kind.fits_of_payload? (fits s hs)
  have read := (settled_of_fits lawful nesting fits known).read lawful sized
  rw [parse, decode_eq_readWith, read]

end

end Message

/-! ### The messages of the service -/

/-- The types of messages. -/
inductive MessageType where
  | fetchRequest | fetchResponse | saveRequest | saveResponse
  | fetchStreamRequest | fetchStreamResponse | doCommandRequest | doCommandResponse

namespace MessageType

/-- The messages of a type. -/
abbrev Carrier : MessageType → Type
  | fetchRequest => FetchRequest
  | fetchResponse => FetchResponse
  | saveRequest => SaveRequest
  | saveResponse => SaveResponse
  | fetchStreamRequest => FetchStreamRequest
  | fetchStreamResponse => FetchStreamResponse
  | doCommandRequest => DoCommandRequest
  | doCommandResponse => DoCommandResponse

instance : (t : MessageType) → Message t.Carrier
  | fetchRequest => inferInstanceAs (Message FetchRequest)
  | fetchResponse => inferInstanceAs (Message FetchResponse)
  | saveRequest => inferInstanceAs (Message SaveRequest)
  | saveResponse => inferInstanceAs (Message SaveResponse)
  | fetchStreamRequest => inferInstanceAs (Message FetchStreamRequest)
  | fetchStreamResponse => inferInstanceAs (Message FetchStreamResponse)
  | doCommandRequest => inferInstanceAs (Message DoCommandRequest)
  | doCommandResponse => inferInstanceAs (Message DoCommandResponse)

theorem lawful (t : MessageType) : Message.Lawful t.Carrier := by
  cases t <;> exact {
    nodup := by decide
    number_pos := by simp [Message.slots]
    number_lt := by simp [Message.slots]
    get_blank := by simp [Message.slots, Message.blank, Kind.default]
    set_get := by simp [Message.slots]
    get_set_self := by simp [Message.slots]
    get_set := by simp [Message.slots]
    get_keep := by simp [Message.slots, Message.keep]
    unknown_blank := rfl
    unknown_set := by simp [Message.slots, Message.unknown]
    unknown_keep := fun _ _ => rfl
    keep_nil := by simp [Message.keep]
    keep_append := by simp [Message.keep]
    made := fun _ => rfl }

end MessageType

end Footage.Wire
