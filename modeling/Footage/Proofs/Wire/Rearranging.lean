import Footage.Proofs.Wire.Canonical
import Footage.Proofs.Wire.Forms
import Footage.Proofs.Wire.Plain
import Mathlib.Data.List.Basic
import Mathlib.Data.List.Flatten

/-!
# Fields in any order, among others

The fields of a message may arrive in any order, and between them there may be others that the
message type does not know (`Message.knows`).  What is read is the same: every known field holds
what the message held, and the others are kept behind them in the order in which they came
(`MessageType.parse_rearranged`).

While such a run of fields is read, the known ones that are still to come belong to slots that are
still at their defaults (`Message.Awaits`).  One field leaves it so: a known one sets its own slot
and no other, and any other one sets none.
-/

namespace Footage.Wire

namespace Kind

variable {R : Readers} {k : Kind} {old a : k.Carrier} {p : Payload}

/-- Whether a payload is of the wire type that fields of a kind have. -/
def takes : Kind → Payload → Bool
  | text, .delimited _ | bytes, .delimited _ | struct, .delimited _ | flag, .varint _ => true
  | _, _ => false

theorem Reading.ofOption_ne_foreign {α : Type} (o : Option α) : ofOption o ≠ .foreign := by
  cases o <;> simp [ofOption]

theorem readWith_eq_foreign_iff : k.readWith R old p = .foreign ↔ k.takes p = false := by
  cases k <;> cases p <;> simp [readWith, takes, Reading.ofOption_ne_foreign]

theorem takes_of_payload? (h : k.payload? a = some p) : k.takes p = true := by
  cases k with
  | text =>
    simp only [payload?] at h
    split at h <;> cases h
    rfl
  | flag =>
    simp only [payload?] at h
    split at h <;> cases h
    rfl
  | bytes =>
    simp only [payload?] at h
    split at h <;> cases h
    rfl
  | struct =>
    cases a <;> cases h
    rfl

end Kind

/-- Of the slots in a list, each has at most one field. -/
theorem Message.numbers_fieldOf {M : Type} (m : M) (todo : List (Slot M)) :
    ((todo.flatMap (fieldOf m)).map (·.number)).Sublist (todo.map (·.number)) := by
  induction todo with
  | nil => exact .slnil
  | cons s rest ih =>
    rw [List.flatMap_cons, List.map_append, List.map_cons]
    cases h : s.kind.payload? (s.get m) with
    | none => simpa [fieldOf, h] using ih.cons s.number
    | some p => simpa [fieldOf, h, Field.written] using ih

/-- Fields that all have bytes are not left out unless bytes are missing. -/
theorem Field.forall_of_flatMap_filter {fs : List Field} {q : Field → Bool}
    (nonempty : ∀ f ∈ fs, f.raw ≠ [])
    (same : (fs.filter q).flatMap (·.raw) = fs.flatMap (·.raw)) : ∀ f ∈ fs, q f = true := by
  induction fs with
  | nil => simp
  | cons f rest ih =>
    obtain ⟨first, others⟩ := List.forall_mem_cons.1 nonempty
    by_cases h : q f
    · rw [List.filter_cons_of_pos h, List.flatMap_cons, List.flatMap_cons,
        List.append_cancel_left_eq] at same
      exact List.forall_mem_cons.2 ⟨h, ih others same⟩
    · rw [List.filter_cons_of_neg h, List.flatMap_cons] at same
      have shorter := ((List.filter_sublist (p := q) (l := rest)).flatMap (·.raw)).length_le
      have pos := List.length_pos_iff.2 first
      rw [same, List.length_append] at shorter
      omega

namespace Message

variable {M : Type} [Message M] {R : Readers} {m m' made : M} {s : Slot M} {f : Field}
  {fs arrived : List Field} {n : Nat}

/-- Whether a message type has a field with the number and the wire type of a field. -/
def knows (M : Type) [Message M] (f : Field) : Bool :=
  slots.any fun s : Slot M => s.number == f.number && s.kind.takes f.payload

/-- What is missing in a message that is being made of the fields of another one: each field that
is still to come is one that is written for a slot, which is still at its default; no two are for
the same slot; and all other slots hold what they are to hold. -/
structure Awaits (m made : M) (fs : List Field) : Prop where
  nodup : (fs.map (·.number)).Nodup
  unset : ∀ f ∈ fs, ∃ s ∈ slots (M := M), f ∈ fieldOf m s ∧ s.get made = s.kind.default
  done : ∀ s ∈ slots (M := M), s.number ∉ fs.map (·.number) → s.get made = s.get m

omit [Message M] in
theorem number_of_mem_fieldOf (h : f ∈ fieldOf m s) : f.number = s.number := by
  obtain ⟨p, -, rfl⟩ := mem_fieldOf.1 h
  rfl

theorem knows_of_mem_knownFields (h : f ∈ knownFields m) : knows M f = true := by
  obtain ⟨s, hs, hf⟩ := List.mem_flatMap.1 h
  obtain ⟨p, hp, rfl⟩ := mem_fieldOf.1 hf
  exact List.any_eq_true.2 ⟨s, hs, by simp [Field.written, Kind.takes_of_payload? hp]⟩

theorem Awaits.perm (h : Awaits m made fs) {fs' : List Field} (perm : fs.Perm fs') :
    Awaits m made fs' where
  nodup := (perm.map _).nodup_iff.1 h.nodup
  unset f hf := h.unset f (perm.mem_iff.2 hf)
  done s hs hn := h.done s hs fun mem => hn ((perm.map _).mem_iff.1 mem)

section

variable (lawful : Lawful M)

include lawful

theorem eq_of_number {t : Slot M} (hs : s ∈ slots (M := M)) (ht : t ∈ slots (M := M))
    (same : s.number = t.number) : s = t := by
  have found := Slot.find?_number lawful.nodup hs
  rw [same, Slot.find?_number lawful.nodup ht] at found
  exact (Option.some.inj found).symm

/-! ### Fields that are not known -/

theorem knows_iff_of_find? (found : (slots.find? fun s : Slot M => s.number == f.number) = some s) :
    knows M f = true ↔ s.kind.takes f.payload = true := by
  have hs := List.mem_of_find?_eq_some found
  have number : s.number = f.number := by simpa using List.find?_some found
  refine ⟨fun known => ?_, fun takes => List.any_eq_true.2 ⟨s, hs, by simp [takes, number]⟩⟩
  obtain ⟨t, ht, both⟩ := List.any_eq_true.1 known
  obtain ⟨number', takes⟩ := Bool.and_eq_true_iff.1 both
  obtain rfl := eq_of_number lawful hs ht (number.trans (eq_of_beq number').symm)
  exact takes

/-- A field that is not known is kept. -/
theorem takeWith_of_not_knows (h : knows M f = false) :
    takeWith R m f = some (keep f.raw m) := by
  unfold takeWith
  split
  · rfl
  · next s found =>
    have other : s.kind.takes f.payload = false := by
      rwa [← Bool.not_eq_true, ← knows_iff_of_find? lawful found, Bool.not_eq_true]
    simp only [Kind.readWith_eq_foreign_iff.2 other]

/-- Taking a field keeps it if it is not known, and else leaves what was kept before. -/
theorem unknown_takeWith (h : takeWith R m f = some m') :
    unknown m' = unknown m ++ if knows M f then [] else f.raw := by
  cases known : knows M f with
  | false =>
    rw [takeWith_of_not_knows lawful known] at h
    cases h
    simpa using lawful.unknown_keep f.raw m
  | true =>
    obtain ⟨s, hs, both⟩ := List.any_eq_true.1 known
    obtain ⟨number, takes⟩ := Bool.and_eq_true_iff.1 both
    have found := Slot.find?_number lawful.nodup hs
    rw [eq_of_beq number] at found
    simp only [takeWith, found] at h
    split at h
    · next foreign => simp [Kind.readWith_eq_foreign_iff.1 foreign] at takes
    · cases h
    · cases h
      simpa using lawful.unknown_set s hs _ m

/-- What a run of fields leaves unknown is those that are not known, in their order. -/
theorem unknown_foldlM (h : arrived.foldlM (takeWith R) made = some m') :
    unknown m' = unknown made ++ (arrived.filter (!knows M ·)).flatMap (·.raw) := by
  induction arrived generalizing made with
  | nil =>
    cases h
    simp
  | cons f rest ih =>
    obtain ⟨m₁, first, others⟩ := Option.bind_eq_some_iff.1 h
    rw [ih others, unknown_takeWith lawful first]
    cases known : knows M f <;> simp [known]

/-! ### Fields that are known -/

/-- A message in which no slot is set yet misses all fields. -/
theorem awaits_blank (m : M) : Awaits m blank (knownFields m) where
  nodup := (numbers_fieldOf m slots).nodup lawful.nodup
  unset f hf := by
    obtain ⟨s, hs, mem⟩ := List.mem_flatMap.1 hf
    exact ⟨s, hs, mem, lawful.get_blank s hs⟩
  done s hs hn := by
    rw [lawful.get_blank s hs]
    cases h : s.kind.payload? (s.get m) with
    | none => exact (Kind.eq_default_of_payload? h).symm
    | some p =>
      have mem := List.mem_flatMap.2 ⟨s, hs, mem_fieldOf.2 ⟨p, h, rfl⟩⟩
      exact absurd (List.mem_map_of_mem mem) hn

theorem Awaits.keep (h : Awaits m made fs) (raw : Bytes) : Awaits m (Message.keep raw made) fs where
  nodup := h.nodup
  unset f hf := by
    obtain ⟨s, hs, mem, unset⟩ := h.unset f hf
    exact ⟨s, hs, mem, by rw [lawful.get_keep s hs, unset]⟩
  done s hs hn := by rw [lawful.get_keep s hs, h.done s hs hn]

/-- When the slot of a field is set, the field is missing no more. -/
theorem Awaits.set (h : Awaits m made (f :: fs)) (hs : s ∈ slots (M := M))
    (mem : f ∈ fieldOf m s) : Awaits m (s.set (s.get m) made) fs := by
  obtain ⟨fresh, nodup⟩ := List.nodup_cons.1 (List.map_cons ▸ h.nodup)
  refine ⟨nodup, fun g hg => ?_, fun t ht hn => ?_⟩
  · obtain ⟨t, ht, mem', unset⟩ := h.unset g (List.mem_cons_of_mem _ hg)
    have other : s.number ≠ t.number := by
      rw [← number_of_mem_fieldOf mem, ← number_of_mem_fieldOf mem']
      exact fun same => fresh (same ▸ List.mem_map_of_mem hg)
    exact ⟨t, ht, mem', by rw [lawful.get_set s hs t ht other, unset]⟩
  · by_cases same : s.number = t.number
    · obtain rfl := eq_of_number lawful hs ht same
      exact lawful.get_set_self s hs _ _
    · rw [lawful.get_set s hs t ht same]
      refine h.done t ht fun mem' => ?_
      rcases List.mem_cons.1 (List.map_cons ▸ mem') with number | mem'
      · exact same (number.trans (number_of_mem_fieldOf mem)).symm
      · exact hn mem'

/-- A run of fields of which the known ones are those that are missing is read, and then none is
missing. -/
theorem Awaits.exists_foldlM (settled : ∀ s ∈ slots (M := M), s.kind.Settled n (s.get m))
    (sized : Sized m) (h : Awaits m made (arrived.filter (knows M))) :
    ∃ m', arrived.foldlM (takeWith (inside n)) made = some m' ∧
      ∀ s ∈ slots (M := M), s.get m' = s.get m := by
  -- One field at a time: a known one sets its slot, any other one is kept.
  induction arrived generalizing made with
  | nil => exact ⟨made, rfl, fun s hs => h.done s hs List.not_mem_nil⟩
  | cons f rest ih =>
    cases known : knows M f with
    | false =>
      rw [List.filter_cons_of_neg (by simp [known])] at h
      obtain ⟨m', run, holds⟩ := ih (h.keep lawful f.raw)
      exact ⟨m', by simpa [takeWith_of_not_knows lawful known] using run, holds⟩
    | true =>
      rw [List.filter_cons_of_pos known] at h
      obtain ⟨s, hs, mem, unset⟩ := h.unset f List.mem_cons_self
      obtain ⟨m', run, holds⟩ := ih (h.set lawful hs mem)
      obtain ⟨p, hp, rfl⟩ := mem_fieldOf.1 mem
      have read := takeWith_written lawful hs (settled s hs) hp (sized s hs p hp) unset
      exact ⟨m', by simpa [read] using run, holds⟩

/-! ### What a message is read from -/

/-- The unknown fields of a settled message are fields that its type does not know. -/
theorem Settled.exists_fields (settled : Settled n m) :
    ∃ kept, Field.all? n (unknown m) = some kept ∧ ∀ f ∈ kept, knows M f = false := by
  obtain ⟨kept, all, run⟩ := Option.bind_eq_some_iff.1 (settled.kept blank)
  obtain ⟨bytes, intact⟩ := Field.intact_of_all? all
  -- If one of them were known, its bytes would be missing in what is kept.
  have same : (kept.filter (!knows M ·)).flatMap (·.raw) = kept.flatMap (·.raw) := by
    have kept' := unknown_foldlM lawful run
    rw [lawful.unknown_keep, lawful.unknown_blank, List.nil_append, List.nil_append] at kept'
    rw [← kept', bytes]
  have nonempty : ∀ f ∈ kept, f.raw ≠ [] := fun f hf => (intact f hf).ne_nil
  exact ⟨kept, all, fun f hf => by simpa using Field.forall_of_flatMap_filter nonempty same f hf⟩

end

/-- The messages that there are: those whose fields were assigned, and those that were received, if
every entry of a struct in them has room for its value. -/
inductive Arises : M → Prop where
  | assigned {m : M} : Assigned m → Arises m
  | received {m : M} {bytes : Bytes} :
      decode bytes = some m → Sized m → ¬ HasEntryAt m nesting → Arises m

theorem Arises.settled (lawful : Lawful M) (h : Arises m) : Settled nesting m := by
  cases h with
  | assigned assigned => exact assigned.settled lawful
  | received read _ roomy =>
    rw [decode_eq_readWith] at read
    have settled := settled_of_read lawful 0 read fun _ => roomy
    rwa [Nat.zero_add] at settled

theorem Arises.sized (h : Arises m) : Sized m := by
  cases h with
  | assigned assigned => exact assigned.sized
  | received _ sized _ => exact sized

end Message

open Message (Arises encode knows knownFields nesting slots unknown)

/-- **Fields may arrive in any order, among others.**  Let a message of any type be given, which
was assigned or received, and let the fields of its serialisation that the type knows arrive in any
order.  Between them there may be others: unknown fields of the message itself, and any well-formed
ones that the type does not know, such as those whose numbers are not in the schema.  Then what
arrives is read; every known field is as it was; and what is kept is the other fields, in the order
in which they arrived.  So, if the message itself had no unknown fields, it is written as before,
with the others behind. -/
theorem MessageType.parse_rearranged (t : MessageType) {m : t.Carrier} (arises : Arises m) :
    ∃ fields, Field.all? nesting (encode m) = some fields ∧
      ∀ arrived : List Field,
        (arrived.filter (knows t.Carrier)).Perm (fields.filter (knows t.Carrier)) →
        (∀ f ∈ arrived, knows t.Carrier f = false → f ∈ fields ∨ f.Formed) →
        let others := (arrived.filter (!knows t.Carrier ·)).flatMap (·.raw)
        ∃ m' : t.Carrier, parse (arrived.flatMap (·.raw)) = .ok m' ∧
          (∀ s ∈ slots (M := t.Carrier), s.get m' = s.get m) ∧ unknown m' = others ∧
          (unknown m = [] → encode m' = encode m ++ others) := by
  have lawful := t.lawful
  have settled := arises.settled lawful
  have known : ∀ f ∈ knownFields m, f.Intact nesting := fun f =>
    Message.intact_of_mem_knownFields lawful arises.sized nesting
  obtain ⟨kept, all, strange⟩ := settled.exists_fields lawful
  obtain ⟨-, intact⟩ := Field.intact_of_all? all
  refine ⟨knownFields m ++ kept, ?_, fun arrived perm formed => ?_⟩
  · rw [Message.encode_eq_knownFields, Field.all?_append known, all]
    rfl
  have those : (knownFields m ++ kept).filter (knows t.Carrier) = knownFields m := by
    rw [List.filter_append, List.filter_eq_self.2 fun _ => Message.knows_of_mem_knownFields,
      List.filter_eq_nil_iff.2 fun f hf => by simp [strange f hf], List.append_nil]
  rw [those] at perm
  have pieces : ∀ f ∈ arrived, f.Intact nesting := by
    intro f hf
    cases hk : knows t.Carrier f with
    | true => exact known f (perm.mem_iff.1 (List.mem_filter.2 ⟨hf, hk⟩))
    | false =>
      rcases formed f hf hk with mem | formed
      · rcases List.mem_append.1 mem with mem | mem
        · exact known f mem
        · exact intact f mem
      · exact formed.intact nesting
  obtain ⟨m', run, holds⟩ := Message.Awaits.exists_foldlM lawful settled.known arises.sized
    ((Message.awaits_blank lawful m).perm perm.symm)
  have others := Message.unknown_foldlM lawful run
  rw [lawful.unknown_blank, List.nil_append] at others
  refine ⟨m', ?_, holds, others, fun bare => ?_⟩
  · rw [parse, Message.decode_eq_readWith, Message.readWith, readFields,
      Field.all?_of_intact pieces, Option.bind_some, run]
  · have same : (slots.flatMap fun s : Slot t.Carrier => s.kind.encode s.number (s.get m')) =
        slots.flatMap fun s => s.kind.encode s.number (s.get m) :=
      List.flatMap_congr fun s hs => by rw [holds s hs]
    rw [encode, encode, same, others, bare, List.append_nil]

/-! ### An instance -/

namespace MessageType

/-- A number with more bytes than it needs, under a key with more bytes than it needs. -/
def overlong : Field := ⟨9, .varint 127, [0xC8, 0x00] ++ [0xFF, 0x00]⟩

/-- Bytes that look like a field with a name. -/
def lookalike : Field :=
  ⟨15, .delimited [0x0A, 0x01, 0x78], [0x7A] ++ ([0x03] ++ [0x0A, 0x01, 0x78])⟩

/-- Four bytes under the largest number of all. -/
def furthest : Field :=
  ⟨2 ^ 29 - 1, .short [0, 0, 0, 0], [0xFD, 0xFF, 0xFF, 0xFF, 0x0F] ++ [0, 0, 0, 0]⟩

/-- The fields of a request to save a range, the last one first, with others between them. -/
def scattered : List Field := [
  .written 7 (.delimited (Bytes.ofText "7")), overlong, .written 6 (.varint 1), lookalike,
  .written 1 (.delimited (Bytes.ofText "vs-1")), furthest]

theorem formed_overlong : overlong.Formed :=
  .mk (by decide) (by decide) (by decide) (.varint (n := 127) (by decide))

theorem formed_lookalike : lookalike.Formed :=
  .mk (by decide) (by decide) (by decide) (.delimited (by decide) (by decide))

theorem formed_furthest : furthest.Formed :=
  .mk (by decide) (by decide) (by decide) (.short rfl)

/-- The scattered request is read, and it is written in order with the others behind. -/
theorem parse_rearranged_scattered :
    let m : saveRequest.Carrier := { name := "vs-1", background := true, requestId := "7" }
    ∃ m' : saveRequest.Carrier, parse (scattered.flatMap (·.raw)) = .ok m' ∧
      (∀ s ∈ slots (M := saveRequest.Carrier), s.get m' = s.get m) ∧
      encode m' = encode m ++ (overlong.raw ++ lookalike.raw ++ furthest.raw) := by
  intro m
  have assigned : Message.Assigned m := {
    plain := by simp [Message.slots, Kind.Plain]
    sized := by decide
    known := rfl }
  have all : Field.all? nesting (encode m) = some
      [.written 1 (.delimited (Bytes.ofText "vs-1")), .written 6 (.varint 1),
        .written 7 (.delimited (Bytes.ofText "7"))] := by
    decide +kernel
  have strange : scattered.filter (!knows saveRequest.Carrier ·) =
      [overlong, lookalike, furthest] := by
    decide +kernel
  have formed : ∀ f ∈ scattered, knows saveRequest.Carrier f = false → f.Formed := by
    intro f hf unknown
    have mem : f ∈ scattered.filter (!knows saveRequest.Carrier ·) :=
      List.mem_filter.2 ⟨hf, by simp [unknown]⟩
    rw [strange] at mem
    simp only [List.mem_cons, List.not_mem_nil, or_false] at mem
    rcases mem with rfl | rfl | rfl
    · exact formed_overlong
    · exact formed_lookalike
    · exact formed_furthest
  obtain ⟨fields, all', rearranged⟩ := parse_rearranged saveRequest (.assigned assigned)
  obtain rfl := Option.some.inj (all'.symm.trans all)
  obtain ⟨m', read, holds, -, again⟩ := rearranged scattered (by decide +kernel)
    fun f hf unknown => .inr (formed f hf unknown)
  rw [strange] at again
  exact ⟨m', read, holds, again rfl⟩

end MessageType

end Footage.Wire
