import Footage.Proofs.Wire.Settled

/-!
# How deep entries lie

An entry of a struct is written with a value, also where it had none when it was read, so room for
the entry alone is not enough.  `Struct.HasEntryAt` and `Tree.HasEntryAt` tell at which depths the
entries lie that are written so, and such an entry must not be the last message for which there is
room: what is written is refused otherwise (`Struct.HasEntryAt.lt`).

The proof follows the messages from one to the next: where whole fields stand in front of a field
that holds a message (`Holds`), the message is read if all of them are (`Node.Reads.of_holds`).
-/

namespace Footage.Wire

/-! ### Whole fields -/

/-- The bytes are whole fields, one behind the other. -/
def Whole (bytes : Bytes) : Prop := ∃ room fields, Field.all? room bytes = some fields

theorem whole_nil : Whole [] := ⟨0, [], Field.all?_nil 0⟩

theorem Field.Intact.whole {room : Nat} {f : Field} (h : f.Intact room) : Whole f.raw := by
  have one : ∀ g ∈ [f], g.Intact room := by simpa using h
  exact ⟨room, [f], by simpa using Field.all?_of_intact one⟩

theorem whole_writeDelimited {number : Nat} (hpos : 0 < number) (hn : number < 2 ^ 29)
    {bytes : Bytes} (fits : bytes.length ≤ longest) : Whole (writeDelimited number bytes) :=
  (Field.intact_written 0 (p := .delimited bytes) hpos hn fits).whole

theorem Whole.append {first second : Bytes} (h₁ : Whole first) (h₂ : Whole second) :
    Whole (first ++ second) := by
  obtain ⟨room, fields, all⟩ := h₁
  obtain ⟨room', others, all'⟩ := h₂
  obtain ⟨rfl, intact⟩ := Field.intact_of_all? all
  let more := max room room'
  refine ⟨more, fields ++ others, ?_⟩
  rw [Field.all?_append fun f hf => (intact f hf).mono (Nat.le_max_left room room'),
    Field.all?_mono (Nat.le_max_right room room') all']
  rfl

/-- The bytes begin with whole fields, the last of which has a number and holds other bytes. -/
def Holds (bytes : Bytes) (number : Nat) (held : Bytes) : Prop :=
  ∃ front back, bytes = front ++ (writeDelimited number held ++ back) ∧ Whole front

namespace Holds

variable {bytes held : Bytes} {number : Nat}

theorem head (number : Nat) (held back : Bytes) :
    Holds (writeDelimited number held ++ back) number held :=
  ⟨[], back, rfl, whole_nil⟩

theorem append (h : Holds bytes number held) (rest : Bytes) :
    Holds (bytes ++ rest) number held := by
  obtain ⟨front, back, rfl, whole⟩ := h
  exact ⟨front, back ++ rest, by simp only [List.append_assoc], whole⟩

theorem behind (h : Holds bytes number held) {front : Bytes} (whole : Whole front) :
    Holds (front ++ bytes) number held := by
  obtain ⟨front', back, rfl, whole'⟩ := h
  exact ⟨front ++ front', back, (List.append_assoc _ _ _).symm, whole.append whole'⟩

theorem length_le (h : Holds bytes number held) : held.length ≤ bytes.length := by
  obtain ⟨front, back, rfl, -⟩ := h
  have short := length_le_writeDelimited number held
  simp only [List.length_append]
  omega

/-- What the bytes hold is in one of their fields. -/
theorem mem_fields (h : Holds bytes number held) (hpos : 0 < number) (hn : number < 2 ^ 29)
    (size : bytes.length ≤ longest) {room : Nat} {fields : List Field}
    (all : Field.all? room bytes = some fields) :
    Field.written number (.delimited held) ∈ fields := by
  have fits : (Payload.delimited held).Fits := Nat.le_trans h.length_le size
  obtain ⟨front, back, rfl, room', before, all'⟩ := h
  obtain ⟨rfl, intact⟩ := Field.intact_of_all? all'
  -- Groups may be nested to another depth in front of the field than in all of the bytes.
  let more := max room room'
  let all₂ := Field.all?_mono (Nat.le_max_left room room') all
  have field : ∀ f ∈ [Field.written number (.delimited held)], f.Intact more := by
    simpa using Field.intact_written more hpos hn fits
  have behind := Field.all?_append field back
  simp only [List.flatMap_singleton] at behind
  rw [Field.all?_append fun f hf => (intact f hf).mono (Nat.le_max_right room room')] at all₂
  obtain ⟨rest, hr, rfl⟩ := Option.map_eq_some_iff.1 all₂
  obtain ⟨last, -, rfl⟩ := Option.map_eq_some_iff.1 (behind.symm.trans hr)
  exact List.mem_append_right before (List.mem_append_left last List.mem_cons_self)

end Holds

/-- The fields of a struct are whole, one for each entry. -/
theorem whole_encodeEntries {entries : List (String × Tree)}
    (size : (encodeEntries entries).length ≤ longest) : Whole (encodeEntries entries) := by
  induction entries with
  | nil => simpa only [encodeEntries] using whole_nil
  | cons p rest ih =>
    simp only [encodeEntries, List.length_append] at size ⊢
    have fits := length_le_writeDelimited 1
      (writeDelimited 1 (Bytes.ofText p.1) ++ writeDelimited 2 p.2.encode)
    rw [List.length_append] at fits
    refine (whole_writeDelimited (by omega) (by omega) ?_).append (ih (by omega))
    rw [List.length_append]
    omega

/-- The fields of a list are whole, one for each item. -/
theorem whole_encodeItems {items : List Tree} (size : (encodeItems items).length ≤ longest) :
    Whole (encodeItems items) := by
  induction items with
  | nil => simpa only [encodeItems] using whole_nil
  | cons t rest ih =>
    simp only [encodeItems, List.length_append] at size ⊢
    have fits := length_le_writeDelimited 1 t.encode
    exact (whole_writeDelimited (by omega) (by omega) (by omega)).append (ih (by omega))

/-! ### Messages in messages -/

namespace Node

/-- The sorts of messages that a sort of messages holds, with the numbers of the fields. -/
inductive Nests : Node → Nat → Node → Prop
  | struct : Nests tree 5 struct
  | list : Nests tree 6 list
  | entry : Nests struct 1 entry
  | value : Nests entry 2 tree
  | item : Nests list 1 tree

/-- The bytes are read as a message of a sort, into some message or other. -/
def Reads (n : Nat) (k : Node) (bytes : Bytes) : Prop :=
  bytes.length ≤ longest ∧ ∃ a b, k.read (inside n) a bytes = some b

theorem Reads.ne_zero {n : Nat} {k : Node} {bytes : Bytes} (h : k.Reads n bytes) : n ≠ 0 := by
  rintro rfl
  obtain ⟨-, a, b, read⟩ := h
  rw [inside, read_none] at read
  cases read

/-- Taking a field that holds a message is reading the message. -/
theorem Nests.exists_read {n number : Nat} {k k' : Node} (nests : k.Nests number k')
    {a b : k.Carrier} {bytes raw : Bytes}
    (h : k.take (inside n) a ⟨number, .delimited bytes, raw⟩ = some b) :
    ∃ a' b', k'.read (inside n) a' bytes = some b' := by
  cases nests with
  | struct | list | entry | value | item =>
    obtain ⟨b', read, -⟩ := Option.map_eq_some_iff.1 h
    exact ⟨_, b', read⟩

/-- Where a message is read, so are the messages that it holds, with room for one less. -/
theorem Reads.of_holds {n number : Nat} {k k' : Node} (nests : k.Nests number k')
    {bytes held : Bytes} (h : k.Reads n bytes) (holds : Holds bytes number held) :
    ∃ m, n = m + 1 ∧ k'.Reads m held := by
  obtain ⟨m, rfl⟩ := Nat.exists_eq_succ_of_ne_zero h.ne_zero
  obtain ⟨size, a, b, read⟩ := h
  refine ⟨m, rfl, Nat.le_trans holds.length_le size, ?_⟩
  rw [read_inside_succ] at read
  obtain ⟨fields, all, run⟩ := Option.bind_eq_some_iff.1 read
  have number : 0 < number ∧ number < 2 ^ 29 := by cases nests <;> decide
  obtain ⟨c, d, taken⟩ :=
    exists_step_of_mem run (holds.mem_fields number.1 number.2 size all)
  exact nests.exists_read taken

end Node

/-! ### Entries that are written with a value -/

/-- The struct keeps an entry as it is among its unknown fields. -/
def Struct.Keeps (s : Struct) (e : Entry) : Prop := Holds s.unknown 1 e.encode

mutual

/-- The last of `n` messages, each in the one before it and the first of them the struct, is an
entry that is written with a value.  An entry that is kept as it is need not be; but the entries in
its value are. -/
inductive Struct.HasEntryAt : Struct → Nat → Prop
  | entry {s : Struct} {p : String × Tree} : p ∈ s.entries → Struct.HasEntryAt s 2
  | value {s : Struct} {p : String × Tree} {n : Nat} :
      p ∈ s.entries → Tree.HasEntryAt p.2 n → Struct.HasEntryAt s (n + 2)
  | kept {s : Struct} {e : Entry} {t : Tree} {n : Nat} :
      s.Keeps e → e.value = some t → Tree.HasEntryAt t n → Struct.HasEntryAt s (n + 2)

/-- The last of `n` messages, each in the one before it and the first of them the value, is an
entry that is written with a value. -/
inductive Tree.HasEntryAt : Tree → Nat → Prop
  | struct {entries : List (String × Tree)} {inner extra : Bytes} {n : Nat} :
      Struct.HasEntryAt ⟨entries, inner⟩ n → Tree.HasEntryAt (.struct entries inner extra) (n + 1)
  | item {items : List Tree} {inner extra : Bytes} {t : Tree} {n : Nat} :
      t ∈ items → Tree.HasEntryAt t n → Tree.HasEntryAt (.list items inner extra) (n + 2)

end

/-! ### What is written for them is refused where there is no room -/

theorem holds_entry {entries : List (String × Tree)} {p : String × Tree} (hp : p ∈ entries)
    (size : (encodeEntries entries).length ≤ longest) :
    Holds (encodeEntries entries) 1
      (writeDelimited 1 (Bytes.ofText p.1) ++ writeDelimited 2 p.2.encode) := by
  induction entries with
  | nil => cases hp
  | cons q rest ih =>
    rw [encodeEntries_cons, List.length_append] at size
    rcases List.mem_cons.1 hp with rfl | hp
    · exact .head 1 _ (encodeEntries rest)
    · rw [encodeEntries_cons]
      exact (ih hp (by omega)).behind (whole_encodeEntries (by omega))

theorem holds_item {items : List Tree} {t : Tree} (ht : t ∈ items)
    (size : (encodeItems items).length ≤ longest) : Holds (encodeItems items) 1 t.encode := by
  induction items with
  | nil => cases ht
  | cons u rest ih =>
    rw [encodeItems_cons, List.length_append] at size
    rcases List.mem_cons.1 ht with rfl | ht
    · exact .head 1 _ (encodeItems rest)
    · rw [encodeItems_cons]
      exact (ih ht (by omega)).behind (whole_encodeItems (by omega))

/-- The value of an entry stands behind the key. -/
theorem holds_value {key : String} {t : Tree}
    (size : (writeDelimited 1 (Bytes.ofText key)).length ≤ longest) :
    Holds (writeDelimited 1 (Bytes.ofText key) ++ writeDelimited 2 t.encode) 2 t.encode := by
  have short := length_le_writeDelimited 1 (Bytes.ofText key)
  have value := Holds.head 2 t.encode []
  rw [List.append_nil] at value
  exact value.behind (whole_writeDelimited (by omega) (by omega) (by omega))

theorem Entry.holds_value {e : Entry} {t : Tree} (hv : e.value = some t)
    (size : e.encode.length ≤ longest) : Holds e.encode 2 t.encode := by
  simp only [Entry.encode, hv, List.length_append, List.append_assoc] at size ⊢
  refine (Holds.head 2 t.encode e.unknown).behind ?_
  -- An entry without a key starts with its value.
  split
  · exact whole_nil
  · next named =>
    rw [if_neg named] at size
    have short := length_le_writeDelimited 1 (Bytes.ofText e.key)
    exact whole_writeDelimited (by omega) (by omega) (by omega)

namespace Node.Reads

variable {n : Nat} {s : Struct} {t : Tree}

/-- Where a struct is read as it is written, so are the values of its entries. -/
theorem value (h : struct.Reads n s.encode) {p : String × Tree} (hp : p ∈ s.entries) :
    ∃ m, n = m + 2 ∧ tree.Reads m p.2.encode := by
  have size := h.1
  rw [Struct.encode, List.length_append] at size
  obtain ⟨m, rfl, entry⟩ := h.of_holds .entry ((holds_entry hp (by omega)).append s.unknown)
  have size := entry.1
  rw [List.length_append] at size
  obtain ⟨m, rfl, value⟩ := entry.of_holds .value (holds_value (by omega))
  exact ⟨m, rfl, value⟩

/-- Where a struct is read as it is written, so are the values of entries that it keeps. -/
theorem kept (h : struct.Reads n s.encode) {e : Entry} (keeps : s.Keeps e)
    (hv : e.value = some t) : ∃ m, n = m + 2 ∧ tree.Reads m t.encode := by
  have size := h.1
  rw [Struct.encode, List.length_append] at size
  obtain ⟨m, rfl, entry⟩ :=
    h.of_holds .entry (Holds.behind keeps (whole_encodeEntries (by omega)))
  obtain ⟨m, rfl, value⟩ := entry.of_holds .value (Entry.holds_value hv entry.1)
  exact ⟨m, rfl, value⟩

/-- Where a value is read as it is written, so is the struct in it. -/
theorem struct {entries : List (String × Tree)} {inner extra : Bytes}
    (h : tree.Reads n (Tree.struct entries inner extra).encode) :
    ∃ m, n = m + 1 ∧ Node.struct.Reads m (Struct.encode ⟨entries, inner⟩) :=
  h.of_holds .struct (.head 5 _ extra)

/-- Where a value is read as it is written, so are the items of the list in it. -/
theorem item {items : List Tree} {inner extra : Bytes}
    (h : tree.Reads n (Tree.list items inner extra).encode) (ht : t ∈ items) :
    ∃ m, n = m + 2 ∧ tree.Reads m t.encode := by
  obtain ⟨m, rfl, list⟩ := h.of_holds .list (.head 6 _ extra)
  have size := list.1
  rw [List.length_append] at size
  obtain ⟨m, rfl, item⟩ := list.of_holds .item ((holds_item ht (by omega)).append inner)
  exact ⟨m, rfl, item⟩

end Node.Reads

mutual

/-- **Where a struct is read as it is written, no entry is the last message for which there is
room.** -/
theorem Struct.HasEntryAt.lt {s : Struct} {n room : Nat} (h : s.HasEntryAt n)
    (reads : Node.struct.Reads room s.encode) : n < room := by
  cases h with
  | entry hp =>
    obtain ⟨m, rfl, value⟩ := reads.value hp
    have := value.ne_zero
    omega
  | value hp inside =>
    obtain ⟨m, rfl, value⟩ := reads.value hp
    have := inside.lt value
    omega
  | kept keeps hv inside =>
    obtain ⟨m, rfl, value⟩ := reads.kept keeps hv
    have := inside.lt value
    omega

theorem Tree.HasEntryAt.lt {t : Tree} {n room : Nat} (h : t.HasEntryAt n)
    (reads : Node.tree.Reads room t.encode) : n < room := by
  cases h with
  | struct inside =>
    obtain ⟨m, rfl, struct⟩ := reads.struct
    have := inside.lt struct
    omega
  | item ht inside =>
    obtain ⟨m, rfl, item⟩ := reads.item ht
    have := inside.lt item
    omega

end

end Footage.Wire
