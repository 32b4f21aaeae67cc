import Footage.Proofs.Wire.Fronts
import Footage.Proofs.Wire.Order

/-!
# Messages in structured values

A structured value on the wire is made of messages of four sorts (`Node`): values, structs, entries
and lists.  All of them are read field by field, and this is said here of all sorts at once.

* Reading goes on from what a front was read into (`readFields_append`), and what every step keeps
  is kept by reading (`readFields_induction`).
* A field that a sort does not know is kept as it is (`Node.take_of_not_knows`).
* With more room for nested messages whatever was read before is read as before (`Readers.Le`,
  `inside_le_succ`).
-/

namespace Footage.Wire

variable {α : Type}

/-! ### Reading all fields -/

section

variable {room : Nat} {step : α → Field → Option α} {a b : α}

theorem readFields_nil (room : Nat) (step : α → Field → Option α) (a : α) :
    readFields room step a [] = some a := by
  simp [readFields, Field.all?_nil]

/-- Reading goes on from what a front was read into. -/
theorem readFields_append {front : Bytes} (h : readFields room step a front = some b)
    (rest : Bytes) : readFields room step a (front ++ rest) = readFields room step b rest := by
  obtain ⟨fields, hf, hb⟩ := Option.bind_eq_some_iff.1 h
  obtain ⟨rfl, intact⟩ := Field.intact_of_all? hf
  simp only [readFields, Field.all?_append intact]
  cases Field.all? room rest with
  | none => rfl
  | some others => simp only [Option.map_some, Option.bind_some, List.foldlM_append, hb]; rfl

/-- A field alone is one step. -/
theorem readFields_raw {f : Field} (h : f.Intact room) (step : α → Field → Option α) (a : α) :
    readFields room step a f.raw = step a f := by
  have one : ∀ g ∈ [f], g.Intact room := by simpa using h
  have all : Field.all? room f.raw = some [f] := by simpa using Field.all?_of_intact one
  simp [readFields, all]

/-- What every step keeps is kept by reading. -/
theorem readFields_induction {P : α → Prop} {bytes : Bytes}
    (h : readFields room step a bytes = some b) (init : P a)
    (keeps : ∀ f a b, f.Intact room → step a f = some b → P a → P b) : P b := by
  obtain ⟨fields, hf, hb⟩ := Option.bind_eq_some_iff.1 h
  obtain ⟨-, intact⟩ := Field.intact_of_all? hf
  clear h hf
  induction fields generalizing a with
  | nil =>
    cases hb
    exact init
  | cons f rest ih =>
    obtain ⟨first, others⟩ := List.forall_mem_cons.1 intact
    rw [List.foldlM_cons] at hb
    obtain ⟨a', ha, hb⟩ := Option.bind_eq_some_iff.1 hb
    exact ih (keeps f a a' first ha init) hb others

/-- Of the fields that are taken one after the other each is taken at its turn. -/
theorem exists_step_of_mem {fields : List Field} (h : fields.foldlM step a = some b) {f : Field}
    (hf : f ∈ fields) : ∃ c d, step c f = some d := by
  induction fields generalizing a with
  | nil => cases hf
  | cons g rest ih =>
    rw [List.foldlM_cons] at h
    obtain ⟨a', ha, h⟩ := Option.bind_eq_some_iff.1 h
    rcases List.mem_cons.1 hf with rfl | hf
    · exact ⟨a, a', ha⟩
    · exact ih h hf

/-- A reader with more room and a step that accepts more reads the same. -/
theorem readFields_mono {more : Nat} (le : room ≤ more) {step' : α → Field → Option α}
    (accepts : ∀ a f b, step a f = some b → step' a f = some b) {bytes : Bytes}
    (h : readFields room step a bytes = some b) : readFields more step' a bytes = some b := by
  obtain ⟨fields, hf, hb⟩ := Option.bind_eq_some_iff.1 h
  simp only [readFields, Field.all?_mono le hf, Option.bind_some]
  clear h hf
  induction fields generalizing a with
  | nil => exact hb
  | cons f rest ih =>
    rw [List.foldlM_cons] at hb ⊢
    obtain ⟨a', ha, hb⟩ := Option.bind_eq_some_iff.1 hb
    exact Option.bind_eq_some_iff.2 ⟨a', accepts a f a' ha, ih hb⟩

end

/-! ### Nodes -/

/-- The sorts of messages in a structured value. -/
inductive Node where
  | tree | struct | entry | list

namespace Node

/-- What a message of the sort is read into. -/
abbrev Carrier : Node → Type
  | tree => Tree
  | struct => Struct
  | entry => Entry
  | list => List Tree × Bytes

/-- The reader of a sort. -/
def read (R : Readers) : (k : Node) → k.Carrier → Bytes → Option k.Carrier
  | tree => R.tree
  | struct => R.struct
  | entry => R.entry
  | list => R.list

/-- Takes a field into a message of a sort. -/
def take (below : Readers) : (k : Node) → k.Carrier → Field → Option k.Carrier
  | tree => Tree.take below
  | struct => Struct.take below
  | entry => Entry.take below
  | list => takeItem below

/-- The message with more unknown fields. -/
def keep (raw : Bytes) : (k : Node) → k.Carrier → k.Carrier
  | tree, t => t.keep raw
  | struct, s => { s with unknown := s.unknown ++ raw }
  | entry, e => { e with unknown := e.unknown ++ raw }
  | list, (items, inner) => (items, inner ++ raw)

theorem read_over (R : Readers) (room : Nat) (k : Node) :
    k.read (R.over room) = readFields room (k.take R) := by
  cases k <;> rfl

theorem read_none (k : Node) (a : k.Carrier) (bytes : Bytes) : k.read .none a bytes = none := by
  cases k <;> rfl

theorem keep_nil (k : Node) (a : k.Carrier) : k.keep [] a = a := by
  cases k with
  | tree => cases a <;> simp [keep, Tree.keep]
  | struct => simp [keep]
  | entry => simp [keep]
  | list => simp [keep]

theorem keep_append (k : Node) (first second : Bytes) (a : k.Carrier) :
    k.keep (first ++ second) a = k.keep second (k.keep first a) := by
  cases k with
  | tree => cases a <;> simp [keep, Tree.keep]
  | struct => simp [keep]
  | entry => simp [keep]
  | list => simp [keep]

/-- The fields that the sorts of messages know. -/
inductive Knows : Node → Nat → Payload → Prop
  | null (n : Nat) : Knows tree 1 (.varint n)
  | number (bytes : Bytes) : Knows tree 2 (.long bytes)
  | text (bytes : Bytes) : Knows tree 3 (.delimited bytes)
  | flag (n : Nat) : Knows tree 4 (.varint n)
  | struct (bytes : Bytes) : Knows tree 5 (.delimited bytes)
  | list (bytes : Bytes) : Knows tree 6 (.delimited bytes)
  | key (bytes : Bytes) : Knows entry 1 (.delimited bytes)
  | value (bytes : Bytes) : Knows entry 2 (.delimited bytes)
  | entry (bytes : Bytes) : Knows struct 1 (.delimited bytes)
  | item (bytes : Bytes) : Knows list 1 (.delimited bytes)

/-- A field that a sort of messages does not know is kept as it is. -/
theorem take_of_not_knows {R : Readers} {k : Node} {f : Field}
    (h : ¬ k.Knows f.number f.payload) (a : k.Carrier) : k.take R a f = some (k.keep f.raw a) := by
  obtain ⟨number, payload, raw⟩ := f
  cases k with
  | tree =>
    simp only [take, Tree.take]
    split <;> first | rfl | exact absurd (by constructor) h
  | struct =>
    simp only [take, Struct.take]
    split <;> first | rfl | exact absurd (by constructor) h
  | entry =>
    simp only [take, Entry.take]
    split <;> first | rfl | exact absurd (by constructor) h
  | list =>
    simp only [take, takeItem]
    split <;> first | rfl | exact absurd (by constructor) h

end Node

/-- The second readers read all that the first ones read, and the same. -/
def Readers.Le (R R' : Readers) : Prop :=
  ∀ (k : Node) a bytes b, k.read R a bytes = some b → k.read R' a bytes = some b

namespace Readers.Le

variable {R R' : Readers}

theorem take (h : R.Le R') (k : Node) {a b : k.Carrier} {f : Field}
    (ht : k.take R a f = some b) : k.take R' a f = some b := by
  by_cases known : k.Knows f.number f.payload
  · obtain ⟨number, payload, raw⟩ := f
    cases known with
    | null | number | text | flag | key => exact ht
    | struct =>
      obtain ⟨s, hs, rfl⟩ := Option.map_eq_some_iff.1 ht
      exact Option.map_eq_some_iff.2 ⟨s, h .struct _ _ _ hs, rfl⟩
    | list =>
      obtain ⟨l, hl, rfl⟩ := Option.map_eq_some_iff.1 ht
      exact Option.map_eq_some_iff.2 ⟨l, h .list _ _ _ hl, rfl⟩
    | value =>
      obtain ⟨t, he, rfl⟩ := Option.map_eq_some_iff.1 ht
      exact Option.map_eq_some_iff.2 ⟨t, h .tree _ _ _ he, rfl⟩
    | entry =>
      obtain ⟨e, he, rfl⟩ := Option.map_eq_some_iff.1 ht
      exact Option.map_eq_some_iff.2 ⟨e, h .entry _ _ _ he, rfl⟩
    | item =>
      obtain ⟨t, he, rfl⟩ := Option.map_eq_some_iff.1 ht
      exact Option.map_eq_some_iff.2 ⟨t, h .tree _ _ _ he, rfl⟩
  · rwa [Node.take_of_not_knows known] at ht ⊢

theorem le_over (h : R.Le R') {room more : Nat} (le : room ≤ more) :
    (R.over room).Le (R'.over more) := by
  intro k a bytes b hb
  rw [Node.read_over] at hb ⊢
  exact readFields_mono le (fun _ _ _ => h.take k) hb

end Readers.Le

/-- The readers of the messages in a message inside which `n` may be nested. -/
def inside : Nat → Readers
  | 0 => .none
  | n + 1 => readers n

theorem inside_succ (n : Nat) : inside (n + 1) = (inside n).over n := by
  cases n <;> rfl

theorem inside_le_succ (n : Nat) : (inside n).Le (inside (n + 1)) := by
  induction n with
  | zero =>
    intro k a bytes b h
    rw [inside, Node.read_none] at h
    cases h
  | succ n ih =>
    rw [inside_succ n, inside_succ (n + 1)]
    exact ih.le_over (Nat.le_succ n)

namespace Node

theorem read_inside_succ (n : Nat) (k : Node) :
    k.read (inside (n + 1)) = readFields n (k.take (inside n)) := by
  rw [inside_succ, read_over]

theorem read_append {n : Nat} {k : Node} {a b : k.Carrier} {front : Bytes}
    (h : k.read (inside n) a front = some b) (rest : Bytes) :
    k.read (inside n) a (front ++ rest) = k.read (inside n) b rest := by
  cases n with
  | zero =>
    rw [inside, read_none] at h
    cases h
  | succ n =>
    rw [read_inside_succ] at h ⊢
    exact readFields_append h rest

end Node

end Footage.Wire
