import Footage.Proofs.Wire.Depth

/-!
# Reading settles

Whatever is read into a settled message leaves it settled, but for one thing: an entry without a
value is written with an empty one, and where the entry is the last message for which there is room
when it is read, there is no room for that value.

So a message that was read is settled where there is room for one more message, and it is settled in
the same room if it has no entry that is the last message.  `Tree.NearSettled` says both, with the
`spare` room as a parameter: a condition on the depth of entries (`Tree.Roomy`) is there only if no
room is spare.  The condition stands at each part of a message and not in front of all of them: a
part may be replaced by what is read later, and then it does not matter how deep its entries were.
-/

namespace Footage.Wire

/-! ### Room for the values of entries -/

/-- If no room is spare, no entry of the struct is the last of `n` messages. -/
def Struct.Roomy (spare n : Nat) (s : Struct) : Prop := spare = 0 → ¬ s.HasEntryAt n

/-- If no room is spare, no entry in the value is the last of `n` messages. -/
def Tree.Roomy (spare n : Nat) (t : Tree) : Prop := spare = 0 → ¬ t.HasEntryAt n

namespace Struct.Roomy

variable {spare n : Nat} {s : Struct}

theorem not_keeps_nil (entries : List (String × Tree)) (e : Entry) :
    ¬ Struct.Keeps ⟨entries, []⟩ e := by
  intro keeps
  have field := keeps.mem_fields (by omega) (by omega) (Nat.zero_le _) (Field.all?_nil 0)
  cases field

/-- If a struct has room, so has each of its entries alone. -/
theorem entry (h : s.Roomy spare n) {p : String × Tree} (hp : p ∈ s.entries) :
    Struct.Roomy spare n ⟨[p], []⟩ := by
  intro tight has
  refine h tight ?_
  cases has with
  | entry => exact .entry hp
  | value hq inside =>
    obtain rfl := List.mem_singleton.1 hq
    exact .value hp inside
  | kept keeps => exact absurd keeps (not_keeps_nil _ _)

/-- If a struct has room, so have the fields that it keeps. -/
theorem unknown (h : s.Roomy spare n) : Struct.Roomy spare n ⟨[], s.unknown⟩ := by
  intro tight has
  refine h tight ?_
  cases has with
  | entry hp => cases hp
  | value hp => cases hp
  | kept keeps hv inside => exact .kept keeps hv inside

end Struct.Roomy

/-! ### Messages that are settled but for room -/

/-- A struct is such as reading leaves it, but that entries and kept fields come to where they
belong only if they have room. -/
structure Struct.NearSettled (spare n : Nat) (s : Struct) : Prop where
  ordered : Ordered s.entries
  entries : ∀ p ∈ s.entries, Struct.Roomy spare n ⟨[p], []⟩ →
    (encodeEntries [p]).length ≤ longest →
      ∀ s', (inside (spare + n)).struct s' (encodeEntries [p]) = some (s'.insert p.1 p.2)
  whole : s.unknown.length ≤ longest → Whole s.unknown
  unknown : Struct.Roomy spare n ⟨[], s.unknown⟩ → Inert (spare + n) .struct s.unknown

/-- A list is such as reading leaves it, but that items come to where they belong only if they have
room. -/
structure ListNearSettled (spare n : Nat) (items : List Tree) (inner : Bytes) : Prop where
  items : ∀ t ∈ items, (∀ m, n = m + 1 → t.Roomy spare m) → (encodeItems [t]).length ≤ longest →
    ∀ l, (inside (spare + n)).list l (encodeItems [t]) = some (l.1 ++ [t], l.2)
  unknown : Inert (spare + n) .list inner

/-- A value is such as reading leaves it, but for the room of the entries in it. -/
structure Tree.NearSettled (spare n : Nat) (t : Tree) : Prop where
  ne_zero : n ≠ 0
  extra : Inert (spare + n) .tree t.extra
  inner :
    match t with
    | .null code _ => signExtended code = code
    | .struct entries inner _ => Struct.NearSettled spare (n - 1) ⟨entries, inner⟩
    | .list items inner _ => ListNearSettled spare (n - 1) items inner
    | _ => True

/-- An entry is such as reading leaves it, but for the room of the entries in its value. -/
structure Entry.NearSettled (spare n : Nat) (e : Entry) : Prop where
  value : ∀ t, e.value = some t → t.NearSettled spare (n - 1)
  unknown : Inert (spare + n) .entry e.unknown

/-- A message of a sort is such as reading leaves it, but for the room of the entries in it. -/
def Node.NearSettled (spare n : Nat) : (k : Node) → k.Carrier → Prop
  | tree, t => t.NearSettled spare n
  | struct, s => s.NearSettled spare n
  | entry, e => e.NearSettled spare n
  | list, (items, inner) => ListNearSettled spare n items inner

section

variable {spare n : Nat}

/-- A struct that has room is settled. -/
theorem Struct.NearSettled.settled {s : Struct} (near : s.NearSettled spare n)
    (roomy : s.Roomy spare n) : s.Settled (spare + n) where
  ordered := near.ordered
  entries p hp := near.entries p hp (roomy.entry hp)
  unknown := near.unknown roomy.unknown

/-- A value that has room is settled. -/
theorem Tree.NearSettled.settled {t : Tree} (near : t.NearSettled spare n)
    (roomy : t.Roomy spare n) : t.Settled (spare + n) := by
  obtain ⟨pos, extra, inner⟩ := near
  obtain ⟨n, rfl⟩ := Nat.exists_eq_succ_of_ne_zero pos
  refine ⟨extra, ?_⟩
  cases t with
  | null => exact inner
  | struct => exact inner.settled fun tight has => roomy tight (.struct has)
  | list =>
    refine ⟨fun t ht => inner.items t ht fun m hm tight has => roomy tight ?_, inner.unknown⟩
    obtain rfl : n = m + 1 := hm
    exact .item ht has
  | _ => trivial

/-- An entry whose value has room is settled. -/
theorem Entry.NearSettled.settled {e : Entry} (near : e.NearSettled spare (n + 1))
    (roomy : ∀ t, e.value = some t → t.Roomy spare n) : e.Settled (spare + (n + 1)) where
  value t ht := (near.value t ht).settled (roomy t ht)
  unknown := near.unknown

namespace NearSettled

theorem blank_tree (spare n : Nat) : Tree.NearSettled spare (n + 1) (.absent []) :=
  ⟨Nat.succ_ne_zero n, inert_nil (spare + n) .tree, trivial⟩

theorem blank_struct (spare n : Nat) : Struct.NearSettled spare (n + 1) {} :=
  ⟨.nil, by simp, fun _ => whole_nil, fun _ => inert_nil (spare + n) .struct⟩

theorem blank_entry (spare n : Nat) : Entry.NearSettled spare (n + 1) {} :=
  ⟨by simp, inert_nil (spare + n) .entry⟩

theorem blank_list (spare n : Nat) : ListNearSettled spare (n + 1) [] [] :=
  ⟨by simp, inert_nil (spare + n) .list⟩

end NearSettled

/-! ### One field -/

/-- The bytes of a field that a sort of messages does not know are kept as they are. -/
theorem inert_of_not_knows {n : Nat} {k : Node} {f : Field} (intact : f.Intact n)
    (h : ¬ k.Knows f.number f.payload) : Inert (n + 1) k f.raw := by
  intro _ a
  rw [Node.read_inside_succ, readFields_raw intact, Node.take_of_not_knows h]

/-- More bytes that are kept as they are keep a struct settled, but for its room. -/
theorem Struct.NearSettled.keep {s : Struct} (near : s.NearSettled spare n) {raw : Bytes}
    (whole : raw.length ≤ longest → Whole raw)
    (inert : Whole s.unknown → Struct.Roomy spare n ⟨[], s.unknown ++ raw⟩ →
      Inert (spare + n) .struct raw) :
    Struct.NearSettled spare n { s with unknown := s.unknown ++ raw } where
  ordered := near.ordered
  entries := near.entries
  whole size := by
    rw [List.length_append] at size
    exact (near.whole (by omega)).append (whole (by omega))
  unknown roomy size := by
    have before : Struct.Roomy spare n ⟨[], s.unknown⟩ := by
      intro tight has
      refine roomy tight ?_
      cases has with
      | entry hp => cases hp
      | value hp => cases hp
      | kept keeps hv inside => exact .kept (keeps.append raw) hv inside
    have whole : Whole s.unknown := by
      rw [List.length_append] at size
      exact near.whole (by omega)
    exact (near.unknown before).append (inert whole roomy) size

theorem Node.NearSettled.keep {k : Node} {a : k.Carrier} {f : Field}
    (near : k.NearSettled spare n a) (intact : f.Intact n) (inert : Inert (spare + n) k f.raw) :
    k.NearSettled spare n (k.keep f.raw a) := by
  cases k with
  | tree =>
    obtain ⟨pos, kept, inner⟩ := near
    have more := kept.append inert
    cases a <;> exact ⟨pos, more, inner⟩
  | struct => exact Struct.NearSettled.keep near (fun _ => intact.whole) fun _ _ => inert
  | entry => exact ⟨near.value, near.unknown.append inert⟩
  | list => exact ⟨near.items, near.unknown.append inert⟩

/-- A struct stays settled, but for its room, when an entry of this sort is added. -/
theorem Struct.NearSettled.add {s : Struct} (near : s.NearSettled spare (n + 2)) {e : Entry}
    (he : e.NearSettled spare (n + 1)) : (s.add e).NearSettled spare (n + 2) := by
  unfold Struct.add
  split
  · refine ⟨ordered_insertEntry e.key _ near.ordered, fun p hp roomy size s' => ?_, near.whole,
      near.unknown⟩
    rcases mem_insertEntry hp with rfl | hp
    · -- Where no room is spare, the entry is not the last message, so there is room for its value.
      obtain ⟨m, room⟩ : ∃ m, spare + n = m + 1 := by
        refine Nat.exists_eq_succ_of_ne_zero fun none => ?_
        obtain ⟨rfl, rfl⟩ : spare = 0 ∧ n = 0 := by omega
        exact roomy rfl (.entry List.mem_cons_self)
      have value : (e.value.getD (.absent [])).Settled (spare + n) := by
        cases hv : e.value with
        | none =>
          rw [room]
          exact ⟨inert_nil m .tree, trivial⟩
        | some t =>
          refine (he.value t hv).settled fun tight has => roomy tight ?_
          refine .value List.mem_cons_self ?_
          rwa [hv]
      exact read_encodeEntries value size s'
    · exact near.entries p hp roomy size s'
  · next unknown =>
    have fits (size : (writeDelimited 1 e.encode).length ≤ longest) : e.encode.length ≤ longest :=
      Nat.le_trans (length_le_writeDelimited 1 e.encode) size
    refine near.keep (fun size => whole_writeDelimited (by omega) (by omega) (fits size))
      fun whole roomy size s' => ?_
    -- The entry is kept as it is, so it needs no room of its own, but the entries in its value do.
    have keeps : Struct.Keeps ⟨[], s.unknown ++ writeDelimited 1 e.encode⟩ e :=
      ⟨s.unknown, [], by rw [List.append_nil], whole⟩
    have settled : e.Settled (spare + (n + 1)) :=
      he.settled fun t ht tight has => roomy tight (.kept keeps ht has)
    have fits : (Payload.delimited e.encode).Fits := fits size
    refine (Node.read_written (spare + (n + 1)) .struct (by omega) (by omega) fits s').trans ?_
    show ((inside (spare + (n + 1))).entry {} e.encode).map s'.add = _
    rw [settled.read fits, Option.map_some, Struct.add, if_neg unknown]
    rfl

end

/-! ### Reading -/

/-- Reading with the readers keeps messages settled, but for the room of their entries. -/
def Resettles (spare n : Nat) : Prop :=
  ∀ (k : Node) a bytes b, k.read (inside n) a bytes = some b → k.NearSettled spare n a →
    k.NearSettled spare n b

section

variable {spare n : Nat} (ih : Resettles spare n)

include ih

/-- Taking a field that is known keeps a message of any sort settled. -/
theorem Node.Knows.nearSettled_take {k : Node} {a b : k.Carrier} {f : Field}
    (known : k.Knows f.number f.payload) (h : k.take (inside n) a f = some b)
    (near : k.NearSettled spare (n + 1) a) : k.NearSettled spare (n + 1) b := by
  obtain ⟨number, payload, raw⟩ := f
  -- Where a message is nested in the field there is room for it, so what is in it is settled.
  cases known with
  | null code =>
    cases h
    exact ⟨near.ne_zero, near.extra, signExtended_signExtended code⟩
  | number | flag =>
    cases h
    exact ⟨near.ne_zero, near.extra, trivial⟩
  | text =>
    obtain ⟨s, -, rfl⟩ := Option.map_eq_some_iff.1 h
    exact ⟨near.ne_zero, near.extra, trivial⟩
  | struct =>
    obtain ⟨s, hs, rfl⟩ := Option.map_eq_some_iff.1 h
    cases n with
    | zero => cases hs
    | succ n =>
      have before : a.asStruct.NearSettled spare (n + 1) := by
        cases a with
        | struct => exact near.inner
        | _ => exact NearSettled.blank_struct spare n
      exact ⟨near.ne_zero, near.extra, ih .struct _ _ _ hs before⟩
  | list =>
    obtain ⟨l, hl, rfl⟩ := Option.map_eq_some_iff.1 h
    cases n with
    | zero => cases hl
    | succ n =>
      have before : ListNearSettled spare (n + 1) a.asList.1 a.asList.2 := by
        cases a with
        | list => exact near.inner
        | _ => exact NearSettled.blank_list spare n
      exact ⟨near.ne_zero, near.extra, ih .list _ _ _ hl before⟩
  | key =>
    obtain ⟨key, -, rfl⟩ := Option.map_eq_some_iff.1 h
    exact ⟨near.value, near.unknown⟩
  | value =>
    obtain ⟨t, ht, rfl⟩ := Option.map_eq_some_iff.1 h
    cases n with
    | zero => cases ht
    | succ n =>
      have before : (a.value.getD (.absent [])).NearSettled spare (n + 1) := by
        cases hv : a.value with
        | none => exact NearSettled.blank_tree spare n
        | some u => exact near.value u hv
      have after : t.NearSettled spare (n + 1) := ih .tree _ _ _ ht before
      refine ⟨fun u hu => ?_, near.unknown⟩
      cases hu
      exact after
  | entry =>
    obtain ⟨e, he, rfl⟩ := Option.map_eq_some_iff.1 h
    cases n with
    | zero => cases he
    | succ n => exact near.add (ih .entry _ _ _ he (NearSettled.blank_entry spare n))
  | item =>
    obtain ⟨t, ht, rfl⟩ := Option.map_eq_some_iff.1 h
    cases n with
    | zero => cases ht
    | succ n =>
      have item : t.NearSettled spare (n + 1) :=
        ih .tree _ _ _ ht (NearSettled.blank_tree spare n)
      refine ⟨fun u hu roomy size l => ?_, near.unknown⟩
      rcases List.mem_append.1 hu with hu | hu
      · exact near.items u hu roomy size l
      · obtain rfl := List.mem_singleton.1 hu
        exact read_encodeItems (item.settled (roomy (n + 1) rfl)) size l

/-- Taking a field keeps a message of any sort settled, but for the room of its entries. -/
theorem Node.nearSettled_take {k : Node} {a b : k.Carrier} {f : Field} (intact : f.Intact n)
    (h : k.take (inside n) a f = some b) (near : k.NearSettled spare (n + 1) a) :
    k.NearSettled spare (n + 1) b := by
  by_cases known : k.Knows f.number f.payload
  · exact known.nearSettled_take ih h near
  · rw [take_of_not_knows known] at h
    cases h
    exact near.keep (intact.mono (Nat.le_succ n))
      (inert_of_not_knows (intact.mono (Nat.le_add_left n spare)) known)

end

/-- What is read is settled, but for the room of its entries. -/
theorem resettles (spare n : Nat) : Resettles spare n := by
  induction n with
  | zero =>
    intro k a bytes b h
    rw [inside, Node.read_none] at h
    cases h
  | succ n ih =>
    -- What is nested in the fields is read by the readers for which the claim holds already.
    intro k a bytes b h near
    rw [Node.read_inside_succ] at h
    exact readFields_induction h near fun f a b intact => Node.nearSettled_take ih intact

end Footage.Wire
