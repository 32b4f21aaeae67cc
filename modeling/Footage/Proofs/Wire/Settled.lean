import Footage.Proofs.Wire.Nodes

/-!
# Settled messages

A message in a structured value is *settled* where `n` messages may be nested if it is such as
reading leaves it: its entries stand in order, the parts of its own sort are read back one by one,
and its unknown fields are still unknown to it (`Inert`).  A settled message is read back as it is
written, if it is not too long for the wire: `Tree.Settled.read`, `Struct.Settled.read`,
`ListSettled.read` and `Entry.Settled.read`.

An entry of a struct is written with a value even where it had none.  So an entry with a settled
value needs room for two messages, itself and the value (`read_encodeEntries`).
-/

namespace Footage.Wire

/-! ### Numbers -/

theorem length_littleEndian (n x : Nat) : (littleEndian n x).length = n := by
  induction n generalizing x with
  | zero => rfl
  | succ n ih => simp [littleEndian, ih]

theorem ofLittleEndian_littleEndian (n x : Nat) :
    ofLittleEndian (littleEndian n x) = x % 256 ^ n := by
  induction n generalizing x with
  | zero => simp [littleEndian, ofLittleEndian, Nat.mod_one]
  | succ n ih =>
    have byte : (UInt8.ofNat (x % 256)).toNat = x % 256 := by simp
    rw [littleEndian, ofLittleEndian, byte, ih, Nat.pow_succ, Nat.mul_comm (256 ^ n),
      Nat.mod_mul]

theorem signExtended_signExtended (n : Nat) : signExtended (signExtended n) = signExtended n := by
  unfold signExtended
  grind

theorem signExtended_lt (n : Nat) : signExtended n < 2 ^ 64 := by
  unfold signExtended
  grind

/-! ### Settled messages -/

/-- Bytes that are kept as they are in a message of a sort. -/
def Inert (n : Nat) (k : Node) (bytes : Bytes) : Prop :=
  bytes.length ≤ longest → ∀ a, k.read (inside n) a bytes = some (k.keep bytes a)

theorem inert_nil (n : Nat) (k : Node) : Inert (n + 1) k [] := by
  intro _ a
  rw [Node.read_inside_succ, readFields_nil, k.keep_nil]

/-- Nothing is kept where no message may be nested. -/
theorem Inert.ne_zero {n : Nat} {k : Node} {bytes : Bytes} (h : Inert n k bytes)
    (size : bytes.length ≤ longest) (a : k.Carrier) : n ≠ 0 := by
  rintro rfl
  have read := h size a
  rw [inside, Node.read_none] at read
  cases read

theorem Inert.append {n : Nat} {k : Node} {first second : Bytes} (h₁ : Inert n k first)
    (h₂ : Inert n k second) : Inert n k (first ++ second) := by
  intro size a
  rw [List.length_append] at size
  rw [Node.read_append (h₁ (by omega) a), h₂ (by omega), Node.keep_append]

/-- A struct is such as reading leaves it: its entries stand in order, and each of them comes to
where it belongs when it is read again. -/
structure Struct.Settled (n : Nat) (s : Struct) : Prop where
  ordered : Ordered s.entries
  entries : ∀ p ∈ s.entries, (encodeEntries [p]).length ≤ longest →
    ∀ s', (inside n).struct s' (encodeEntries [p]) = some (s'.insert p.1 p.2)
  unknown : Inert n .struct s.unknown

/-- A list is such as reading leaves it: each item is put behind the others when it is read
again. -/
structure ListSettled (n : Nat) (items : List Tree) (inner : Bytes) : Prop where
  items : ∀ t ∈ items, (encodeItems [t]).length ≤ longest →
    ∀ l, (inside n).list l (encodeItems [t]) = some (l.1 ++ [t], l.2)
  unknown : Inert n .list inner

/-- A value is such as reading leaves it: its number is one of 32 bits where it is a null, and a
struct or a list in it is settled. -/
structure Tree.Settled (n : Nat) (t : Tree) : Prop where
  extra : Inert n .tree t.extra
  inner :
    match t with
    | .null code _ => signExtended code = code
    | .struct entries inner _ => Struct.Settled (n - 1) ⟨entries, inner⟩
    | .list items inner _ => ListSettled (n - 1) items inner
    | _ => True

/-- An entry is such as reading leaves it. -/
structure Entry.Settled (n : Nat) (e : Entry) : Prop where
  value : ∀ t, e.value = some t → t.Settled (n - 1)
  unknown : Inert n .entry e.unknown

namespace Node

/-- A message of a sort is such as reading leaves it where `n` messages may be nested. -/
def Settled (n : Nat) : (k : Node) → k.Carrier → Prop
  | tree, t => t.Settled n
  | struct, s => s.Settled n
  | entry, e => e.Settled n
  | list, (items, inner) => ListSettled n items inner

/-- A field that is written is taken into the message. -/
theorem read_written (n : Nat) (k : Node) {number : Nat} {p : Payload} (hpos : 0 < number)
    (hn : number < 2 ^ 29) (fits : p.Fits) (a : k.Carrier) :
    k.read (inside (n + 1)) a (p.write number) =
      k.take (inside n) a (Field.written number p) := by
  rw [read_inside_succ]
  exact readFields_raw (Field.intact_written n hpos hn fits) (k.take (inside n)) a

end Node

theorem encodeEntries_cons (p : String × Tree) (rest : List (String × Tree)) :
    encodeEntries (p :: rest) = encodeEntries [p] ++ encodeEntries rest := by
  simp [encodeEntries]

theorem encodeItems_cons (t : Tree) (rest : List Tree) :
    encodeItems (t :: rest) = encodeItems [t] ++ encodeItems rest := by
  simp [encodeItems]

/-- A settled struct is read back as it is written. -/
theorem Struct.Settled.read {n : Nat} {s : Struct} (h : s.Settled n)
    (size : s.encode.length ≤ longest) : (inside n).struct {} s.encode = some s := by
  obtain ⟨entries, unknown⟩ := s
  obtain ⟨ordered, each, kept⟩ := h
  simp only [Struct.encode] at each kept size
  have go (done todo : List (String × Tree)) (all : done ++ todo = entries)
      (size : (encodeEntries todo ++ unknown).length ≤ longest) :
      (inside n).struct ⟨done, []⟩ (encodeEntries todo ++ unknown) = some ⟨entries, unknown⟩ := by
    -- On the entries to do; those that are done stand in front of them.
    induction todo generalizing done with
    | nil =>
      have last := kept (by simpa [encodeEntries] using size) ⟨done, []⟩
      simp only [List.append_nil] at all
      subst all
      simpa [encodeEntries, Node.read, Node.keep] using last
    | cons p rest ih =>
      rw [encodeEntries_cons] at size ⊢
      simp only [List.length_append] at size ih
      have member : p ∈ entries := all ▸ List.mem_append_right done List.mem_cons_self
      have before : ∀ q ∈ done, Before q p := fun q hq =>
        (List.pairwise_append.1 (all ▸ ordered)).2.2 q hq p List.mem_cons_self
      have one := each p member (by omega) ⟨done, []⟩
      simp only [Struct.insert, insertEntry_eq_append before] at one
      have next := Node.read_append (k := .struct) one (encodeEntries rest ++ unknown)
      rw [List.append_assoc]
      exact next.trans (ih (done ++ [p]) (by simpa using all) (by omega))
  exact go [] entries rfl size

/-- A settled list is read back as it is written. -/
theorem ListSettled.read {n : Nat} {items : List Tree} {inner : Bytes}
    (h : ListSettled n items inner) (size : (encodeItems items ++ inner).length ≤ longest) :
    (inside n).list ([], []) (encodeItems items ++ inner) = some (items, inner) := by
  obtain ⟨each, kept⟩ := h
  have go (done todo : List Tree) (all : done ++ todo = items)
      (size : (encodeItems todo ++ inner).length ≤ longest) :
      (inside n).list (done, []) (encodeItems todo ++ inner) = some (items, inner) := by
    -- On the items to do, as for a struct.
    induction todo generalizing done with
    | nil =>
      have last := kept (by simpa [encodeItems] using size) (done, [])
      simp only [List.append_nil] at all
      subst all
      simpa [encodeItems, Node.read, Node.keep] using last
    | cons t rest ih =>
      rw [encodeItems_cons] at size ⊢
      simp only [List.length_append] at size ih
      have member : t ∈ items := all ▸ List.mem_append_right done List.mem_cons_self
      have one := each t member (by omega) (done, [])
      have next := Node.read_append (k := .list) one (encodeItems rest ++ inner)
      rw [List.append_assoc]
      exact next.trans (ih (done ++ [t]) (by simpa using all) (by omega))
  exact go [] items rfl size

theorem length_le_writeDelimited (number : Nat) (bytes : Bytes) :
    bytes.length ≤ (writeDelimited number bytes).length := by
  simp only [writeDelimited, List.length_append]
  omega

/-- What a field holds is no longer than the message that the field begins. -/
theorem length_le_of_writeDelimited {number : Nat} {bytes rest : Bytes}
    (size : (writeDelimited number bytes ++ rest).length ≤ longest) : bytes.length ≤ longest := by
  have short := length_le_writeDelimited number bytes
  rw [List.length_append] at size
  omega

/-- A settled value is read back as it is written. -/
theorem Tree.Settled.read {n : Nat} {t : Tree} (h : t.Settled n)
    (size : t.encode.length ≤ longest) : (inside n).tree (.absent []) t.encode = some t := by
  obtain ⟨kept, inner⟩ := h
  cases n with
  | zero =>
    have short : t.extra.length ≤ longest := by
      cases t <;> simp only [Tree.encode, Tree.extra, List.length_append] at size ⊢ <;> omega
    exact absurd rfl (kept.ne_zero short t)
  | succ n =>
    -- What is read in front of the unknown fields, and then they.
    have whole {front : Bytes} (core : Tree) (parts : t.encode = front ++ t.extra)
        (read : (inside (n + 1)).tree (.absent []) front = some core)
        (same : core.keep t.extra = t) :
        (inside (n + 1)).tree (.absent []) t.encode = some t := by
      have short : t.extra.length ≤ longest := by
        rw [parts, List.length_append] at size
        omega
      have rest := kept short core
      rw [parts]
      exact (Node.read_append (k := .tree) read t.extra).trans (rest.trans (congrArg some same))
    have field {number : Nat} {p : Payload} (hpos : 0 < number) (hn : number < 2 ^ 29)
        (fits : p.Fits) : (inside (n + 1)).tree (.absent []) (p.write number) =
          Tree.take (inside n) (.absent []) (Field.written number p) :=
      Node.read_written n .tree hpos hn fits (.absent [])
    cases t with
    | absent extra =>
      exact whole (.absent []) rfl (inert_nil n .tree (by simp [longest]) (.absent [])) rfl
    | null code extra =>
      have same : signExtended code = code := inner
      have fits : (Payload.varint code).Fits := same ▸ signExtended_lt code
      refine whole (.null code []) rfl ((field (by omega) (by omega) fits).trans ?_) rfl
      show some (Tree.null (signExtended code) []) = _
      rw [same]
    | number x extra =>
      have fits : (Payload.long (littleEndian 8 x.bits.toNat)).Fits := length_littleEndian 8 _
      refine whole (.number x []) rfl ((field (by omega) (by omega) fits).trans ?_) rfl
      show some (Tree.number ⟨UInt64.ofNat (ofLittleEndian (littleEndian 8 x.bits.toNat))⟩ []) = _
      rw [ofLittleEndian_littleEndian, Nat.mod_eq_of_lt x.bits.toNat_lt, UInt64.ofNat_toNat]
    | text s extra =>
      have fits : (Payload.delimited (Bytes.ofText s)).Fits := length_le_of_writeDelimited size
      refine whole (.text s []) rfl ((field (by omega) (by omega) fits).trans ?_) rfl
      show (Bytes.toText? (Bytes.ofText s)).map _ = _
      rw [Bytes.toText?_ofText]
      rfl
    | flag b extra =>
      have fits : (Payload.varint (if b then 1 else 0)).Fits := by
        cases b <;> simp [Payload.Fits]
      refine whole (.flag b []) rfl ((field (by omega) (by omega) fits).trans ?_) rfl
      cases b <;> rfl
    | struct entries within extra =>
      have fits : (Payload.delimited (encodeEntries entries ++ within)).Fits :=
        length_le_of_writeDelimited size
      have read : (inside n).struct {} (encodeEntries entries ++ within) =
          some ⟨entries, within⟩ := Struct.Settled.read inner fits
      refine whole (.struct entries within []) rfl
        ((field (by omega) (by omega) fits).trans ?_) rfl
      show ((inside n).struct {} (encodeEntries entries ++ within)).map _ = _
      rw [read]
      rfl
    | list items within extra =>
      have fits : (Payload.delimited (encodeItems items ++ within)).Fits :=
        length_le_of_writeDelimited size
      have read : (inside n).list ([], []) (encodeItems items ++ within) = some (items, within) :=
        ListSettled.read inner fits
      refine whole (.list items within []) rfl
        ((field (by omega) (by omega) fits).trans ?_) rfl
      show ((inside n).list ([], []) (encodeItems items ++ within)).map _ = _
      rw [read]
      rfl

/-! ### Entries and items -/

/-- A key is read back. -/
theorem Entry.read_key (n : Nat) {key : String} (fits : (Bytes.ofText key).length ≤ longest) :
    (inside (n + 1)).entry {} (writeDelimited 1 (Bytes.ofText key)) = some { key } := by
  have fits : (Payload.delimited (Bytes.ofText key)).Fits := fits
  refine (Node.read_written n .entry (by omega) (by omega) fits {}).trans ?_
  show (Bytes.toText? (Bytes.ofText key)).map _ = _
  rw [Bytes.toText?_ofText]
  rfl

/-- The value of an entry is read back. -/
theorem Entry.read_value {n : Nat} {t : Tree} (settled : t.Settled n)
    (fits : t.encode.length ≤ longest) (key : String) :
    (inside (n + 1)).entry { key } (writeDelimited 2 t.encode) =
      some { key, value := some t } := by
  have fits : (Payload.delimited t.encode).Fits := fits
  refine (Node.read_written n .entry (by omega) (by omega) fits { key }).trans ?_
  show ((inside n).tree (.absent []) t.encode).map _ = _
  rw [settled.read fits]
  rfl

/-- A settled entry is read back as it is written. -/
theorem Entry.Settled.read {n : Nat} {e : Entry} (h : e.Settled n)
    (size : e.encode.length ≤ longest) : (inside n).entry {} e.encode = some e := by
  obtain ⟨key, value, unknown⟩ := e
  obtain ⟨settled, kept⟩ := h
  simp only [Entry.encode, List.length_append] at size settled kept ⊢
  cases n with
  | zero => exact absurd rfl (kept.ne_zero (by omega) {})
  | succ n =>
    have first : (inside (n + 1)).entry {}
        (if key = "" then [] else writeDelimited 1 (Bytes.ofText key)) = some { key } := by
      split
      · next empty =>
        subst empty
        exact inert_nil n .entry (by simp [longest]) {}
      · next named =>
        rw [if_neg named] at size
        have short := length_le_writeDelimited 1 (Bytes.ofText key)
        exact Entry.read_key n (by omega)
    have third := kept (by omega) { key, value }
    rw [List.append_assoc]
    refine (Node.read_append (k := .entry) first _).trans ?_
    cases value with
    | none => exact third
    | some t =>
      dsimp only at size ⊢
      have short := length_le_writeDelimited 2 t.encode
      have second := Entry.read_value (settled t rfl) (by omega) key
      exact (Node.read_append (k := .entry) second _).trans third

/-- An entry that is written is read into its place. -/
theorem read_encodeEntries {n : Nat} {t : Tree} (settled : t.Settled n) {key : String}
    (size : (encodeEntries [(key, t)]).length ≤ longest) (s : Struct) :
    (inside (n + 2)).struct s (encodeEntries [(key, t)]) = some (s.insert key t) := by
  let body := writeDelimited 1 (Bytes.ofText key) ++ writeDelimited 2 t.encode
  have fits : (Payload.delimited body).Fits := length_le_of_writeDelimited size
  have parts : body.length = (writeDelimited 1 (Bytes.ofText key)).length +
      (writeDelimited 2 t.encode).length := List.length_append
  simp only [Payload.Fits, parts] at fits
  have short₁ := length_le_writeDelimited 1 (Bytes.ofText key)
  have short₂ := length_le_writeDelimited 2 t.encode
  have first : (inside (n + 1)).entry {} (writeDelimited 1 (Bytes.ofText key)) = some { key } :=
    Entry.read_key n (by omega)
  have second := Entry.read_value settled (by omega) key
  have entry : (inside (n + 1)).entry {} body = some { key, value := some t } :=
    (Node.read_append (k := .entry) first _).trans second
  have written : encodeEntries [(key, t)] = (Payload.delimited body).write 1 := by
    simp [encodeEntries, Payload.write, body]
  rw [written]
  have fits : (Payload.delimited body).Fits := by
    simp only [Payload.Fits, parts]
    exact fits
  refine (Node.read_written (n + 1) .struct (by omega) (by omega) fits s).trans ?_
  show ((inside (n + 1)).entry {} body).map s.add = _
  rw [entry]
  rfl

/-- An item that is written is read behind those before it. -/
theorem read_encodeItems {n : Nat} {t : Tree} (settled : t.Settled n)
    (size : (encodeItems [t]).length ≤ longest) (l : List Tree × Bytes) :
    (inside (n + 1)).list l (encodeItems [t]) = some (l.1 ++ [t], l.2) := by
  have fits : (Payload.delimited t.encode).Fits := length_le_of_writeDelimited size
  have written : encodeItems [t] = (Payload.delimited t.encode).write 1 := by
    simp [encodeItems, Payload.write]
  rw [written]
  refine (Node.read_written n .list (by omega) (by omega) fits l).trans ?_
  show ((inside n).tree (.absent []) t.encode).map _ = _
  rw [settled.read fits]
  rfl

end Footage.Wire
