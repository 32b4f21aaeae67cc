import Footage.Proofs.Wire.Written

/-!
# Fields as they were read

A reader takes a front of its input, and what it makes of the front does not depend on what follows
(`TakesFront`).  So a field that was read is read again from its own bytes, in front of any others
(`Field.intact_of_read?`), and the fields of a message are its bytes, cut into such pieces
(`Field.intact_of_all?`); and pieces that are put together are read as these fields
(`Field.all?_append`).  Groups are skipped the same way with more room than without
(`front_of_skipGroups`).
-/

namespace Footage.Wire

variable {α β : Type}

/-- A reader takes a front of its input, and what it makes of the front does not depend on what
stands behind it. -/
def TakesFront (read : Bytes → Option (α × Bytes)) : Prop :=
  ∀ bytes a rest, read bytes = some (a, rest) →
    ∃ front, bytes = front ++ rest ∧ ∀ other, read (front ++ other) = some (a, other)

namespace TakesFront

theorem bind {read : Bytes → Option (α × Bytes)} (h : TakesFront read)
    {next : α → Bytes → Option (β × Bytes)} (hn : ∀ a, TakesFront (next a)) :
    TakesFront fun bytes => (read bytes).bind fun got => next got.1 got.2 := by
  intro bytes b rest hr
  obtain ⟨⟨a, middle⟩, ha, hb⟩ := Option.bind_eq_some_iff.1 hr
  obtain ⟨front, rfl, again⟩ := h bytes a middle ha
  obtain ⟨front', rfl, again'⟩ := hn a middle b rest hb
  refine ⟨front ++ front', by rw [List.append_assoc], fun other => ?_⟩
  simp only [List.append_assoc, again, Option.bind_some, again']

theorem ite {read : Bytes → Option (α × Bytes)} (c : Prop) [Decidable c]
    (h : TakesFront read) : TakesFront fun bytes => if c then read bytes else none := by
  intro bytes a rest ha
  dsimp only at ha
  split at ha
  · next hc => simpa only [if_pos hc] using h bytes a rest ha
  · cases ha

theorem pure (a : α) : TakesFront fun bytes => some (a, bytes) := by
  rintro bytes a rest ⟨⟩
  exact ⟨[], rfl, fun _ => rfl⟩

theorem map {read : Bytes → Option (α × Bytes)} (h : TakesFront read) (f : α → β) :
    TakesFront fun bytes => (read bytes).map fun got => (f got.1, got.2) := by
  have parts : (fun bytes => (read bytes).map fun got => (f got.1, got.2)) =
      fun bytes => (read bytes).bind fun got => some (f got.1, got.2) := by
    funext bytes
    cases read bytes <;> rfl
  exact parts ▸ h.bind fun a => .pure (f a)

end TakesFront

theorem Varint.takesFront_read? (most : Nat) : TakesFront (read? most) := by
  induction most with
  | zero => rintro bytes n rest ⟨⟩
  | succ most ih =>
    intro bytes n rest h
    cases bytes with
    | nil => cases h
    | cons b bytes =>
      simp only [read?] at h
      split at h
      · next small =>
        cases h
        exact ⟨[b], rfl, fun other => by simp [read?, small]⟩
      · next large =>
        obtain ⟨front, rfl, again⟩ := ih.map (fun m => b.toNat - 128 + 128 * m) bytes n rest h
        exact ⟨b :: front, rfl, fun other => by
          simpa only [List.cons_append, read?, if_neg large] using again other⟩

theorem takesFront_take? (n : Nat) : TakesFront (take? n) := by
  intro bytes front rest h
  simp only [take?] at h
  split at h
  · next hn =>
    cases h
    exact ⟨bytes.take n, (List.take_append_drop n bytes).symm, fun other => by
      simpa only [hn] using take?_append (bytes.take n) other⟩
  · cases h

theorem takesFront_readKey? : TakesFront readKey? := by
  have parts : readKey? = fun bytes => (Varint.read? 5 bytes).bind fun got =>
      if got.1 < 2 ^ 32 then some ((got.1 / 8, got.1 % 8), got.2) else none := by
    funext bytes
    unfold readKey?
    cases Varint.read? 5 bytes <;> rfl
  exact parts ▸ (Varint.takesFront_read? 5).bind fun n =>
    .ite (n < 2 ^ 32) (.pure (n / 8, n % 8))

theorem takesFront_readWord? : TakesFront readWord? :=
  (Varint.takesFront_read? 10).map fun n => n % 2 ^ 64

theorem takesFront_readDelimited? : TakesFront readDelimited? := by
  have parts : readDelimited? = fun bytes => (readWord? bytes).bind fun got =>
      if got.1 ≤ longest then take? got.1 got.2 else none := by
    funext bytes
    unfold readDelimited?
    cases readWord? bytes <;> rfl
  exact parts ▸ takesFront_readWord?.bind fun n => .ite (n ≤ longest) (takesFront_take? n)

theorem takesFront_readPlain? (wireType : Nat) : TakesFront (readPlain? wireType) := by
  unfold readPlain?
  split
  · exact takesFront_readWord?.map Payload.varint
  · exact (takesFront_take? 8).map Payload.long
  · exact takesFront_readDelimited?.map Payload.delimited
  · exact (takesFront_take? 4).map Payload.short
  · rintro bytes p rest ⟨⟩

theorem skipGroups_cons (room current : Nat) (outer : List Nat) (bytes : Bytes) :
    skipGroups room (current :: outer) bytes =
      (readKey? bytes).bind fun ((number, wireType), rest) =>
        if wireType = 4 then
          if number = current then skipGroups (room + 1) outer rest else none
        else if number = 0 then none
        else if wireType = 3 then
          match room with
          | 0 => none
          | room + 1 => skipGroups room (number :: current :: outer) rest
        else (readPlain? wireType rest).bind fun (_, rest') =>
          skipGroups room (current :: outer) rest' := by
  rw [skipGroups]
  split
  · next h => simp only [h, Option.bind_none]
  · next number wireType rest h =>
    simp only [h, Option.bind_some]
    split
    · rfl
    · split
      · rfl
      · split
        · rfl
        · split
          · next hp => simp only [hp, Option.bind_none]
          · next hp => simp only [hp, Option.bind_some]

/-- Skipping groups takes a front, which is also skipped where more groups may be opened. -/
theorem front_of_skipGroups {room : Nat} {groups : List Nat} {bytes rest : Bytes}
    (h : skipGroups room groups bytes = some rest) :
    ∃ front, bytes = front ++ rest ∧ ∀ more, room ≤ more → ∀ other,
      skipGroups more groups (front ++ other) = some other := by
  fun_induction skipGroups room groups bytes with
  | case1 room bytes =>
    cases h
    exact ⟨[], rfl, fun more _ other => by rw [List.nil_append, skipGroups]⟩
  | case3 room bytes outer number rest₁ hk _ ih =>
    obtain ⟨front, rfl, key⟩ := takesFront_readKey? _ _ _ hk
    obtain ⟨front', rfl, again⟩ := ih h
    refine ⟨front ++ front', by rw [List.append_assoc], fun more le other => ?_⟩
    rw [skipGroups_cons, List.append_assoc, key, Option.bind_some]
    simpa using again (more + 1) (by omega) other
  | case7 bytes current outer number rest₁ hn room hk h4 _ ih =>
    obtain ⟨front, rfl, key⟩ := takesFront_readKey? _ _ _ hk
    obtain ⟨front', rfl, again⟩ := ih h
    refine ⟨front ++ front', by rw [List.append_assoc], fun more le other => ?_⟩
    obtain ⟨more, rfl⟩ : ∃ n, more = n + 1 := ⟨more - 1, by omega⟩
    rw [skipGroups_cons, List.append_assoc, key, Option.bind_some]
    simpa [hn] using again more (by omega) other
  | case9 room bytes current outer number wireType rest₁ hk h4 hn h3 p rest₂ hp _ _ ih =>
    obtain ⟨front, rfl, key⟩ := takesFront_readKey? _ _ _ hk
    obtain ⟨front', rfl, plain⟩ := takesFront_readPlain? wireType _ _ _ hp
    obtain ⟨front'', rfl, again⟩ := ih h
    refine ⟨front ++ (front' ++ front''), by simp only [List.append_assoc],
      fun more le other => ?_⟩
    rw [skipGroups_cons, List.append_assoc, key, Option.bind_some]
    simp only [if_neg h4, if_neg hn, if_neg h3, List.append_assoc, plain, Option.bind_some]
    exact again more le other
  | _ => cases h

/-! ### Fields -/

namespace Field

/-- The field is read from its bytes, whatever follows them, where at least `room` messages or
groups may be nested. -/
def Intact (room : Nat) (f : Field) : Prop :=
  ∀ more, room ≤ more → ∀ rest, read? more (f.raw ++ rest) = some (f, rest)

theorem Intact.mono {room more : Nat} {f : Field} (h : f.Intact room) (le : room ≤ more) :
    f.Intact more :=
  fun most le' => h most (Nat.le_trans le le')

theorem Intact.ne_nil {room : Nat} {f : Field} (h : f.Intact room) : f.raw ≠ [] := by
  intro empty
  have shorter := length_lt_of_read? (h room (Nat.le_refl _) [])
  simp [empty] at shorter

theorem intact_written (room : Nat) {number : Nat} {p : Payload} (hpos : 0 < number)
    (hn : number < 2 ^ 29) (fits : p.Fits) : (written number p).Intact room :=
  fun more _ rest => read?_write_append more hpos hn fits rest

/-- A field that was read keeps its bytes, and it is read from them alone. -/
theorem intact_of_read? {room : Nat} {bytes rest : Bytes} {f : Field}
    (h : read? room bytes = some (f, rest)) : bytes = f.raw ++ rest ∧ f.Intact room := by
  simp only [read?] at h
  split at h
  · cases h
  · next number wireType rest₁ hk =>
    obtain ⟨front, rfl, key⟩ := takesFront_readKey? _ _ _ hk
    split at h
    · cases h
    · next hn =>
      have raw (front' other : Bytes) : (front ++ (front' ++ other)).take
          ((front ++ (front' ++ other)).length - other.length) = front ++ front' := by
        rw [← List.append_assoc, List.length_append, Nat.add_sub_cancel, List.take_left]
      split at h
      · next h3 =>
        split at h
        · cases h
        · next room =>
          obtain ⟨rest₂, hs, he⟩ := Option.map_eq_some_iff.1 h
          obtain ⟨front', rfl, again⟩ := front_of_skipGroups hs
          rw [raw] at he
          cases he
          refine ⟨(List.append_assoc _ _ _).symm, fun more le other => ?_⟩
          obtain ⟨more, rfl⟩ : ∃ n, more = n + 1 := ⟨more - 1, by omega⟩
          simp only [read?, List.append_assoc, key, if_neg hn, if_pos h3,
            again more (by omega), Option.map_some, raw]
      · next h3 =>
        obtain ⟨⟨p, rest₂⟩, hp, he⟩ := Option.map_eq_some_iff.1 h
        obtain ⟨front', rfl, again⟩ := takesFront_readPlain? wireType _ _ _ hp
        dsimp only at he
        rw [raw] at he
        cases he
        refine ⟨(List.append_assoc _ _ _).symm, fun more le other => ?_⟩
        simp only [read?, List.append_assoc, key, if_neg hn, if_neg h3, again, Option.map_some,
          raw]

/-- The fields of a message, in front of further ones. -/
theorem all?_append {room : Nat} {fields : List Field} (h : ∀ f ∈ fields, f.Intact room)
    (rest : Bytes) :
    all? room (fields.flatMap (·.raw) ++ rest) = (all? room rest).map (fields ++ ·) := by
  induction fields with
  | nil => simp
  | cons f fields ih =>
    obtain ⟨first, others⟩ := List.forall_mem_cons.1 h
    have front := first room (Nat.le_refl _) (fields.flatMap (·.raw) ++ rest)
    have nonempty : (f.raw ++ (fields.flatMap (·.raw) ++ rest)).isEmpty = false := by
      simp [first.ne_nil]
    rw [List.flatMap_cons, List.append_assoc, all?, if_neg (by simp [nonempty])]
    split
    · next hr =>
      rw [front] at hr
      cases hr
    · next f' rest' hr =>
      rw [front] at hr
      cases hr
      rw [ih others, Option.map_map]
      rfl

theorem all?_nil (room : Nat) : all? room [] = some [] := by
  simp [all?]

/-- A run of intact fields is read as these fields. -/
theorem all?_of_intact {room : Nat} {fields : List Field} (h : ∀ f ∈ fields, f.Intact room) :
    all? room (fields.flatMap (·.raw)) = some fields := by
  have all := all?_append h []
  simpa only [List.append_nil, all?_nil, Option.map_some] using all

/-- The fields of a message are its bytes, cut into intact pieces. -/
theorem intact_of_all? {room : Nat} {bytes : Bytes} {fields : List Field}
    (h : all? room bytes = some fields) :
    bytes = fields.flatMap (·.raw) ∧ ∀ f ∈ fields, f.Intact room := by
  fun_induction all? room bytes generalizing fields with
  | case1 bytes empty =>
    cases h
    exact ⟨by simpa using empty, by simp⟩
  | case2 => cases h
  | case3 bytes _ f rest hr _ ih =>
    obtain ⟨others, ho, rfl⟩ := Option.map_eq_some_iff.1 h
    obtain ⟨rfl, first⟩ := intact_of_read? hr
    obtain ⟨rfl, intact⟩ := ih ho
    exact ⟨rfl, List.forall_mem_cons.2 ⟨first, intact⟩⟩

/-- Where there is more room a message has the same fields. -/
theorem all?_mono {room more : Nat} (le : room ≤ more) {bytes : Bytes} {fields : List Field}
    (h : all? room bytes = some fields) : all? more bytes = some fields := by
  obtain ⟨rfl, intact⟩ := intact_of_all? h
  exact all?_of_intact fun f hf => (intact f hf).mono le

end Field

end Footage.Wire
