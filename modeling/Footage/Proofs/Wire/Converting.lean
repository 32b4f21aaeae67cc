import Footage.Proofs.Act.Outcome
import Footage.Proofs.Number.Nearest
import Footage.Proofs.Wire.Order
import Footage.Wire.Tree.Value

/-!
# Free values become trees and free values again

A free value that is sent becomes a tree, and the tree becomes a free value again where it arrives.

Which fault ends a conversion is decided by the leaves of the value, or the numbers of the tree,
alone: it is the fault of the first one that has no counterpart, in the order in which they are
gone through, and where there is none the conversion succeeds (`Value.faultOf_toTree`,
`Wire.Tree.faultOf_toValue`).

A value whose leaves have counterparts, and whose records have each key once (`Value.Sendable`),
arrives as it was, but with the nearest double in place of each integer (`Value.Arrives`).  That it
does so is `Value.arrives_toTree`.
-/

namespace Footage

open Number (Binary64)
open Wire (Tree Struct insertEntry toFields toValues)

namespace Value

/-! ### What offends in a value -/

mutual
/-- The parts of a value that are not made of others, in the order in which they stand in it. -/
def leaves : Value → List Value
  | list items => itemLeaves items
  | record entries => entryLeaves entries
  | v => [v]

/-- The leaves of the items of a list. -/
def itemLeaves : List Value → List Value
  | [] => []
  | v :: rest => v.leaves ++ itemLeaves rest

/-- The leaves of the entries of a record. -/
def entryLeaves : List (String × Value) → List Value
  | [] => []
  | (_, v) :: rest => v.leaves ++ entryLeaves rest
end

/-- The fault of a leaf that no tree stands for: there is none for byte strings, nor for integers
that are too large for a double. -/
def offence? : Value → Option ConversionFault
  | bytes _ => some .unexpectedType
  | whole n => if Binary64.overflowBound ≤ n.natAbs then some .integerTooLarge else none
  | _ => none

/-- A leaf that no tree stands for, and the kind of the fault that it leads to. -/
inductive Offends : Value → Fault.Kind → Prop where
  | bytes (b : Bytes) : Offends (.bytes b) .value
  | whole {n : Int} : Binary64.overflowBound ≤ n.natAbs → Offends (.whole n) .overflow

theorem offends_of_offence? {v : Value} {e : ConversionFault} (h : v.offence? = some e) :
    v.Offends e.kind := by
  cases v with
  | bytes b =>
    cases h
    exact .bytes b
  | whole n =>
    simp only [offence?, Option.ite_none_right_eq_some, Option.some.injEq] at h
    obtain ⟨large, rfl⟩ := h
    exact .whole large
  | _ => cases h

theorem offence?_eq_none_iff {v : Value} : v.offence? = none ↔ ∀ kind, ¬ v.Offends kind := by
  constructor
  · rintro h kind (b | large)
    · cases h
    · simp [offence?, large] at h
  · intro h
    cases found : v.offence? with
    | none => rfl
    | some e => exact absurd (offends_of_offence? found) (h e.kind)

mutual
/-- A value becomes a tree unless a leaf offends, and then the first one that does decides on the
fault. -/
theorem faultOf_toTree : (v : Value) → faultOf v.toTree = v.leaves.findSome? offence?
  | .null | .flag _ | .real _ | .text _ | .bytes _ => rfl
  | .whole n => by
    simp only [toTree, leaves, List.findSome?_singleton, offence?]
    have fits := Binary64.ofInt?_eq_none_iff n
    split
    · next converted =>
      rw [if_neg (fun large => by simp [fits.2 large] at converted)]
      rfl
    · next converted =>
      rw [if_pos (fits.1 converted)]
      rfl
  | .list items => by
    rw [toTree, leaves, faultOf_bind_pure, faultOf_toTrees items]
  | .record entries => by
    rw [toTree, leaves, faultOf_bind_pure, faultOf_toEntries entries]

theorem faultOf_toTrees : (items : List Value) →
    faultOf (toTrees items) = (itemLeaves items).findSome? offence?
  | [] => rfl
  | v :: rest => by
    rw [toTrees, itemLeaves, List.findSome?_append, ← faultOf_toTree v, ← faultOf_toTrees rest]
    exact faultOf_bind fun t => faultOf_bind_pure (t :: ·)

theorem faultOf_toEntries : (entries : List (String × Value)) → {done : List (String × Tree)} →
    faultOf (toEntries entries done) = (entryLeaves entries).findSome? offence?
  | [], _ => rfl
  | (key, v) :: rest, _ => by
    rw [toEntries, entryLeaves, List.findSome?_append, ← faultOf_toTree v]
    exact faultOf_bind fun t => faultOf_toEntries rest
end

theorem faultOf_toStruct (entries : List (String × Value)) :
    faultOf (toStruct entries) = (entryLeaves entries).findSome? offence? := by
  rw [toStruct, faultOf_bind_pure, faultOf_toEntries]

end Value

namespace Wire

/-! ### What offends in a tree -/

mutual
/-- The numbers in a tree, in the order in which they stand in it. -/
def Tree.numbers : Tree → List Binary64
  | .number x _ => [x]
  | .struct entries _ _ => entryNumbers entries
  | .list items _ _ => itemNumbers items
  | _ => []

/-- The numbers in the items of a list. -/
def itemNumbers : List Tree → List Binary64
  | [] => []
  | t :: rest => t.numbers ++ itemNumbers rest

/-- The numbers in the entries of a struct. -/
def entryNumbers : List (String × Tree) → List Binary64
  | [] => []
  | (_, t) :: rest => t.numbers ++ entryNumbers rest
end

/-- The fault of a number that is an infinity or not a number. -/
def objection? (x : Binary64) : Option ConversionFault :=
  if x.isInfinite then some .infinite else if x.isNaN then some .notANumber else none

theorem objection?_eq_none_iff {x : Binary64} : objection? x = none ↔ x.IsFinite := by
  rw [Binary64.isFinite_iff, objection?]
  cases x.isInfinite <;> cases x.isNaN <;> decide

theorem kind_of_objection? {x : Binary64} {e : ConversionFault} (h : objection? x = some e) :
    e.kind = .value := by
  simp only [objection?] at h
  split at h
  · cases h
    rfl
  · split at h
    · cases h
      rfl
    · cases h

mutual
/-- A tree becomes a free value unless a number in it is not finite, and then the first one that is
not decides on the fault. -/
theorem Tree.faultOf_toValue : (t : Tree) → faultOf t.toValue = t.numbers.findSome? objection?
  | .absent _ | .null _ _ | .text _ _ | .flag _ _ => rfl
  | .number x _ => by
    simp only [Tree.toValue, Tree.numbers, List.findSome?_singleton, objection?]
    cases x.isInfinite <;> cases x.isNaN <;> rfl
  | .struct entries _ _ => by
    rw [Tree.toValue, Tree.numbers, faultOf_bind_pure, faultOf_toFields entries]
  | .list items _ _ => by
    rw [Tree.toValue, Tree.numbers, faultOf_bind_pure, faultOf_toValues items]

theorem faultOf_toValues : (items : List Tree) →
    faultOf (toValues items) = (itemNumbers items).findSome? objection?
  | [] => rfl
  | t :: rest => by
    rw [toValues, itemNumbers, List.findSome?_append, ← Tree.faultOf_toValue t,
      ← faultOf_toValues rest]
    exact faultOf_bind fun v => faultOf_bind_pure (v :: ·)

theorem faultOf_toFields : (entries : List (String × Tree)) →
    faultOf (toFields entries) = (entryNumbers entries).findSome? objection?
  | [] => rfl
  | (key, t) :: rest => by
    rw [toFields, entryNumbers, List.findSome?_append, ← Tree.faultOf_toValue t,
      ← faultOf_toFields rest]
    exact faultOf_bind fun v => faultOf_bind_pure ((key, v) :: ·)
end

/-- The numbers in a struct, in the order in which they stand in it. -/
def Struct.numbers (s : Struct) : List Binary64 := entryNumbers s.entries

theorem Struct.faultOf_toRecord (s : Struct) :
    faultOf s.toRecord = s.numbers.findSome? objection? :=
  faultOf_toFields s.entries

end Wire

/-! ### What arrives of a value -/

mutual
/-- A value that is sent arrives as another one: integers as the nearest double, and the entries of
a record in any order.  Everything else arrives as it was. -/
inductive Value.Arrives : Value → Value → Prop where
  | null : Value.Arrives .null .null
  | flag (b : Bool) : Value.Arrives (.flag b) (.flag b)
  | whole {n : Int} {x : Binary64} : Binary64.IsNearest n x → Value.Arrives (.whole n) (.real x)
  | real (x : Binary64) : Value.Arrives (.real x) (.real x)
  | text (s : String) : Value.Arrives (.text s) (.text s)
  | list {items items' : List Value} :
      ItemsArrive items items' → Value.Arrives (.list items) (.list items')
  | record {entries entries' arranged : List (String × Value)} :
      EntriesArrive entries entries' → arranged.Perm entries' →
      Value.Arrives (.record entries) (.record arranged)

/-- The items of a list arrive one by one. -/
inductive ItemsArrive : List Value → List Value → Prop where
  | nil : ItemsArrive [] []
  | cons {v v' : Value} {rest rest' : List Value} :
      Value.Arrives v v' → ItemsArrive rest rest' → ItemsArrive (v :: rest) (v' :: rest')

/-- The values of a record arrive under their keys. -/
inductive EntriesArrive : List (String × Value) → List (String × Value) → Prop where
  | nil : EntriesArrive [] []
  | cons {key : String} {v v' : Value} {rest rest' : List (String × Value)} :
      Value.Arrives v v' → EntriesArrive rest rest' →
      EntriesArrive ((key, v) :: rest) ((key, v') :: rest')
end

mutual
/-- A value that can be sent: it holds no byte strings and only finite doubles, each integer has a
double, and the records have each key once. -/
def Value.Sendable : Value → Prop
  | .whole n => n.natAbs < Binary64.overflowBound
  | .real x => x.IsFinite
  | .bytes _ => False
  | .list items => SendableItems items
  | .record entries => (entries.map Prod.fst).Nodup ∧ SendableEntries entries
  | _ => True

/-- Every item can be sent. -/
def SendableItems : List Value → Prop
  | [] => True
  | v :: rest => v.Sendable ∧ SendableItems rest

/-- The value of every entry can be sent. -/
def SendableEntries : List (String × Value) → Prop
  | [] => True
  | (_, v) :: rest => v.Sendable ∧ SendableEntries rest
end

namespace Wire

theorem keys_insertEntry {key k : String} {t : Tree} {entries : List (String × Tree)}
    (h : k ∈ (insertEntry key t entries).map Prod.fst) : k = key ∨ k ∈ entries.map Prod.fst := by
  obtain ⟨p, hp, rfl⟩ := List.mem_map.1 h
  rcases mem_insertEntry hp with rfl | hp
  · exact .inl rfl
  · exact .inr (List.mem_map_of_mem hp)

/-- An entry with a new key comes among the others when it is put there, and nothing else
happens. -/
theorem toFields_insertEntry {key : String} {t : Tree} {v : Value} (ht : t.toValue = .ok v)
    {entries : List (String × Tree)} (fresh : key ∉ entries.map Prod.fst)
    {fields : List (String × Value)} (h : toFields entries = .ok fields) :
    ∃ fields', toFields (insertEntry key t entries) = .ok fields' ∧
      fields'.Perm ((key, v) :: fields) := by
  -- On the entries that are there; the new one goes before the first of them that it precedes.
  induction entries generalizing fields with
  | nil =>
    cases h
    exact ⟨[(key, v)], by rw [insertEntry, toFields, ht]; rfl, .refl _⟩
  | cons p rest ih =>
    rw [List.map_cons, List.mem_cons, not_or] at fresh
    have front : toFields ((key, t) :: p :: rest) = .ok ((key, v) :: fields) := by
      rw [toFields, ht, h]
      rfl
    rw [toFields] at h
    obtain ⟨u, hu, h⟩ := exists_of_bind_ok h
    obtain ⟨others, hrest, h⟩ := exists_of_bind_ok h
    cases h
    simp only [insertEntry, if_neg fresh.1]
    split
    · exact ⟨_, front, .refl _⟩
    · obtain ⟨fields', made, perm⟩ := ih fresh.2 hrest
      refine ⟨(p.1, u) :: fields', ?_, (perm.cons _).trans (.swap _ _ _)⟩
      rw [toFields, hu, made]
      rfl

end Wire

namespace Value

open Wire (keys_insertEntry toFields_insertEntry)

mutual
/-- A value that can be sent becomes a tree, and this one becomes what arrives of the value. -/
theorem arrives_toTree : (v : Value) → v.Sendable →
    ∃ t v', v.toTree = .ok t ∧ t.toValue = .ok v' ∧ v.Arrives v'
  | .null, _ => ⟨_, _, rfl, rfl, .null⟩
  | .flag b, _ => ⟨_, _, rfl, rfl, .flag b⟩
  | .text s, _ => ⟨_, _, rfl, rfl, .text s⟩
  | .real x, finite => by
    obtain ⟨bounded, number⟩ := Binary64.isFinite_iff.1 finite
    exact ⟨_, _, rfl, by simp [Tree.toValue, bounded, number], .real x⟩
  | .whole n, small => by
    obtain ⟨x, converted⟩ : ∃ x, Binary64.ofInt? n = some x := by
      refine Option.ne_none_iff_exists'.1 fun none => ?_
      exact Nat.not_lt.2 ((Binary64.ofInt?_eq_none_iff n).1 none) small
    have nearest := Binary64.isNearest_of_ofInt? converted
    obtain ⟨bounded, number⟩ := Binary64.isFinite_iff.1 nearest.finite
    exact ⟨.number x [], .real x, by rw [toTree, converted],
      by simp [Tree.toValue, bounded, number], .whole nearest⟩
  | .list items, sendable => by
    obtain ⟨ts, vs, made, back, arrive⟩ := arrive_toTrees items sendable
    exact ⟨.list ts [] [], .list vs, by rw [toTree, made]; rfl, by rw [Tree.toValue, back]; rfl,
      .list arrive⟩
  | .record entries, sendable => by
    obtain ⟨made, fields, fields', converted, back, arrive, perm⟩ :=
      arrive_toEntries entries sendable.1 sendable.2 (fun _ _ => List.not_mem_nil)
        (show toFields [] = .ok [] from rfl)
    rw [List.append_nil] at perm
    exact ⟨.struct made [] [], .record fields, by rw [toTree, converted]; rfl,
      by rw [Tree.toValue, back]; rfl, .record arrive perm⟩

theorem arrive_toTrees : (items : List Value) → SendableItems items →
    ∃ ts vs, toTrees items = .ok ts ∧ toValues ts = .ok vs ∧ ItemsArrive items vs
  | [], _ => ⟨_, _, rfl, rfl, .nil⟩
  | v :: rest, sendable => by
    obtain ⟨t, v', made, back, arrives⟩ := arrives_toTree v sendable.1
    obtain ⟨ts, vs, others, backs, arrive⟩ := arrive_toTrees rest sendable.2
    exact ⟨t :: ts, v' :: vs, by rw [toTrees, made, others]; rfl,
      by rw [toValues, back, backs]; rfl, .cons arrives arrive⟩

/-- The entries come among those that are there, whose keys are others. -/
theorem arrive_toEntries : (entries : List (String × Value)) → (entries.map Prod.fst).Nodup →
    SendableEntries entries → {done : List (String × Tree)} →
    (∀ key ∈ entries.map Prod.fst, key ∉ done.map Prod.fst) →
    {there : List (String × Value)} → toFields done = .ok there →
    ∃ made fields fields', toEntries entries done = .ok made ∧ toFields made = .ok fields ∧
      EntriesArrive entries fields' ∧ fields.Perm (fields' ++ there)
  | [], _, _, _, _, _, h => ⟨_, _, [], rfl, h, .nil, .refl _⟩
  | (key, v) :: rest, once, sendable, done, fresh, there, h => by
    obtain ⟨t, v', made, back, arrives⟩ := arrives_toTree v sendable.1
    rw [List.map_cons, List.nodup_cons] at once
    rw [List.map_cons, List.forall_mem_cons] at fresh
    obtain ⟨put, inserted, among⟩ := toFields_insertEntry back fresh.1 h
    -- No later key is the one that has been put in, so each of them is new in its turn.
    have others (k : String) (hk : k ∈ rest.map Prod.fst) :
        k ∉ (insertEntry key t done).map Prod.fst := by
      intro old
      rcases keys_insertEntry old with rfl | old
      · exact once.1 hk
      · exact fresh.2 k hk old
    obtain ⟨all, fields, fields', converted, backs, arrive, perm⟩ :=
      arrive_toEntries rest once.2 sendable.2 others inserted
    refine ⟨all, fields, (key, v') :: fields', ?_, backs, .cons arrives arrive, ?_⟩
    · rw [toEntries, made]
      exact converted
    · exact perm.trans ((among.append_left fields').trans List.perm_middle)
end

/-- A record that can be sent becomes a struct, and this one becomes what arrives of the record. -/
theorem arrives_toStruct {entries : List (String × Value)} (sendable : (record entries).Sendable) :
    ∃ s fields, toStruct entries = .ok s ∧ s.toRecord = .ok fields ∧
      (record entries).Arrives (.record fields) := by
  obtain ⟨made, fields, fields', converted, back, arrive, perm⟩ :=
    arrive_toEntries entries sendable.1 sendable.2 (fun _ _ => List.not_mem_nil)
        (show toFields [] = .ok [] from rfl)
  rw [List.append_nil] at perm
  exact ⟨⟨made, []⟩, fields, by rw [toStruct, converted]; rfl, back, .record arrive perm⟩

end Value

end Footage
