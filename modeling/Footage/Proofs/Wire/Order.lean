import Footage.Wire.Tree

/-!
# The order of entries

The entries of a struct stand in a strict order by their keys, in which a key comes before its own
prefixes (`precedes`).  An entry that is put among others in order comes to where it belongs
(`ordered_insertEntry`), and one that belongs behind them is put there (`insertEntry_eq_append`).
-/

namespace Footage.Wire

/-! ### The order of keys -/

theorem precedes_irrefl (a : Bytes) : precedes a a = false := by
  induction a with
  | nil => rfl
  | cons x a ih => simp [precedes, ih]

theorem precedes_trans {a b c : Bytes} (hab : precedes a b = true) (hbc : precedes b c = true) :
    precedes a c = true := by
  induction a generalizing b c with
  | nil => simp [precedes] at hab
  | cons x a ih =>
    cases b with
    | nil => simp [precedes] at hbc
    | cons y b =>
      cases c with
      | nil => rfl
      | cons z c =>
        simp only [precedes] at hab hbc ⊢
        grind

theorem precedes_total {a b : Bytes} (ne : a ≠ b) (h : precedes a b = false) :
    precedes b a = true := by
  induction a generalizing b with
  | nil =>
    cases b with
    | nil => exact absurd rfl ne
    | cons y b => rfl
  | cons x a ih =>
    cases b with
    | nil => simp [precedes] at h
    | cons y b =>
      simp only [precedes] at h ⊢
      grind

theorem ofText_injective {s t : String} (h : Bytes.ofText s = Bytes.ofText t) : s = t := by
  have back := Bytes.toText?_ofText s
  rw [h, Bytes.toText?_ofText] at back
  exact (Option.some.inj back).symm

/-- An entry stands before another one in a struct. -/
def Before (p q : String × Tree) : Prop :=
  precedes (Bytes.ofText p.1) (Bytes.ofText q.1) = true

/-- The entries stand in the order in which they are written, each key once. -/
def Ordered (entries : List (String × Tree)) : Prop := entries.Pairwise Before

theorem mem_insertEntry {key : String} {t : Tree} {entries : List (String × Tree)}
    {p : String × Tree} (h : p ∈ insertEntry key t entries) : p = (key, t) ∨ p ∈ entries := by
  induction entries with
  | nil => exact .inl (List.mem_singleton.1 h)
  | cons q rest ih =>
    simp only [insertEntry] at h
    split at h
    · exact (List.mem_cons.1 h).imp_right (List.mem_cons_of_mem q)
    · split at h
      · exact List.mem_cons.1 h
      · rcases List.mem_cons.1 h with rfl | h
        · exact .inr List.mem_cons_self
        · exact (ih h).imp_right (List.mem_cons_of_mem q)

/-- An entry that is put among entries in order comes to where it belongs. -/
theorem ordered_insertEntry (key : String) (t : Tree) {entries : List (String × Tree)}
    (h : Ordered entries) : Ordered (insertEntry key t entries) := by
  induction entries with
  | nil => exact List.pairwise_singleton _ _
  | cons q rest ih =>
    obtain ⟨first, others⟩ := List.pairwise_cons.1 h
    simp only [insertEntry]
    split
    · next same =>
      exact List.pairwise_cons.2 ⟨fun p hp => by simpa [Before, same] using first p hp, others⟩
    · next ne =>
      split
      · next front =>
        refine List.pairwise_cons.2 ⟨fun p hp => ?_, h⟩
        rcases List.mem_cons.1 hp with rfl | hp
        · exact front
        · exact precedes_trans front (first p hp)
      · next back =>
        refine List.pairwise_cons.2 ⟨fun p hp => ?_, ih others⟩
        rcases mem_insertEntry hp with rfl | hp
        · exact precedes_total (fun he => ne (ofText_injective he)) (by simpa using back)
        · exact first p hp

/-- An entry that belongs behind all others is put there. -/
theorem insertEntry_eq_append {key : String} {t : Tree} {entries : List (String × Tree)}
    (h : ∀ p ∈ entries, Before p (key, t)) :
    insertEntry key t entries = entries ++ [(key, t)] := by
  induction entries with
  | nil => rfl
  | cons q rest ih =>
    obtain ⟨first, others⟩ := List.forall_mem_cons.1 h
    have ne : key ≠ q.1 := by
      rintro rfl
      simp [Before, precedes_irrefl] at first
    have behind : ¬ precedes (Bytes.ofText key) (Bytes.ofText q.1) = true := by
      intro front
      have circle := precedes_trans front first
      simp [precedes_irrefl] at circle
    simp only [insertEntry, if_neg ne, if_neg behind, ih others, List.cons_append]

end Footage.Wire
