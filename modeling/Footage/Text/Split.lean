/-!
# Cutting texts at a separator

`splitAll` cuts at every occurrence of a separator, `cutFirst` at the first one and `cutLast` at
the last.  Putting the separator back restores the text: `joined_splitAll`, `eq_of_cutFirst`,
`eq_of_cutLast`.  Where the separator is missing on the side that must not hold it, the cut is where
it was put: `splitAll_append`, `cutFirst_append`, `cutLast_append`.
-/

namespace Footage.Text

/-- The parts between the separators, one more than there are separators. -/
def splitAll (sep : Char) : List Char → List (List Char)
  | [] => [[]]
  | c :: rest =>
    if c = sep then [] :: splitAll sep rest
    else match splitAll sep rest with
      | part :: parts => (c :: part) :: parts
      | [] => [[c]]

/-- What stands before and after the first separator, if there is one. -/
def cutFirst (sep : Char) : List Char → Option (List Char × List Char)
  | [] => none
  | c :: rest =>
    if c = sep then some ([], rest)
    else (cutFirst sep rest).map fun (before, after) => (c :: before, after)

/-- What stands before and after the last separator, if there is one. -/
def cutLast (sep : Char) : List Char → Option (List Char × List Char)
  | [] => none
  | c :: rest =>
    match cutLast sep rest with
    | some (before, after) => some (c :: before, after)
    | none => if c = sep then some ([], rest) else none

/-- The parts with the separator between them. -/
def joined (sep : Char) : List (List Char) → List Char
  | [] => []
  | [part] => part
  | part :: parts => part ++ sep :: joined sep parts

theorem splitAll_ne_nil (sep : Char) (cs : List Char) : splitAll sep cs ≠ [] := by
  cases cs with
  | nil => simp [splitAll]
  | cons c rest =>
    simp only [splitAll]
    split
    · simp
    · split <;> simp

theorem joined_splitAll (sep : Char) (cs : List Char) : joined sep (splitAll sep cs) = cs := by
  induction cs with
  | nil => rfl
  | cons c rest ih =>
    simp only [splitAll]
    split
    · next h =>
      subst h
      cases hs : splitAll c rest with
      | nil => exact absurd hs (splitAll_ne_nil c rest)
      | cons part parts => simp [joined, ← hs, ih]
    · cases hs : splitAll sep rest with
      | nil => exact absurd hs (splitAll_ne_nil sep rest)
      | cons part parts =>
        rw [hs] at ih
        cases parts <;> simp_all [joined]

theorem eq_of_cutFirst {sep : Char} {cs before after : List Char}
    (h : cutFirst sep cs = some (before, after)) : cs = before ++ sep :: after := by
  induction cs generalizing before with
  | nil => simp [cutFirst] at h
  | cons c rest ih =>
    simp only [cutFirst] at h
    split at h
    · next hc => subst hc; cases h; rfl
    · obtain ⟨⟨b, a⟩, hr, he⟩ := Option.map_eq_some_iff.1 h
      cases he
      simp [ih hr]

theorem eq_of_cutLast {sep : Char} {cs before after : List Char}
    (h : cutLast sep cs = some (before, after)) : cs = before ++ sep :: after := by
  induction cs generalizing before with
  | nil => simp [cutLast] at h
  | cons c rest ih =>
    simp only [cutLast] at h
    split at h
    · next b a hr => cases h; simp [ih hr]
    · split at h
      · next hc => subst hc; cases h; rfl
      · cases h

/-! ### Where the cuts are -/

variable {sep : Char} {cs before after : List Char}

theorem notMem_of_mem_splitAll {part : List Char} (h : part ∈ splitAll sep cs) : sep ∉ part := by
  induction cs generalizing part with
  | nil =>
    obtain rfl := List.mem_singleton.1 h
    exact List.not_mem_nil
  | cons c rest ih =>
    simp only [splitAll] at h
    split at h
    · rcases List.mem_cons.1 h with rfl | h
      · exact List.not_mem_nil
      · exact ih h
    · next ne =>
      cases hs : splitAll sep rest with
      | nil => exact absurd hs (splitAll_ne_nil sep rest)
      | cons first parts =>
        rw [hs] at h ih
        rcases List.mem_cons.1 h with rfl | h
        · exact List.not_mem_cons_of_ne_of_not_mem (Ne.symm ne) (ih List.mem_cons_self)
        · exact ih (List.mem_cons_of_mem _ h)

theorem splitAll_of_notMem (h : sep ∉ cs) : splitAll sep cs = [cs] := by
  induction cs with
  | nil => rfl
  | cons c rest ih =>
    obtain ⟨ne, free⟩ := List.ne_and_not_mem_of_not_mem_cons h
    rw [splitAll, if_neg (Ne.symm ne), ih free]

theorem splitAll_append (h : sep ∉ before) (after : List Char) :
    splitAll sep (before ++ sep :: after) = before :: splitAll sep after := by
  induction before with
  | nil => rw [List.nil_append, splitAll, if_pos rfl]
  | cons c rest ih =>
    obtain ⟨ne, free⟩ := List.ne_and_not_mem_of_not_mem_cons h
    rw [List.cons_append, splitAll, if_neg (Ne.symm ne), ih free]

theorem notMem_of_cutFirst (h : cutFirst sep cs = some (before, after)) : sep ∉ before := by
  induction cs generalizing before with
  | nil => cases h
  | cons c rest ih =>
    simp only [cutFirst] at h
    split at h
    · cases h
      exact List.not_mem_nil
    · next ne =>
      obtain ⟨⟨b, a⟩, hr, he⟩ := Option.map_eq_some_iff.1 h
      cases he
      exact List.not_mem_cons_of_ne_of_not_mem (Ne.symm ne) (ih hr)

theorem cutFirst_append (h : sep ∉ before) (after : List Char) :
    cutFirst sep (before ++ sep :: after) = some (before, after) := by
  induction before with
  | nil => rw [List.nil_append, cutFirst, if_pos rfl]
  | cons c rest ih =>
    obtain ⟨ne, free⟩ := List.ne_and_not_mem_of_not_mem_cons h
    rw [List.cons_append, cutFirst, if_neg (Ne.symm ne), ih free]
    rfl

theorem cutLast_eq_none_iff : cutLast sep cs = none ↔ sep ∉ cs := by
  induction cs with
  | nil => simp [cutLast]
  | cons c rest ih =>
    rw [cutLast, List.mem_cons, not_or, ← ih]
    cases cutLast sep rest with
    | some cut => simp
    | none => simp [eq_comm]

theorem notMem_of_cutLast (h : cutLast sep cs = some (before, after)) : sep ∉ after := by
  induction cs generalizing before with
  | nil => cases h
  | cons c rest ih =>
    simp only [cutLast] at h
    split at h
    · next hr =>
      cases h
      exact ih hr
    · next hr =>
      split at h
      · cases h
        exact cutLast_eq_none_iff.1 hr
      · cases h

theorem cutLast_append (h : sep ∉ after) (before : List Char) :
    cutLast sep (before ++ sep :: after) = some (before, after) := by
  induction before with
  | nil => rw [List.nil_append, cutLast, cutLast_eq_none_iff.2 h, if_pos rfl]
  | cons c rest ih => rw [List.cons_append, cutLast, ih]

end Footage.Text
