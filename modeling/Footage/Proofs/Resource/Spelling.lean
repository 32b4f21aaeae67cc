import Footage.Proofs.Resource.Naming

/-!
# The texts that are read as names

A text is read as a name if and only if it consists of three labels with colons between them, a
slash, and a short name that is not empty and does not end in a colon (`Name.Spelled`).  The short
name is then divided at its last colon (`Name.Divides`).

The text of the name is the one that it was read from, with one exception: a short name that has a
colon only at its start is written without that colon, since the remote before it is empty.  In
either case the text of the name is read as the same name.  This is `Name.parse_grammar`, together
with the same facts about the triplets, which are all written as they were read.
-/

namespace Footage.Resource

/-- A reader accepts just the texts of a form, and takes every other one for a misuse. -/
def Accepts {α : Type} (parse : String → Except Misuse α) (Form : String → Prop) : Prop :=
  ∀ t, ((∃ a, parse t = .ok a) ↔ Form t) ∧
    (¬ Form t → ∃ e, parse t = .error e ∧ (Fault.misuse e).kind = .api)

theorem accepts_of_iff {α : Type} {parse : String → Except Misuse α} {Form : String → Prop}
    (h : ∀ t, (∃ a, parse t = .ok a) ↔ Form t) : Accepts parse Form := by
  refine fun t => ⟨h t, fun other => ?_⟩
  cases read : parse t with
  | ok a => exact absurd ((h t).1 ⟨a, read⟩) other
  | error e => exact ⟨e, rfl, rfl⟩

namespace Name

/-- The text consists of a triplet of labels, a slash, and a short name that is not empty and does
not end in a colon. -/
structure Spelled (t : String) (api : Api) (short : String) : Prop where
  labels : api.WellFormed
  ne_empty : short ≠ ""
  last : short.toList.getLast? ≠ some ':'
  eq : t = api.space ++ ":" ++ api.type ++ ":" ++ api.subtype ++ "/" ++ short

/-- How a short name is divided into a remote and an own name: at its last colon, and if it has
none, then the remote is empty. -/
inductive Divides : (short remote base : String) → Prop where
  | whole {short : String} : ':' ∉ short.toList → Divides short "" short
  | last {remote base : String} : ':' ∉ base.toList → Divides (remote ++ ":" ++ base) remote base

/-- The short name is a colon with a name behind it that has none. -/
def LeadingColon (short base : String) : Prop := short = ":" ++ base ∧ ':' ∉ base.toList

variable {t short remote base : String} {api : Api} {n : Name}

/-! ### Reading -/

/-- What is spelled is read. -/
theorem exists_of_spelled (h : Spelled t api short) :
    ∃ n, parse t = .ok n ∧ n.api = api ∧ Divides short n.remote n.base := by
  obtain ⟨labels, ne, last, eq⟩ := h
  rw [← Api.text] at eq
  have slash : '/' ∉ api.text.toList := by
    rw [Api.toList_text]
    simp [labels.space.slash, labels.type.slash, labels.subtype.slash]
  have cut : Text.cutFirst '/' t.toList = some (api.text.toList, short.toList) := by
    rw [← Text.cutFirst_append slash, eq]
    simp
  have read : Api.parse (String.ofList api.text.toList) = .ok api := by
    rw [String.ofList_toList, Api.parse_text labels]
  simp only [parse, cut, read, bind, Except.bind]
  cases divided : Text.cutLast ':' short.toList with
  | none =>
    refine ⟨⟨api, short, "", ne⟩, ?_, rfl, .whole (Text.cutLast_eq_none_iff.1 divided)⟩
    simp only [String.ofList_toList, make, dif_neg ne]
  | some parts =>
    obtain ⟨front, back⟩ := parts
    have put := Text.eq_of_cutLast divided
    have free := Text.notMem_of_cutLast divided
    have filled : String.ofList back ≠ "" := by
      -- Otherwise the colon before it would be the last character.
      intro empty
      obtain rfl : back = [] := by simpa using empty
      simp [put] at last
    refine ⟨⟨api, String.ofList back, String.ofList front, filled⟩,
      by simp only [make, dif_neg filled], rfl, ?_⟩
    have divides : Divides (String.ofList front ++ ":" ++ String.ofList back) (String.ofList front)
        (String.ofList back) := .last (by rwa [String.toList_ofList])
    rwa [show String.ofList front ++ ":" ++ String.ofList back = short from
      String.toList_injective (by simp [put])] at divides

/-- What is read is spelled. -/
theorem exists_spelled_of_parse (h : parse t = .ok n) : ∃ short, Spelled t n.api short := by
  have labels := (wellFormed_of_parse h).api
  simp only [parse] at h
  split at h
  · cases h
  · next front back cut =>
    have put := Text.eq_of_cutFirst cut
    obtain ⟨a, read, made⟩ := exists_of_bind_ok h
    have spelled := Api.parse_eq_ok_iff.1 read
    have eq (ha : a = n.api) :
        t = n.api.space ++ ":" ++ n.api.type ++ ":" ++ n.api.subtype ++ "/" ++
          String.ofList back := by
      rw [← ha, ← spelled.eq]
      exact String.toList_injective (by simp [put])
    split at made
    · next remote base divided =>
      obtain ⟨ha, hb, -⟩ := of_make_ok made
      have ne : base ≠ [] := by
        rintro rfl
        exact n.base_ne_empty hb
      have whole := Text.eq_of_cutLast divided
      refine ⟨String.ofList back, labels, by simp [whole], ?_, eq ha.symm⟩
      -- The last character is that of the own name, which has no colon.
      rw [String.toList_ofList, whole]
      intro last
      have mem : ':' ∈ base := by
        refine List.mem_of_getLast? ?_
        obtain ⟨c, cs, rfl⟩ := List.exists_cons_of_ne_nil ne
        simpa [List.getLast?_append, List.getLast?_cons_cons] using last
      exact Text.notMem_of_cutLast divided mem
    · next free =>
      obtain ⟨ha, hb, -⟩ := of_make_ok made
      refine ⟨String.ofList back, labels, ?_, ?_, eq ha.symm⟩
      · rw [← hb]
        exact n.base_ne_empty
      · rw [String.toList_ofList]
        intro last
        exact Text.cutLast_eq_none_iff.1 free (List.mem_of_getLast? last)

/-! ### Writing what was read -/

/-- A short name is written as it was read, unless its remote is empty and yet has a colon behind
it. -/
theorem short_cases (h : Divides short n.remote n.base) :
    (n.short = short ∧ ∀ base, ¬ LeadingColon short base) ∨
      (n.short = n.base ∧ LeadingColon short n.base) := by
  generalize hr : n.remote = remote at h
  generalize hb : n.base = base at h
  cases h with
  | whole free =>
    refine .inl ⟨by rw [Name.short, if_pos hr, hb], ?_⟩
    rintro _ ⟨rfl, -⟩
    simp at free
  | last free =>
    by_cases empty : remote = ""
    · subst empty
      exact .inr ⟨by rw [Name.short, if_pos hr, hb], by simp, free⟩
    · refine .inl ⟨by rw [Name.short, hr, if_neg empty, hb], ?_⟩
      rintro other ⟨eq, free'⟩
      -- There is one last colon, and it is not at the start.
      have same : remote.toList ++ ':' :: base.toList = [] ++ ':' :: other.toList := by
        simpa using congrArg String.toList eq
      have cut := Text.cutLast_append free remote.toList
      rw [same, Text.cutLast_append free'] at cut
      simp only [Option.some.injEq, Prod.mk.injEq] at cut
      exact empty (String.toList_eq_nil_iff.1 cut.1.symm)

/-- What becomes of the text of a name that was read. -/
theorem text_of_spelled (h : Spelled t n.api short) (divides : Divides short n.remote n.base) :
    ((∀ base, ¬ LeadingColon short base) → n.text = t) ∧
      ∀ base, LeadingColon short base →
        t = n.api.text ++ "/:" ++ base ∧ n.text = n.api.text ++ "/" ++ base := by
  have eq := h.eq
  rw [← Api.text] at eq
  rcases short_cases divides with ⟨same, none⟩ | ⟨bare, colon⟩
  · exact ⟨fun _ => by rw [text, same, eq], fun base colon => absurd colon (none base)⟩
  · refine ⟨fun none => absurd colon (none n.base), fun base colon' => ?_⟩
    obtain rfl : n.base = base := by
      have same := colon.1.symm.trans colon'.1
      simpa [String.ext_iff] using same
    constructor
    · rw [eq, colon.1]
      exact String.toList_injective (by simp)
    · rw [text, bare]

/-- **Just the spelled texts are read as names, and the text of a name is canonical.**  What is
read from a spelled text has its triplet, and its short name divided at the last colon.  It has the
same text again, except that a colon before a name without colons is dropped; and reading its text
gives the same name again.  Triplets are read from just three parts with colons between them, and
have the text that they were read from. -/
theorem parse_grammar :
    Accepts parse (fun t => ∃ api short, Spelled t api short) ∧
      (∀ t api short, Spelled t api short →
        ∃ n, parse t = .ok n ∧ n.api = api ∧ Divides short n.remote n.base ∧
          ((∀ base, ¬ LeadingColon short base) → n.text = t) ∧
          (∀ base, LeadingColon short base →
            t = api.text ++ "/:" ++ base ∧ n.text = api.text ++ "/" ++ base) ∧
          parse n.text = .ok n) ∧
      Accepts Api.parse (fun t => ∃ api, Api.Spelled t api) ∧
      ∀ t api, Api.Spelled t api → Api.parse t = .ok api ∧ api.text = t := by
  refine ⟨accepts_of_iff fun t => ⟨?_, ?_⟩, fun t api short spelled => ?_,
    accepts_of_iff fun t => ⟨?_, ?_⟩, fun t api spelled => ?_⟩
  · rintro ⟨n, read⟩
    exact ⟨n.api, exists_spelled_of_parse read⟩
  · rintro ⟨api, short, spelled⟩
    obtain ⟨n, read, -⟩ := exists_of_spelled spelled
    exact ⟨n, read⟩
  · obtain ⟨n, read, rfl, divides⟩ := exists_of_spelled spelled
    obtain ⟨same, bare⟩ := text_of_spelled spelled divides
    exact ⟨n, read, rfl, divides, same, bare, parse_text (wellFormed_of_parse read)⟩
  · rintro ⟨api, read⟩
    exact ⟨api, Api.parse_eq_ok_iff.1 read⟩
  · rintro ⟨api, spelled⟩
    exact ⟨api, Api.parse_eq_ok_iff.2 spelled⟩
  · exact ⟨Api.parse_eq_ok_iff.2 spelled, spelled.eq.symm⟩

/-- A short name with a colon only at its start, one with two of them, and one that ends in one. -/
theorem parse_grammar_colons :
    let api : Api := ⟨"a", "b", "c"⟩
    Spelled "a:b:c/:cam" api ":cam" ∧ LeadingColon ":cam" "cam" ∧
      (∃ n, parse "a:b:c/:cam" = .ok n ∧ n.text = "a:b:c/cam" ∧ parse "a:b:c/cam" = .ok n) ∧
      Spelled "a:b:c/::cam" api "::cam" ∧ (∀ base, ¬ LeadingColon "::cam" base) ∧
      (∃ n, parse "a:b:c/::cam" = .ok n ∧ n.text = "a:b:c/::cam") ∧
      ¬ ∃ api short, Spelled "a:b:c/cam:" api short := by
  intro api
  have labels : api.WellFormed := ⟨by decide, by decide, by decide⟩
  have one : Spelled "a:b:c/:cam" api ":cam" := ⟨labels, by decide, by decide, by decide⟩
  have leading : LeadingColon ":cam" "cam" := ⟨by decide, by decide⟩
  have two : Spelled "a:b:c/::cam" api "::cam" := ⟨labels, by decide, by decide, by decide⟩
  have other : ∀ base, ¬ LeadingColon "::cam" base := by
    rintro base ⟨eq, free⟩
    obtain rfl : ":cam" = base := by simpa [String.ext_iff] using eq
    exact absurd free (by decide)
  obtain ⟨accepts, reads, -⟩ := parse_grammar
  refine ⟨one, leading, ?_, two, other, ?_, ?_⟩
  · obtain ⟨n, read, -, -, -, bare, again⟩ := reads _ _ _ one
    have text := (bare "cam" leading).2
    rw [text] at again
    exact ⟨n, read, text, again⟩
  · obtain ⟨n, read, -, -, same, -⟩ := reads _ _ _ two
    exact ⟨n, read, same other⟩
  · intro spelled
    obtain ⟨n, read⟩ := (accepts "a:b:c/cam:").1.2 spelled
    cases read

end Name

end Footage.Resource
