import Footage.Proofs.Act.Outcome
import Footage.Resource.Name

/-!
# Names and their texts

A name is *well formed* (`Name.WellFormed`) if its separators can be told from its parts: the three
parts of the API are labels, without colons and slashes, and the own name has no colon.  Nothing is
asked of the remote, and the own name may have slashes in it.

Only well-formed names are ever read (`Name.wellFormed_of_parse`), and each of them is read back
from its text.  So reading a text back tells whether a name is well formed (`Name.parse_text_iff`),
and well-formed names of one API are told apart by what requests carry.
-/

namespace Footage.Resource

/-- A part of an API from which the separators can be told. -/
structure IsLabel (part : String) : Prop where
  ne_empty : part ≠ ""
  colon : ':' ∉ part.toList
  slash : '/' ∉ part.toList

instance (part : String) : Decidable (IsLabel part) :=
  decidable_of_iff (part ≠ "" ∧ ':' ∉ part.toList ∧ '/' ∉ part.toList)
    ⟨fun h => ⟨h.1, h.2.1, h.2.2⟩, fun h => ⟨h.ne_empty, h.colon, h.slash⟩⟩

/-- A part of a triplet between its colons. -/
structure IsPart (part : String) : Prop where
  ne_empty : part ≠ ""
  colon : ':' ∉ part.toList

theorem IsLabel.isPart {part : String} (h : IsLabel part) : IsPart part := ⟨h.ne_empty, h.colon⟩

namespace Api

/-- The text consists of the parts of the triplet, none of them empty, with colons between them. -/
structure Spelled (text : String) (api : Api) : Prop where
  space : IsPart api.space
  type : IsPart api.type
  subtype : IsPart api.subtype
  eq : text = api.space ++ ":" ++ api.type ++ ":" ++ api.subtype

/-- Every part of the triplet is a label. -/
structure WellFormed (api : Api) : Prop where
  space : IsLabel api.space
  type : IsLabel api.type
  subtype : IsLabel api.subtype

variable {api : Api}

theorem toList_text (api : Api) :
    api.text.toList =
      api.space.toList ++ ':' :: (api.type.toList ++ ':' :: api.subtype.toList) := by
  simp [text]

/-- A triplet is read from just the texts that spell it. -/
theorem parse_eq_ok_iff {text : String} : parse text = .ok api ↔ Spelled text api := by
  constructor
  · intro h
    simp only [parse] at h
    split at h
    · next space type subtype parts =>
      split at h
      · cases h
      · next filled =>
        cases h
        simp only [Bool.or_eq_true, List.isEmpty_iff, not_or] at filled
        have part {cs : List Char} (mem : cs ∈ Text.splitAll ':' text.toList) (ne : cs ≠ []) :
            IsPart (String.ofList cs) := by
          refine ⟨by simpa using ne, ?_⟩
          rw [String.toList_ofList]
          exact Text.notMem_of_mem_splitAll mem
        refine ⟨part (by simp [parts]) filled.1.1, part (by simp [parts]) filled.1.2,
          part (by simp [parts]) filled.2, ?_⟩
        have whole := Text.joined_splitAll ':' text.toList
        rw [parts] at whole
        exact String.toList_injective (by simp [← whole, Text.joined])
    · cases h
  · rintro ⟨space, type, subtype, rfl⟩
    have parts : Text.splitAll ':' api.text.toList =
        [api.space.toList, api.type.toList, api.subtype.toList] := by
      rw [toList_text, Text.splitAll_append space.colon, Text.splitAll_append type.colon,
        Text.splitAll_of_notMem subtype.colon]
    rw [← text, parse, parts]
    simp [space.ne_empty, type.ne_empty, subtype.ne_empty]

theorem parse_text (h : api.WellFormed) : parse api.text = .ok api :=
  parse_eq_ok_iff.2 ⟨h.space.isPart, h.type.isPart, h.subtype.isPart, rfl⟩

/-- The parts of an API that is read from a text without slashes are labels. -/
theorem wellFormed_of_parse {text : String} (h : parse text = .ok api) (slash : '/' ∉ text.toList) :
    api.WellFormed := by
  obtain ⟨space, type, subtype, rfl⟩ := parse_eq_ok_iff.1 h
  rw [← Api.text, toList_text] at slash
  simp only [List.mem_append, List.mem_cons, not_or] at slash
  exact ⟨⟨space.ne_empty, space.colon, slash.1⟩, ⟨type.ne_empty, type.colon, slash.2.2.1⟩,
    ⟨subtype.ne_empty, subtype.colon, slash.2.2.2.2⟩⟩

end Api

namespace Name

/-- The separators in the name's text can be told from its parts.  The remote may be anything. -/
structure WellFormed (n : Name) : Prop where
  api : n.api.WellFormed
  base : ':' ∉ n.base.toList

variable {m n : Name}

theorem toList_text (n : Name) :
    n.text.toList = n.api.text.toList ++ '/' :: n.short.toList := by
  simp [text]

theorem toList_short (h : n.remote ≠ "") :
    n.short.toList = n.remote.toList ++ ':' :: n.base.toList := by
  simp [short, h]

theorem cutLast_short (h : ':' ∉ n.base.toList) :
    Text.cutLast ':' n.short.toList =
      if n.remote = "" then none else some (n.remote.toList, n.base.toList) := by
  by_cases hr : n.remote = ""
  · rw [if_pos hr, short, if_pos hr, Text.cutLast_eq_none_iff]
    exact h
  · rw [if_neg hr, toList_short hr, Text.cutLast_append h]

/-- What is made of an own name that is not empty. -/
theorem make_base (n : Name) (remote : String) :
    make n.api n.base remote = .ok { n with remote } := by
  rw [make, dif_neg n.base_ne_empty]

/-- What is made has the parts that it is made of. -/
theorem of_make_ok {api : Api} {base remote : String} (h : make api base remote = .ok n) :
    n.api = api ∧ n.base = base ∧ n.remote = remote := by
  simp only [make] at h
  split at h
  · cases h
  · cases h
    exact ⟨rfl, rfl, rfl⟩

/-- A well-formed name is read back from its text. -/
theorem parse_text (h : n.WellFormed) : parse n.text = .ok n := by
  have slash : '/' ∉ n.api.text.toList := by
    rw [Api.toList_text]
    simp [h.api.space.slash, h.api.type.slash, h.api.subtype.slash]
  have api : Api.parse (String.ofList n.api.text.toList) = .ok n.api := by
    rw [String.ofList_toList, Api.parse_text h.api]
  by_cases hr : n.remote = ""
  · have cut := cutLast_short h.base
    rw [if_pos hr] at cut
    have made : make n.api n.base "" = .ok n := by
      rw [← hr]
      exact make_base n n.remote
    simp only [parse, toList_text, Text.cutFirst_append slash, api, cut]
    rw [short, if_pos hr, String.ofList_toList]
    exact made
  · have cut := cutLast_short h.base
    rw [if_neg hr] at cut
    simp only [parse, toList_text, Text.cutFirst_append slash, api, cut]
    rw [String.ofList_toList, String.ofList_toList]
    exact make_base n n.remote

/-- Only well-formed names are read, from whatever text. -/
theorem wellFormed_of_parse {text : String} (h : parse text = .ok n) : n.WellFormed := by
  simp only [parse] at h
  split at h
  · cases h
  · next api short cut =>
    obtain ⟨a, ha, made⟩ := exists_of_bind_ok h
    have slash := Text.notMem_of_cutFirst cut
    have labels := Api.wellFormed_of_parse ha (by rwa [String.toList_ofList])
    split at made
    · next remote base cut =>
      obtain ⟨rfl, hb, -⟩ := of_make_ok made
      refine ⟨labels, ?_⟩
      rw [hb, String.toList_ofList]
      exact Text.notMem_of_cutLast cut
    · next cut =>
      obtain ⟨rfl, hb, -⟩ := of_make_ok made
      refine ⟨labels, ?_⟩
      rw [hb, String.toList_ofList]
      exact Text.cutLast_eq_none_iff.1 cut

/-- Well-formed names with the same text are the same. -/
theorem text_injective (hm : m.WellFormed) (hn : n.WellFormed) (h : m.text = n.text) : m = n := by
  have read := parse_text hm
  rw [h, parse_text hn] at read
  cases read
  rfl

/-- **A name survives its text exactly when it is well formed.**  Reading its text back gives the
name if and only if the parts of its API are labels and its own name has no colon, whatever the
remote is.  So what requests carry tells the well-formed names of one API apart. -/
theorem parse_text_iff (n : Name) :
    (parse n.text = .ok n ↔ n.WellFormed) ∧
      ∀ m : Name, m.WellFormed → n.WellFormed → m.api = n.api → (m.short = n.short ↔ m = n) := by
  refine ⟨⟨wellFormed_of_parse, parse_text⟩, fun m hm hn api => ⟨fun same => ?_, fun h => h ▸ rfl⟩⟩
  exact text_injective hm hn (by rw [text, text, api, same])

/-- Two names behind remotes that share a colon and a slash in their parts. -/
theorem parse_text_iff_remote :
    let near : Name := ⟨.videoStore, "cam/1", "", by decide⟩
    let far : Name := ⟨.videoStore, "cam/1", "west:a/b", by decide⟩
    near.WellFormed ∧ far.WellFormed ∧ parse far.text = .ok far ∧ near.short ≠ far.short := by
  intro near far
  have api : Api.videoStore.WellFormed := ⟨by decide, by decide, by decide⟩
  have near_wellFormed : near.WellFormed := ⟨api, by decide⟩
  have far_wellFormed : far.WellFormed := ⟨api, by decide⟩
  obtain ⟨read, apart⟩ := parse_text_iff far
  refine ⟨near_wellFormed, far_wellFormed, read.2 far_wellFormed, fun same => ?_⟩
  have equal := (apart near near_wellFormed far_wellFormed rfl).1 same
  revert equal
  decide

end Name

end Footage.Resource
