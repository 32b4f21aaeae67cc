import Footage.Proofs.Resource.Naming
import Mathlib.Data.List.Induction

/-!
# Names behind several remotes

A name is put behind remotes one after the other (`Name.through`), the last of them becoming the
outermost.  Empty remotes leave no trace, so what stands before the own name in the end are the
other ones and the remote that the name had before, if it had one (`Name.hops`), with colons between
them: `Name.remote_through` and `Name.short_through`.

A name behind remotes is as well formed as the name itself, so it survives its text if that one
does (`Name.parse_text_through`).
-/

namespace Footage.Resource.Name

variable {n : Name}

/-- The name as it is reached through remotes that are put before it one after the other. -/
def through (n : Name) (remotes : List String) : Name := remotes.foldl via n

/-- The remotes on the way to the resource, the outermost first. -/
def hops (n : Name) (remotes : List String) : List String :=
  (remotes.reverse ++ [n.remote]).filter (· ≠ "")

theorem via_remote (n : Name) (remote : String) :
    (n.via remote).remote =
      if remote = "" then n.remote
      else if n.remote = "" then remote else remote ++ ":" ++ n.remote := by
  rw [via]
  split
  · rfl
  · split <;> rfl

theorem through_concat (remotes : List String) (remote : String) :
    n.through (remotes ++ [remote]) = (n.through remotes).via remote := by
  simp [through]

theorem hops_concat (remotes : List String) (remote : String) :
    n.hops (remotes ++ [remote]) =
      if remote = "" then n.hops remotes else remote :: n.hops remotes := by
  by_cases empty : remote = "" <;> simp [hops, empty]

@[simp] theorem through_api (remotes : List String) : (n.through remotes).api = n.api := by
  induction remotes using List.reverseRecOn with
  | nil => rfl
  | append_singleton remotes remote ih => rw [through_concat, via_api, ih]

@[simp] theorem through_base (remotes : List String) : (n.through remotes).base = n.base := by
  induction remotes using List.reverseRecOn with
  | nil => rfl
  | append_singleton remotes remote ih => rw [through_concat, via_base, ih]

/-- Between texts that are not empty the colons are all that is added, so nothing comes of no texts
only. -/
theorem intercalate_eq_empty_iff {parts : List String} (filled : ∀ part ∈ parts, part ≠ "") :
    ":".intercalate parts = "" ↔ parts = [] := by
  cases parts with
  | nil => simp
  | cons first rest =>
    have ne := filled first List.mem_cons_self
    by_cases last : rest = []
    · simp [last, ne]
    · simp [String.intercalate_cons_of_ne_nil last]

theorem ne_empty_of_mem_hops {remotes : List String} : ∀ hop ∈ n.hops remotes, hop ≠ "" := by
  intro hop h
  simpa using (List.mem_filter.1 h).2

/-- The remote of a name behind remotes are the hops with colons between them. -/
theorem remote_through (remotes : List String) :
    (n.through remotes).remote = ":".intercalate (n.hops remotes) := by
  induction remotes using List.reverseRecOn with
  | nil => by_cases empty : n.remote = "" <;> simp [through, hops, empty]
  | append_singleton remotes remote ih =>
    simp only [through_concat, hops_concat, via_remote, ih,
      intercalate_eq_empty_iff ne_empty_of_mem_hops]
    by_cases empty : remote = ""
    · rw [if_pos empty, if_pos empty]
    · rw [if_neg empty, if_neg empty]
      by_cases none : n.hops remotes = []
      · simp [none]
      · rw [if_neg none, String.intercalate_cons_of_ne_nil none]

/-- Requests to a name behind remotes carry the hops and the own name, with colons between them. -/
theorem short_through (remotes : List String) :
    (n.through remotes).short =
      if n.hops remotes = [] then n.base
      else ":".intercalate (n.hops remotes) ++ ":" ++ n.base := by
  simp only [short, remote_through, through_base, intercalate_eq_empty_iff ne_empty_of_mem_hops]

/-- Two remotes may be put before a name as one, with a colon between them. -/
theorem via_via {inner outer : String} (hi : inner ≠ "") (ho : outer ≠ "") :
    (n.via inner).via outer = n.via (outer ++ ":" ++ inner) := by
  by_cases none : n.remote = "" <;> simp [via, hi, ho, none, String.append_assoc]

/-- A name behind remotes survives its text if the name itself does. -/
theorem parse_text_through (h : parse n.text = .ok n) (remotes : List String) :
    parse (n.through remotes).text = .ok (n.through remotes) := by
  have wellFormed := wellFormed_of_parse h
  refine parse_text ⟨?_, ?_⟩
  · rw [through_api]
    exact wellFormed.api
  · rw [through_base]
    exact wellFormed.base

end Footage.Resource.Name
