import Footage.Fault
import Footage.Text.Split
/-!
# Resource names

A resource is addressed by the API that it offers, a name, and the remote through which it is
reached, if any.  A remote is itself a chain of names with colons between them, the outermost
first.  `Name.short` is what requests carry, `Name.text` the full form with the API, and
`Name.parse` reads that form back.
-/

namespace Footage.Resource

/-- The triplet that identifies an API. -/
structure Api where
  space : String
  type : String
  subtype : String
deriving DecidableEq, Repr

namespace Api

/-- The triplet with colons between its parts. -/
def text (api : Api) : String := api.space ++ ":" ++ api.type ++ ":" ++ api.subtype

/-- Reads a triplet: exactly three parts with colons between them, none of them empty. -/
def parse (text : String) : Except Misuse Api :=
  match Text.splitAll ':' text.toList with
  | [space, type, subtype] =>
    if space.isEmpty || type.isEmpty || subtype.isEmpty then .error (.malformedApi text)
    else .ok ⟨String.ofList space, String.ofList type, String.ofList subtype⟩
  | _ => .error (.malformedApi text)

/-- The triplet as an expression that shows its fields. -/
def shown (api : Api) : String :=
  "ResourceAPI(namespace=" ++ Text.quote api.space ++ ", resource_type=" ++ Text.quote api.type ++
    ", subtype=" ++ Text.quote api.subtype ++ ")"

/-- The API of video stores. -/
def videoStore : Api := ⟨"viam-modules", "service", "videostore"⟩

end Api

/-- The full name of a resource, whose own name is not empty. -/
structure Name where
  api : Api
  base : String
  /-- The chain of remotes, the outermost first; empty for a resource at hand. -/
  remote : String
  base_ne_empty : base ≠ ""
deriving DecidableEq

namespace Name

/-- The name with these parts, if its own name is not empty. -/
def make (api : Api) (base : String) (remote : String := "") : Except Misuse Name :=
  if h : base = "" then .error .emptyName else .ok ⟨api, base, remote, h⟩

/-- The name of a video store at hand. -/
def ofBase (base : String) : Except Misuse Name := make .videoStore base

/-- What requests carry: the name behind its remote. -/
def short (n : Name) : String :=
  if n.remote = "" then n.base else n.remote ++ ":" ++ n.base

/-- The name as it is reached through one more remote; the empty remote changes nothing. -/
def via (n : Name) (remote : String) : Name :=
  if remote = "" then n
  else if n.remote = "" then { n with remote }
  else { n with remote := remote ++ ":" ++ n.remote }

/-- The API, a slash and the short name. -/
def text (n : Name) : String := n.api.text ++ "/" ++ n.short

/-- Reads the full form: the API stands before the first slash, and the own name after the last
colon behind it. -/
def parse (text : String) : Except Misuse Name :=
  match Text.cutFirst '/' text.toList with
  | none => .error (.malformedName text)
  | some (api, short) => do
    let api ← Api.parse (String.ofList api)
    match Text.cutLast ':' short with
    | some (remote, base) => make api (String.ofList base) (String.ofList remote)
    | none => make api (String.ofList short)

/-- The name as an expression that shows its fields. -/
def shown (n : Name) : String :=
  "ResourceName(api=" ++ n.api.shown ++ ", name=" ++ Text.quote n.base ++ ", remote=" ++
    Text.quote n.remote ++ ")"

/-- A name never changes: what an attempt to assign to one of its fields ends with. -/
def assign (_ : Name) (field : String) : Fault := .frozen field

@[simp] theorem via_empty (n : Name) : n.via "" = n := by
  simp [via]

@[simp] theorem via_api (n : Name) (r : String) : (n.via r).api = n.api := by
  simp only [via]; split <;> (try split) <;> rfl

@[simp] theorem via_base (n : Name) (r : String) :
    (n.via r).base = n.base := by
  simp only [via]; split <;> (try split) <;> rfl

end Name

end Footage.Resource
