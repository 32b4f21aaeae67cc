/-!
# Capabilities

What an object must offer to count as a resource, or as a video store.  A capability is a list
of members; `Capability.met` decides whether an object with certain members has it.
-/

namespace Footage.Resource

/-- What stands under the name of a member. -/
inductive Member where
  | method
  /-- The member exists, but holds nothing. -/
  | nothing
  | value
deriving DecidableEq, Repr

/-- A capability: the members that it asks for. -/
structure Capability where
  members : List String
deriving DecidableEq, Repr

namespace Capability

/-- Identity and lifecycle. -/
def resource : Capability := ⟨["name", "close", "do_command"]⟩

/-- The operations on stored video, on top of those of a resource. -/
def videoStore : Capability := ⟨resource.members ++ ["fetch", "save", "fetch_stream"]⟩

/-- Whether an object with these members has the capability: every member exists, and none but
the name holds nothing. -/
def met (c : Capability) (object : List (String × Member)) : Bool :=
  c.members.all fun name =>
    match object.lookup name with
    | none => false
    | some .nothing => name == "name"
    | some _ => true

end Capability

end Footage.Resource
