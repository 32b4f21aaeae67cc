import Footage.Fault
import Footage.Text.Split
/-!
# Disks

Files and directories at places, which are lists of names from the root on.  A path is resolved
from the working directory by `Disk.locate`, which steps through directories that exist, while
`Disk.absolute` only looks at the text of the path.

`Disk.find?` is the view of a disk: `find?_put` and `find?_drop` say what a change does to it.
-/

namespace Footage

/-- The names from the root on. -/
abbrev Place := List String

/-- A path from the root on, without empty names and dots.  Two slashes in front are as good as
one and are kept. -/
structure Disk.Absolute where
  place : Place
  /-- Whether the path starts with two slashes. -/
  doubled : Bool := false
deriving DecidableEq, Repr

namespace Disk.Absolute

/-- The path as a text. -/
def text (a : Absolute) : String :=
  (if a.doubled then "//" else "/") ++ "/".intercalate a.place

/-- The path to the directory. -/
def parent (a : Absolute) : Absolute := { a with place := a.place.dropLast }

/-- The path to an entry of the directory. -/
def child (a : Absolute) (name : String) : Absolute := { a with place := a.place ++ [name] }

end Disk.Absolute

/-- What is found at a place. -/
inductive Disk.Node where
  | file (content : Bytes)
  | directory
deriving DecidableEq, Repr

/-- Files and directories, and where work is done. -/
structure Disk where
  entries : List (Place × Disk.Node)
  /-- The working directory. -/
  home : Place
  /-- What the next operations that write will meet: a fault, or nothing.  Operations after the
  last one meet nothing. -/
  troubles : List (Option Fault) := []
  /-- The ends of the names of temporary files, as they are drawn at random. -/
  draws : Nat → String := fun n => String.ofList (Number.padded 8 n)

namespace Disk

/-! ### The view -/

/-- What is found at a place; the root is always a directory. -/
def find? (d : Disk) (p : Place) : Option Node :=
  if p = [] then some .directory else d.entries.lookup p

/-- The disk with a node at a place. -/
def put (d : Disk) (p : Place) (n : Node) : Disk :=
  { d with entries := (p, n) :: d.entries.filter (·.1 ≠ p) }

/-- The disk without what was at a place. -/
def drop (d : Disk) (p : Place) : Disk := { d with entries := d.entries.filter (·.1 ≠ p) }

theorem lookup_filter_ne (entries : List (Place × Node)) {p q : Place} (h : q ≠ p) :
    (entries.filter (·.1 ≠ p)).lookup q = entries.lookup q := by
  induction entries with
  | nil => rfl
  | cons entry rest ih =>
    obtain ⟨r, n⟩ := entry
    by_cases hr : r = p
    · subst hr
      have hq : (q == r) = false := by simpa using h
      simpa [List.lookup_cons, hq] using ih
    · by_cases hq : (q == r) = true
      · simp [List.lookup_cons, hr, hq]
      · simp only [Bool.not_eq_true] at hq
        simpa [List.lookup_cons, hr, hq] using ih

theorem lookup_filter_self (entries : List (Place × Node)) (p : Place) :
    (entries.filter (·.1 ≠ p)).lookup p = none := by
  induction entries with
  | nil => rfl
  | cons entry rest ih =>
    obtain ⟨r, n⟩ := entry
    by_cases hr : r = p
    · subst hr
      simpa using ih
    · have hp : (p == r) = false := by simpa using Ne.symm hr
      simpa [List.lookup_cons, hr, hp] using ih

theorem find?_put (d : Disk) (p q : Place) (n : Node) (hp : p ≠ []) :
    (d.put p n).find? q = if q = p then some n else d.find? q := by
  by_cases h : q = p
  · subst h
    simp [find?, put, hp]
  · have hq : (q == p) = false := by simpa using h
    simp only [find?, put, h, if_false, List.lookup_cons, hq, lookup_filter_ne _ h]

theorem find?_drop (d : Disk) (p q : Place) (hp : p ≠ []) :
    (d.drop p).find? q = if q = p then none else d.find? q := by
  by_cases h : q = p
  · subst h
    simp only [find?, drop, hp, if_false, if_true, lookup_filter_self]
  · simp only [find?, drop, h, if_false, lookup_filter_ne _ h]

/-- The content of the file at a place; nothing, where there is no file. -/
def content (d : Disk) (p : Place) : Bytes :=
  match d.find? p with
  | some (.file bytes) => bytes
  | _ => []

/-! ### Changes -/

/-- A change of the files on a disk. -/
inductive Change where
  /-- The file at a place, which may be new, now has this content. -/
  | written (place : Place) (content : Bytes)
  | removed (place : Place)
  /-- The file at the first place went to the second one, in place of what was there. -/
  | moved (source target : Place)
deriving DecidableEq, Repr

/-- The disk after a change. -/
def after (d : Disk) : Change → Disk
  | .written place content => d.put place (.file content)
  | .removed place => d.drop place
  | .moved source target => (d.drop source).put target (.file (d.content source))

/-! ### Paths -/

/-- The names in a path, between its slashes. -/
def namesIn (path : String) : List String :=
  (Text.splitAll '/' path.toList).map String.ofList

/-- Where a path starts: at the root if it begins with a slash, else at the working directory. -/
def startOf (d : Disk) (path : String) : Place :=
  if path.toList.head? = some '/' then [] else d.home

/-- The place that a name leads to from a place, whatever may be there. -/
def follow (p : Place) (name : String) : Place :=
  if name = "" ∨ name = "." then p else if name = ".." then p.dropLast else p ++ [name]

/-- The absolute form that a path has by its text alone. -/
def absolute (d : Disk) (path : String) : Absolute where
  place := (namesIn path).foldl follow (d.startOf path)
  doubled :=
    match path.toList with
    | '/' :: '/' :: '/' :: _ => false
    | '/' :: '/' :: _ => true
    | _ => false

/-- How many bytes a name may have. -/
def longestName : Nat := 255

/-- How many bytes a path may have. -/
def longestPath : Nat := 4095

/-- What is found in a directory under a name. -/
def look (d : Disk) (directory : Place) (name : String) : Except FileTrouble (Option Node) :=
  if name.utf8ByteSize > longestName then .error .nameTooLong
  else .ok (d.find? (directory ++ [name]))

/-- The directory that is reached from a directory by names, each of which must be there. -/
def enter (d : Disk) (p : Place) : List String → Except FileTrouble Place
  | [] => .ok p
  | name :: rest =>
    if name = "" ∨ name = "." then d.enter p rest
    else if name = ".." then d.enter p.dropLast rest
    else match d.look p name with
      | .error trouble => .error trouble
      | .ok none => .error .noEntry
      | .ok (some (.file _)) => .error .notDirectory
      | .ok (some .directory) => d.enter (p ++ [name]) rest

/-- What a path leads to. -/
inductive Target where
  /-- A directory, named by dots or as the root. -/
  | directory
  /-- A name in a directory, which may be free; and whether a slash follows the name. -/
  | entry (directory : Place) (name : String) (slash : Bool)
deriving DecidableEq, Repr

/-- What a path leads to, if its directory is there. -/
def locate (d : Disk) (path : String) : Except FileTrouble Target :=
  if path = "" then .error .noEntry
  else if path.utf8ByteSize > longestPath then .error .nameTooLong
  else
    let names := (namesIn path).reverse
    match names.dropWhile (· = "") with
    | [] => .ok .directory
    | last :: before => do
      let directory ← d.enter (d.startOf path) before.reverse
      if last = "." ∨ last = ".." then return .directory
      else return .entry directory last (names.head? = some "")

/-! ### Temporary files -/

/-- The name of a temporary file with an end that was drawn. -/
def temporaryName (drawn : String) : String := ".videostore-" ++ drawn

/-- How many ends are drawn at most for the name of one temporary file. -/
def mostDraws : Nat := 10000

/-- The first name of a temporary file that is free in a directory, when `tries` ends are drawn
from the given one on. -/
def freeNameFrom (d : Disk) (p : Place) : (tries first : Nat) → Option String
  | 0, _ => none
  | tries + 1, n =>
    let name := temporaryName (d.draws n)
    match d.find? (p ++ [name]) with
    | none => some name
    | some _ => d.freeNameFrom p tries (n + 1)

/-- The name of a new temporary file in a directory, unless all names that are drawn are taken. -/
def freeName? (d : Disk) (p : Place) : Option String := d.freeNameFrom p mostDraws 0

end Disk

end Footage
