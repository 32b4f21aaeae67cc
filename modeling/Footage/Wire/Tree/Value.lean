import Footage.Fault
import Footage.Wire.Tree
/-!
# Trees and free values

A free value becomes a tree with all its numbers as doubles (`Value.toTree`), which fails for
byte strings and for integers beyond the doubles; a tree becomes a free value again
(`Tree.toValue`), which fails for doubles that are not finite.  The first offending part in the
order of the value decides which fault it is.
-/

namespace Footage

open Number (Binary64)
open Wire (Tree Struct insertEntry)

namespace Value

mutual
/-- The value as a tree. -/
def toTree : Value → Except ConversionFault Tree
  | null => .ok (.null 0 [])
  | flag b => .ok (.flag b [])
  | whole n =>
    match Binary64.ofInt? n with
    | some x => .ok (.number x [])
    | none => .error .integerTooLarge
  | real x => .ok (.number x [])
  | text s => .ok (.text s [])
  | bytes _ => .error .unexpectedType
  | list items => do return .list (← toTrees items) [] []
  | record entries => do return .struct (← toEntries entries []) [] []

/-- The values as trees. -/
def toTrees : List Value → Except ConversionFault (List Tree)
  | [] => .ok []
  | v :: rest => do
    let t ← v.toTree
    return t :: (← toTrees rest)

/-- The entries as trees, put into those that are there already. -/
def toEntries : List (String × Value) → List (String × Tree) →
    Except ConversionFault (List (String × Tree))
  | [], done => .ok done
  | (key, v) :: rest, done => do
    let t ← v.toTree
    toEntries rest (insertEntry key t done)
end

/-- The entries of a record as a struct. -/
def toStruct (entries : List (String × Value)) : Except ConversionFault Struct := do
  return { entries := ← toEntries entries [] }

end Value

namespace Wire

mutual
/-- The tree as a free value. -/
def Tree.toValue : Tree → Except ConversionFault Value
  | .absent _ => .ok .null
  | .null _ _ => .ok .null
  | .number x _ =>
    if x.isInfinite then .error .infinite
    else if x.isNaN then .error .notANumber
    else .ok (.real x)
  | .text s _ => .ok (.text s)
  | .flag b _ => .ok (.flag b)
  | .struct entries _ _ => do return .record (← toFields entries)
  | .list items _ _ => do return .list (← toValues items)

/-- The trees as free values. -/
def toValues : List Tree → Except ConversionFault (List Value)
  | [] => .ok []
  | t :: rest => do
    let v ← t.toValue
    return v :: (← toValues rest)

/-- The entries as free values. -/
def toFields : List (String × Tree) → Except ConversionFault (List (String × Value))
  | [] => .ok []
  | (key, t) :: rest => do
    let v ← t.toValue
    return (key, v) :: (← toFields rest)
end

/-- The struct as the entries of a record. -/
def Struct.toRecord (s : Struct) : Except ConversionFault (List (String × Value)) :=
  toFields s.entries

end Wire

end Footage
