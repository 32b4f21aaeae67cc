import Footage.Bytes
import Footage.Number.Quantity
import Footage.Text.Quoted
/-!
# Free values

What commands and their results are made of: nulls, flags, numbers, texts, byte strings, lists
and records whose keys keep the order in which they were given.  `Value.shown` writes a value
the way messages quote it.
-/

namespace Footage

open Number (Binary64 Quantity)

/-- A value of free form. -/
inductive Value where
  | null
  | flag (b : Bool)
  | whole (n : Int)
  | real (x : Binary64)
  | text (s : String)
  | bytes (b : Bytes)
  | list (items : List Value)
  | record (entries : List (String × Value))
deriving Inhabited

namespace Value

mutual
/-- The value as it is shown in messages. -/
def shown : Value → String
  | null => "None"
  | flag b => if b then "True" else "False"
  | whole n => toString n
  | real x => x.text
  | text s => Text.quote s
  | bytes b => Text.quoteBytes b
  | list items => "[" ++ ", ".intercalate (shownItems items) ++ "]"
  | record entries => "\x7b" ++ ", ".intercalate (shownEntries entries) ++ "\x7d"

/-- Each item of a list, shown. -/
def shownItems : List Value → List String
  | [] => []
  | v :: rest => v.shown :: shownItems rest

/-- Each entry of a record, shown. -/
def shownEntries : List (String × Value) → List String
  | [] => []
  | (key, v) :: rest => (Text.quote key ++ ": " ++ v.shown) :: shownEntries rest
end

/-- The quantity that a value is, if it is one. -/
def quantity? : Value → Option Quantity
  | flag b => some (.flag b)
  | whole n => some (.whole n)
  | real x => some (.real x)
  | _ => none

/-- The name of the value's sort, for messages about operands that do not compare. -/
def sortName : Value → String
  | null => "NoneType"
  | flag _ => "bool"
  | whole _ => "int"
  | real _ => "float"
  | text _ => "str"
  | bytes _ => "bytes"
  | list _ => "list"
  | record _ => "dict"

end Value

end Footage
