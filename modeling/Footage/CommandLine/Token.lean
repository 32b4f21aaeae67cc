import Footage.CommandLine.Switch
import Footage.Text.Digit
import Footage.Text.Split
/-!
# Tokens of a command line

What each argument is for a form, judged by its text alone: a switch, which may have a value
attached, something that only looks like a switch, or a plain word.  The mark `--` makes all
arguments after it plain.

A long name may be cut short as long as only one switch fits (`Form.candidates`), and a value may
be attached to it with an equals sign; a one-letter name may have its value attached directly.
-/

namespace Footage.CommandLine

/-- An argument as a form sees it. -/
inductive Token (α : Type) where
  /-- A switch under one of its names, with the value attached to it. -/
  | known (text : String) (switch : Switch α) (name : String) (attached : Option String)
  /-- What looks like a switch and is none of the form's. -/
  | foreign (text : String)
  /-- The mark that ends the switches. -/
  | mark
  | plain (text : String)

/-- The mark that ends the switches. -/
def endMark : String := "--"

variable {α : Type}

/-- The argument itself. -/
def Token.text : Token α → String
  | known text .. => text
  | foreign text => text
  | mark => endMark
  | plain text => text

/-- What stands before the first equals sign, and after it if there is one. -/
def cutAttached (arg : String) : String × Option String :=
  match Text.cutFirst '=' arg.toList with
  | some (name, value) => (String.ofList name, some (String.ofList value))
  | none => (arg, none)

/-- Whether the characters after a minus make a number; a line break may follow them. -/
def isNumeric (cs : List Char) : Bool :=
  let cs := if cs.getLast? = some '\n' then cs.dropLast else cs
  match cs.dropWhile Text.isDigit with
  | [] => !cs.isEmpty
  | '.' :: fraction => !fraction.isEmpty && fraction.all Text.isDigit
  | _ => false

namespace Form

/-- The switches that an argument which is no full name may stand for, each with the name meant
and the value attached. -/
def candidates (f : Form α) (arg : String) : List (Switch α × String × Option String) :=
  if endMark.toList.isPrefixOf arg.toList then
    let (beginning, attached) := cutAttached arg
    (f.byName.filter fun (name, _) => beginning.toList.isPrefixOf name.toList).map
      fun (name, s) => (s, name, attached)
  else
    let short := String.ofList (arg.toList.take 2)
    match f.find? short with
    | some s => [(s, short, some (String.ofList (arg.toList.drop 2)))]
    | none => []

/-- What an argument is that starts with a minus and is not the mark. -/
def dashed (f : Form α) (arg : String) : Except Refusal (Token α) :=
  match f.find? arg, cutAttached arg with
  | some s, _ => .ok (.known arg s arg none)
  | none, (name, attached) =>
    match if attached.isSome then f.find? name else none with
    | some s => .ok (.known arg s name attached)
    | none =>
      match f.candidates arg with
      | [(s, name, attached)] => .ok (.known arg s name attached)
      | [] =>
        if isNumeric (arg.toList.drop 1) || arg.toList.contains ' ' then .ok (.plain arg)
        else .ok (.foreign arg)
      | several => .error (.ambiguous arg (several.map fun (_, name, _) => name))

/-- What an argument other than the mark is. -/
def token (f : Form α) (arg : String) : Except Refusal (Token α) :=
  match arg.toList with
  | '-' :: _ :: _ => f.dashed arg
  | _ => .ok (.plain arg)

/-- What the arguments are, or why one of them cannot be told. -/
def tokens (f : Form α) : List String → Except Refusal (List (Token α))
  | [] => .ok []
  | arg :: rest =>
    if arg = endMark then .ok (.mark :: rest.map .plain)
    else do
      let t ← f.token arg
      return t :: (← f.tokens rest)

end Form

end Footage.CommandLine
