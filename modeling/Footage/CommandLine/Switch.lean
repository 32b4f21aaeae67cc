import Footage.Text.Quoted
/-!
# Switches and forms

A switch is what can be set on a command line by one of its names, such as `-o` and `--output`;
some switches take a value.  A form is a list of switches that act on the same settings, perhaps
with commands that may follow them, each of which has a form of its own.

An argument that a form does not accept meets an `Objection`, and the whole command line a
`Refusal`.
-/

namespace Footage.CommandLine

/-- What is wrong with the value of a switch or with the name of a command. -/
inductive Objection where
  | notANumber (text : String)
  | notAmong (text : String) (choices : List String)
  /-- A switch that takes a value has none. -/
  | valueMissing
  /-- A switch that takes no value has one attached. -/
  | valueUnwanted (text : String)
deriving DecidableEq, Repr

/-- The objection in words. -/
def Objection.message : Objection → String
  | notANumber text => "invalid float value: " ++ Text.quote text
  | notAmong text choices =>
    "invalid choice: " ++ Text.quote text ++ " (choose from " ++
      ", ".intercalate (choices.map Text.quote) ++ ")"
  | valueMissing => "expected one argument"
  | valueUnwanted text => "ignored explicit argument " ++ Text.quote text

/-- Why a command line is refused. -/
inductive Refusal where
  | argument (label : String) (objection : Objection)
  /-- A name that is short for more than one switch. -/
  | ambiguous (text : String) (candidates : List String)
  /-- Switches or commands that must be given and are not. -/
  | missing (labels : List String)
  /-- Arguments that no one asked for. -/
  | unrecognized (texts : List String)
deriving DecidableEq, Repr

/-- The refusal in words. -/
def Refusal.message : Refusal → String
  | argument label objection => "argument " ++ label ++ ": " ++ objection.message
  | ambiguous text candidates =>
    "ambiguous option: " ++ text ++ " could match " ++ ", ".intercalate candidates
  | missing labels => "the following arguments are required: " ++ ", ".intercalate labels
  | unrecognized texts => "unrecognized arguments: " ++ " ".intercalate texts

/-- What a switch was set to. -/
inductive Setting (β : Type) where
  /-- The value was the mark that ends the switches, and counts as no value. -/
  | blank
  | value (b : β)
deriving DecidableEq, Repr

/-- What a switch does to the settings. -/
inductive Effect (α : Type) where
  /-- Shows the help of the form and ends. -/
  | help
  /-- Shows a text and ends. -/
  | announce (text : String)
  | mark (set : α → α)
  /-- Takes a value, or nothing where that was blank. -/
  | take (metavar : String) (set : Option String → α → Except Objection α)

/-- What can be set on a command line. -/
structure Switch (α : Type) where
  names : List String
  effect : Effect α
  /-- What the help says about the switch. -/
  help : String
  required : Bool := false

namespace Switch

variable {α β : Type}

/-- The word that stands for the value, if the switch takes one. -/
def metavar? (s : Switch α) : Option String :=
  match s.effect with
  | .take metavar _ => some metavar
  | _ => none

/-- All names of the switch, as messages give them. -/
def label (s : Switch α) : String := "/".intercalate s.names

/-- A switch for one setting. -/
def setting (names : List String) (metavar help : String) (read : String → Except Objection β)
    (put : Setting β → α → α) (required : Bool := false) : Switch α where
  names
  help
  required
  effect := .take metavar fun given a =>
    match given with
    | none => .ok (put .blank a)
    | some text => (read text).map fun b => put (.value b) a

/-- A switch for a setting that is a text. -/
def text (names : List String) (metavar help : String) (put : Setting String → α → α)
    (required : Bool := false) : Switch α :=
  setting names metavar help .ok put required

/-- The switch that shows the help. -/
def showHelp : Switch α where
  names := ["-h", "--help"]
  effect := .help
  help := "show this help message and exit"

end Switch

/-- The switches and commands that may stand on a command line. -/
structure Form (α : Type) where
  /-- How the program is called when it is used with this form. -/
  program : String
  description : String := ""
  switches : List (Switch α)
  /-- The commands that may follow, each with what the help says about it. -/
  commands : List (String × String) := []

namespace Form

variable {α : Type}

/-- The switches by name. -/
def byName (f : Form α) : List (String × Switch α) :=
  f.switches.flatMap fun s => s.names.map fun name => (name, s)

/-- The switch with a name. -/
def find? (f : Form α) (name : String) : Option (Switch α) := f.byName.lookup name

end Form

end Footage.CommandLine
