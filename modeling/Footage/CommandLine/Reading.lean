import Footage.CommandLine.Token
import Footage.CommandLine.Usage
import Footage.Text.Blank
/-!
# Reading a command line

A form takes its arguments from left to right.  Each switch changes the settings, and the first
plain argument is the command where the form has commands; there the form ends and that of the
command begins.  What no form asked for is kept until the end and refused then
(`Grammar.parse`).

Reading may also end early, with a text to be shown or with a complaint: a `Halt`.
-/

namespace Footage.CommandLine

variable {α γ : Type}

/-- An early end of reading. -/
inductive Halt where
  /-- The command line only asked for this text. -/
  | answer (text : String)
  /-- The command line is wrong, and why. -/
  | complaint (text : String)
deriving DecidableEq, Repr

/-- What a form has made of the arguments so far. -/
structure Progress (α : Type) where
  settings : α
  /-- The labels of the switches that were given. -/
  seen : List String := []
  /-- The arguments that the form has no use for. -/
  extras : List String := []

/-- Some switches in one argument: all but the last one take no value. -/
structure Cluster (α : Type) where
  marks : List (Switch α)
  last : Switch α
  attached : Option String

namespace Form

/-- The early end that a refusal makes. -/
def refuse (f : Form α) (r : Refusal) : Halt := .complaint (f.complaint r.message)

/-- The switches in an argument that has characters attached to a name.  They are the value, if
the switch takes one; else, after a one-letter name, they are more such names. -/
def cluster (f : Form α) (s : Switch α) (name : String) :
    List Char → Except Refusal (Cluster α)
  | [] =>
    if s.metavar?.isSome then .ok ⟨[], s, some ""⟩
    else .error (.argument s.label (.valueUnwanted ""))
  | c :: rest =>
    if s.metavar?.isSome then .ok ⟨[], s, some (String.ofList (c :: rest))⟩
    else
      let short := String.ofList ['-', c]
      match if endMark.toList.isPrefixOf name.toList then none else f.find? short with
      | none => .error (.argument s.label (.valueUnwanted (String.ofList (c :: rest))))
      | some next =>
        if rest.isEmpty then .ok ⟨[s], next, none⟩
        else (f.cluster next short rest).map fun k => { k with marks := s :: k.marks }

/-- The switches in an argument. -/
def clusterOf (f : Form α) (s : Switch α) (name : String) :
    Option String → Except Refusal (Cluster α)
  | none => .ok ⟨[], s, none⟩
  | some attached => f.cluster s name attached.toList

/-- Lets a switch do its work, with a value if it takes one. -/
def apply (f : Form α) (p : Progress α) (s : Switch α) (given : String) :
    Except Halt (Progress α) :=
  let p := { p with seen := p.seen ++ [s.label] }
  match s.effect with
  | .help => .error (.answer f.help)
  | .announce text => .error (.answer text)
  | .mark set => .ok { p with settings := set p.settings }
  | .take _ set =>
    match set (if given = endMark then none else some given) p.settings with
    | .ok a => .ok { p with settings := a }
    | .error objection => .error (f.refuse (.argument s.label objection))

/-- Lets the switches of a cluster do their work, the last one with a value. -/
def applyAll (f : Form α) (p : Progress α) (k : Cluster α) (given : String) :
    Except Halt (Progress α) := do
  f.apply (← k.marks.foldlM (fun p s => f.apply p s "") p) k.last given

/-- The command that a plain argument begins: its name and its arguments. -/
def command? (f : Form α) (t : Token α) (rest : List (Token α)) :
    Option (String × List String) :=
  match f.commands, t, rest with
  | [], _, _ => none
  | _, .mark, [] => none
  | _, t, rest => some (t.text, rest.map Token.text)

/-- Takes tokens from left to right, up to the command if there is one. -/
def walk (f : Form α) (p : Progress α) :
    List (Token α) → Except Halt (Progress α × Option (String × List String))
  | [] => .ok (p, none)
  | .known _ s name attached :: rest =>
    match f.clusterOf s name attached with
    | .error r => .error (f.refuse r)
    | .ok k =>
      match k.last.metavar?, k.attached, rest with
      | some _, none, .plain value :: rest => do f.walk (← f.applyAll p k value) rest
      | some _, none, _ => .error (f.refuse (.argument k.last.label .valueMissing))
      | _, attached, rest => do f.walk (← f.applyAll p k (attached.getD "")) rest
  | .foreign text :: rest => f.walk { p with extras := p.extras ++ [text] } rest
  | t :: rest =>
    match f.command? t rest with
    | some command => .ok (p, some command)
    | none => f.walk { p with extras := p.extras ++ [t.text] } rest

/-- Takes arguments. -/
def read (f : Form α) (start : α) (args : List String) :
    Except Halt (Progress α × Option (String × List String)) :=
  match f.tokens args with
  | .error r => .error (f.refuse r)
  | .ok tokens => f.walk { settings := start } tokens

/-- The labels of the switches that must be given and were not. -/
def missing (f : Form α) (p : Progress α) : List String :=
  (f.switches.filter fun s => s.required && !p.seen.contains s.label).map Switch.label

/-- Ends early if there are extra arguments. -/
def refuseExtras (f : Form α) (extras : List String) : Except Halt Unit :=
  if extras.isEmpty then .ok () else .error (f.refuse (.unrecognized extras))

/-- Reads a command line without commands. -/
def parse (f : Form α) (start : α) (args : List String) : Except Halt α := do
  let (p, _) ← f.read start args
  f.refuseExtras p.extras
  return p.settings

end Form

/-- A command with its form. -/
structure Command (α : Type) where
  name : String
  help : String
  /-- The settings before the switches of the command are read. -/
  start : α
  switches : List (Switch α)

/-- The switches of a program and its commands. -/
structure Grammar (γ α : Type) where
  program : String
  description : String
  start : γ
  switches : List (Switch γ)
  commands : List (Command α)

namespace Grammar

/-- The form with which a command line begins. -/
def form (g : Grammar γ α) : Form γ where
  program := g.program
  description := g.description
  switches := g.switches
  commands := g.commands.map fun c => (c.name, c.help)

/-- The form with which a command line goes on after a command. -/
def formOf (g : Grammar γ α) (c : Command α) : Form α where
  program :=
    String.ofList (Text.trim Text.isSpace (Text.closeUp g.program).toList) ++ " " ++ c.name
  switches := c.switches

/-- Reads the arguments of a command. -/
def readCommand (g : Grammar γ α) (c : Command α) (args : List String) :
    Except Halt (Progress α) := do
  let f := g.formOf c
  let (p, _) ← f.read c.start args
  match f.missing p with
  | [] => return p
  | labels => throw (f.refuse (.missing labels))

/-- Reads a command line: the settings of the program and those of its command. -/
def parse (g : Grammar γ α) (args : List String) : Except Halt (γ × α) := do
  match ← g.form.read g.start args with
  | (_, none) => throw (g.form.refuse (.missing ["command"]))
  | (p, some (name, rest)) =>
    match g.commands.find? (·.name == name) with
    | none =>
      throw (g.form.refuse (.argument "command" (.notAmong name (g.commands.map (·.name)))))
    | some c =>
      let q ← g.readCommand c rest
      g.form.refuseExtras (p.extras ++ q.extras)
      return (p.settings, q.settings)

end Grammar

end Footage.CommandLine
