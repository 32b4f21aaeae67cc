import Footage.CommandLine.Options
import Footage.Proofs.CommandLine.Words
import Mathlib.Data.List.Induction

/-!
# What a command line says

A command line in its plainest shape: settings of the connection as `--name=text`, in any order and
as often as one likes, a command, and then settings of the job in the same way
(`CommandLine.spoken`).  Of a setting that is said more than once the last time counts (`latest`).

`CommandLine.parse_spoken` says what is made of such a command line: each text is taken as it is,
with whatever characters it has, the mark alone excepted.
-/

namespace Footage.CommandLine

open Number (Numeral.read? Quantity)

section

variable {κ : Type} [DecidableEq κ]

/-- The text that was said last under a key. -/
def latest (key : κ) (said : List (κ × String)) : Option String :=
  ((said.filter (·.1 = key)).getLast?).map (·.2)

theorem latest_append_singleton (key : κ) (said : List (κ × String)) (entry : κ × String) :
    latest key (said ++ [entry]) = if entry.1 = key then some entry.2 else latest key said := by
  by_cases h : entry.1 = key
  · simp [latest, h]
  · simp [latest, h]

theorem mem_of_latest_eq_some {key : κ} {said : List (κ × String)} {text : String}
    (h : latest key said = some text) : (key, text) ∈ said := by
  obtain ⟨entry, he, rfl⟩ := Option.map_eq_some_iff.1 h
  obtain ⟨mem, same⟩ := List.mem_filter.1 (List.mem_of_getLast? he)
  rw [← of_decide_eq_true same]
  exact mem

end

/-! ### The connection -/

/-- A setting of the connection that takes a text. -/
inductive General where
  | address | name | remote | timeout
deriving DecidableEq

namespace General

/-- The name of the switch for the setting. -/
def word : General → String
  | address => "--address"
  | name => "--name"
  | remote => "--remote"
  | timeout => "--timeout"

/-- The connection with a text under the setting. -/
def put (text : String) (c : Connection) : General → Connection
  | address => { c with address := some (.value text) }
  | name => { c with name := .value text }
  | remote => { c with remote := .value text }
  | timeout => { c with timeout := (Numeral.read? text).map .value }

/-- The form can make something of the text: it is not the mark, and a number where one is
needed. -/
def Takes (text : String) (g : General) : Prop :=
  text ≠ endMark ∧ (g = timeout → (Numeral.read? text).isSome)

instance (text : String) (g : General) : Decidable (Takes text g) :=
  inferInstanceAs (Decidable (_ ∧ _))

end General

/-- The connection that is said. -/
def Connection.told (said : List (General × String)) : Connection where
  address := (latest .address said).map .value
  name := .value ((latest .name said).getD "vs-1")
  remote := .value ((latest .remote said).getD "")
  timeout := ((latest .timeout said).bind Numeral.read?).map .value

/-- Saying the settings one after the other leaves what was said last of each. -/
theorem Connection.foldl_put (said : List (General × String)) :
    said.foldl (fun c entry => entry.1.put entry.2 c) {} = Connection.told said := by
  induction said using List.reverseRecOn with
  | nil => rfl
  | append_singleton said entry ih =>
    obtain ⟨g, text⟩ := entry
    rw [List.foldl_append, ih]
    cases g <;> simp [General.put, told, latest_append_singleton]

/-! ### The job -/

/-- A setting of a job that takes a text. -/
inductive Detail where
  | start | stop | last | container | output | metadata
deriving DecidableEq

namespace Detail

/-- The name of the switch for the setting. -/
def word : Detail → String
  | start => "--from"
  | stop => "--to"
  | last => "--last"
  | container => "--container"
  | output => "--output"
  | metadata => "--metadata"

/-- All names of the switch for the setting. -/
def names : Detail → List String
  | output => ["-o", "--output"]
  | d => [d.word]

/-- The job with a text under the setting. -/
def put (text : String) (j : Job) : Detail → Job
  | start => { j with start := some (.value text) }
  | stop => { j with stop := some (.value text) }
  | last => { j with last := (Numeral.read? text).map fun x => .value (.real x) }
  | container => { j with container := .value text }
  | output => { j with task := j.task.setOutput (.value text) }
  | metadata => { j with task := j.task.setMetadata (.value text) }

end Detail

/-- A word behind the command. -/
inductive Word where
  | given (d : Detail) (text : String)
  /-- The flag for saving in the background. -/
  | background

namespace Word

/-- The argument. -/
def text : Word → String
  | given d text => attach d.word text
  | background => "--async"

/-- The names of the switch that the word is for, as messages give them. -/
def label : Word → String
  | given d _ => "/".intercalate d.names
  | background => "--async"

/-- The settings that words give, with their texts. -/
def said (words : List Word) : List (Detail × String) :=
  words.filterMap fun
    | given d text => some (d, text)
    | background => none

@[simp] theorem said_append_given (words : List Word) (d : Detail) (text : String) :
    said (words ++ [given d text]) = said words ++ [(d, text)] := by
  rw [said, List.filterMap_append]
  rfl

@[simp] theorem said_append_background (words : List Word) :
    said (words ++ [background]) = said words := by
  rw [said, List.filterMap_append]
  exact List.append_nil _

theorem mem_said {words : List Word} {d : Detail} {text : String}
    (h : (d, text) ∈ said words) : given d text ∈ words := by
  obtain ⟨word, hw, he⟩ := List.mem_filterMap.1 h
  cases word with
  | background => cases he
  | given d' text' =>
    cases he
    exact hw

/-- Whether saving in the background is asked for. -/
def inBackground (words : List Word) : Bool :=
  words.any fun
    | background => true
    | given .. => false

@[simp] theorem inBackground_append_given (words : List Word) (d : Detail) (text : String) :
    inBackground (words ++ [given d text]) = inBackground words := by
  rw [inBackground, List.any_append]
  exact Bool.or_false _

@[simp] theorem inBackground_append_background (words : List Word) :
    inBackground (words ++ [background]) = true := by
  rw [inBackground, List.any_append]
  exact Bool.or_true _

/-- What the word makes of a job. -/
def put (j : Job) : Word → Job
  | given d text => d.put text j
  | background => { j with task := j.task.inBackground }

end Word

/-- A command. -/
inductive Verb where
  | fetch | save | stream
deriving DecidableEq

namespace Verb

/-- The task of the command before its words are read. -/
def bare : Verb → Task
  | fetch => .fetch .blank
  | save => .save (.value "") false
  | stream => .stream .blank

/-- The command itself. -/
def word (v : Verb) : String := v.bare.name

/-- The settings that the command has. -/
def details : Verb → List Detail
  | save => [.start, .stop, .last, .container, .metadata]
  | _ => [.start, .stop, .last, .container, .output]

/-- The command can make something of the word: it has the setting, and its text is not the mark,
and a number where one is needed. -/
def Takes (v : Verb) : Word → Prop
  | .given d text => d ∈ v.details ∧ text ≠ endMark ∧ (d = .last → (Numeral.read? text).isSome)
  | .background => v = save

instance (v : Verb) : (word : Word) → Decidable (v.Takes word)
  | .given _ _ => inferInstanceAs (Decidable (_ ∧ _))
  | .background => inferInstanceAs (Decidable (_ = _))

/-- The command with its switches. -/
def command (v : Verb) : Command Job :=
  match v with
  | fetch => Job.command v.bare "Fetch a range in one response." [Job.outputSwitch]
  | save => Job.command v.bare "Save a range to a file on the server." Job.saveSwitches
  | stream => Job.command v.bare "Stream a range in chunks." [Job.outputSwitch]

/-- The task that is said. -/
def told (v : Verb) (words : List Word) : Task :=
  let output := ((latest .output (Word.said words)).map Setting.value).getD .blank
  match v with
  | fetch => .fetch output
  | save =>
    .save (.value ((latest .metadata (Word.said words)).getD "")) (Word.inBackground words)
  | stream => .stream output

end Verb

/-- The job that is said. -/
def Job.told (v : Verb) (words : List Word) : Job :=
  let said := Word.said words
  { start := (latest .start said).map .value
    stop := (latest .stop said).map .value
    last := ((latest .last said).bind Numeral.read?).map fun x => .value (.real x)
    container := .value ((latest .container said).getD "mp4")
    task := v.told words }

/-- Saying the words one after the other leaves what was said last of each setting. -/
theorem Job.foldl_put (v : Verb) (words : List Word) :
    words.foldl Word.put { task := v.bare } = Job.told v words := by
  induction words using List.reverseRecOn with
  | nil => cases v <;> rfl
  | append_singleton words word ih =>
    rw [List.foldl_append, ih]
    cases word with
    | background =>
      cases v <;> simp [Word.put, told, Verb.told, Task.inBackground]
    | given d text =>
      cases d <;> cases v <;>
        simp [Word.put, Detail.put, told, Verb.told, latest_append_singleton, Task.setOutput,
          Task.setMetadata]

/-! ### The whole command line -/

/-- The command line: settings of the connection, the command, and the words behind it. -/
def spoken (said : List (General × String)) (v : Verb) (words : List Word) : List String :=
  said.map (fun entry => attach entry.1.word entry.2) ++ v.word :: words.map Word.text

theorem plainNames_form : (grammar).form.PlainNames := by
  unfold Form.PlainNames
  decide

theorem plainNames_command (v : Verb) : ((grammar).formOf v.command).PlainNames := by
  unfold Form.PlainNames
  cases v <;> decide

/-- A name that values can be attached to: it begins with a minus, and has no equals sign. -/
abbrev Attachable (name : String) : Prop := Form.Dashed name ∧ '=' ∉ name.toList

theorem General.attachable (g : General) : Attachable g.word := by
  cases g <;> decide

theorem Detail.attachable (d : Detail) : Attachable d.word := by
  cases d <;> decide

theorem General.understands {g : General} {text : String} (h : g.Takes text) :
    (grammar).form.Understands (attach g.word text) ("/".intercalate [g.word])
      (fun c => g.put text c) := by
  obtain ⟨dashed, free⟩ := g.attachable
  cases g with
  | address => exact Form.understands_attached plainNames_form dashed free rfl h.1 rfl
  | name => exact Form.understands_attached plainNames_form dashed free rfl h.1 rfl
  | remote => exact Form.understands_attached plainNames_form dashed free rfl h.1 rfl
  | timeout =>
    obtain ⟨x, hx⟩ := Option.isSome_iff_exists.1 (h.2 rfl)
    simp only [put, hx, Option.map_some]
    exact Form.understands_attached plainNames_form dashed free rfl h.1
      (by rw [Connection.readSeconds, hx])

/-- The words behind a command mean nothing to the form before it. -/
theorem Word.passes (word : Word) : (grammar).form.Passes word.text := by
  cases word with
  | background => exact ⟨by decide, _, rfl, rfl⟩
  | given d text =>
    obtain ⟨dashed, free⟩ := d.attachable
    cases d <;> exact Form.passes_attach plainNames_form dashed free rfl rfl rfl text

/-- A command has each of its settings as a switch. -/
theorem Verb.exists_find?_text {v : Verb} {d : Detail} (h : d ∈ v.details) (ne : d ≠ .last) :
    ∃ metavar help put required,
      ((grammar).formOf v.command).find? d.word =
        some (.text d.names metavar help put required) ∧
      ∀ text, put (.value text) = fun j => d.put text j := by
  cases v <;> cases d <;> first
    | exact ⟨_, _, _, _, rfl, fun _ => rfl⟩
    | exact absurd rfl ne
    | exact absurd h (by decide)

/-- Every command has the length of the range as a switch. -/
theorem Verb.exists_find?_last (v : Verb) :
    ∃ help, ((grammar).formOf v.command).find? Detail.last.word =
      some (.setting Detail.last.names "SECONDS" help
        (fun text => (Connection.readSeconds text).map Quantity.real)
        fun last j => { j with last := some last }) := by
  cases v <;> exact ⟨_, rfl⟩

/-- A command understands the words that it takes. -/
theorem Verb.understands {v : Verb} {word : Word} (h : v.Takes word) :
    ((grammar).formOf v.command).Understands word.text word.label (fun j => word.put j) := by
  cases word with
  | background =>
    obtain rfl : v = save := h
    have dashed : Form.Dashed "--async" := by decide
    have ne : "--async" ≠ endMark := by decide
    exact Form.understands_mark dashed ne (f := (grammar).formOf save.command) rfl
  | given d text =>
    obtain ⟨own, ne, readable⟩ := h
    obtain ⟨dashed, free⟩ := d.attachable
    by_cases hd : d = .last
    · subst hd
      obtain ⟨x, hx⟩ := Option.isSome_iff_exists.1 (readable rfl)
      obtain ⟨help, found⟩ := exists_find?_last v
      simp only [Word.put, Detail.put, hx, Option.map_some]
      exact Form.understands_attached (plainNames_command v) dashed free found ne
        (by rw [Connection.readSeconds, hx]; rfl)
    · obtain ⟨metavar, help, put, required, found, same⟩ := exists_find?_text own hd
      have understood := Form.understands_attached (plainNames_command v) dashed free found ne
        (b := text) rfl
      rw [same] at understood
      exact understood

/-- The commands are found by their names. -/
theorem Verb.find?_command (v : Verb) :
    Job.commands.find? (·.name == v.word) = some v.command := by
  cases v <;> rfl

/-- A command has what it must have, if there is an output where one is needed. -/
theorem Verb.missing_eq_nil {v : Verb} {words : List Word} {p : Progress Job}
    (output : v = save ∨ ∃ text, .given .output text ∈ words)
    (seen : p.seen = words.map Word.label) : ((grammar).formOf v.command).missing p = [] := by
  have only : ∀ s ∈ ((grammar).formOf v.command).switches, s.required = true →
      v ≠ save ∧ s.label = "/".intercalate Detail.output.names := by
    cases v <;> decide
  refine Form.missing_eq_nil fun s hs hr => ?_
  obtain ⟨other, label⟩ := only s hs hr
  obtain ⟨text, given⟩ := output.resolve_left other
  rw [seen, label]
  exact List.mem_map.2 ⟨_, given, rfl⟩

/-- A command reads the words that it takes. -/
theorem Verb.readCommand_eq {v : Verb} {words : List Word} (own : ∀ word ∈ words, v.Takes word)
    (output : v = save ∨ ∃ text, .given .output text ∈ words) :
    (grammar).readCommand v.command (words.map Word.text) =
      .ok { settings := Job.told v words, seen := words.map Word.label } := by
  have begun : v.command.start = { task := v.bare } := by cases v <;> rfl
  have back := Form.read_understood (fun word hw => Verb.understands (own word hw))
    ({ task := v.bare } : Job)
  have complete : ((grammar).formOf v.command).missing
      { settings := Job.told v words, seen := words.map Word.label } = [] :=
    Verb.missing_eq_nil output rfl
  rw [Job.foldl_put] at back
  simp only [Grammar.readCommand, begun, back, bind, Except.bind, complete]
  rfl

/-- **What a command line says is taken as it is.**  Whatever order the settings are in, and
whatever characters their texts have, reading gives what was said last of each. -/
theorem parse_spoken {said : List (General × String)} {v : Verb} {words : List Word}
    (general : ∀ entry ∈ said, entry.1.Takes entry.2) (own : ∀ word ∈ words, v.Takes word)
    (output : v = .save ∨ ∃ text, .given .output text ∈ words) :
    (grammar).parse (spoken said v words) = .ok (Connection.told said, Job.told v words) := by
  have plain : (grammar).form.token v.word = .ok (.plain v.word) := by cases v <;> rfl
  have passes : ∀ arg ∈ words.map Word.text, (grammar).form.Passes arg := by
    intro arg ha
    obtain ⟨word, -, rfl⟩ := List.mem_map.1 ha
    exact word.passes
  have front := Form.read_command (fun entry he => General.understands (general entry he))
    (grammar).start nofun plain (by cases v <;> decide) passes
  have command := Verb.readCommand_eq own output
  have found : (grammar).commands.find? (·.name == v.word) = some v.command := v.find?_command
  simp only [Grammar.parse, spoken, front, bind, Except.bind, found, command]
  rw [show (grammar).start = {} from rfl, Connection.foldl_put]
  rfl

end Footage.CommandLine
