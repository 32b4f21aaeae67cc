import Footage.Fault
import Footage.Text.Split
/-!
# The log and the console

What is logged goes to a logger, and loggers have dotted names: each stands below the one that is
called like it up to the last dot, and all stand below the root.  A logger may have a level of its
own, and handlers.  The nearest level on the way from a logger up to the root decides whether an
entry is let through (`Console.effective`), and an entry that is let through goes to every handler
on that way (`Console.reached`), each of which may have a level too.

Parts of this library log under names in one tree, whose root is `videostore`.  To configure the
console is to give this logger a level and one more handler of the same level (`Console.add`).
-/

namespace Footage.Log

/-! ### Levels and entries -/

/-- How much an entry matters: the higher the number, the more. -/
structure Level where
  number : Int
deriving DecidableEq, Repr

namespace Level

/-- No level: a logger without a level of its own has this one. -/
def notset : Level := ⟨0⟩

def debug : Level := ⟨10⟩

def info : Level := ⟨20⟩

def warning : Level := ⟨30⟩

def error : Level := ⟨40⟩

def critical : Level := ⟨50⟩

instance : LE Level := ⟨fun a b => a.number ≤ b.number⟩

instance (a b : Level) : Decidable (a ≤ b) := inferInstanceAs (Decidable (a.number ≤ b.number))

/-- The name of the level in the lines of the log. -/
def name (l : Level) : String :=
  match l.number with
  | 0 => "NOTSET"
  | 10 => "DEBUG"
  | 20 => "INFO"
  | 30 => "WARNING"
  | 40 => "ERROR"
  | 50 => "CRITICAL"
  | n => "Level " ++ toString n

/-- The level of a name; two levels have a second one. -/
def ofName? : String → Option Level
  | "NOTSET" => some notset
  | "DEBUG" => some debug
  | "INFO" => some info
  | "WARN" => some warning
  | "WARNING" => some warning
  | "ERROR" => some error
  | "FATAL" => some critical
  | "CRITICAL" => some critical
  | _ => none

/-- The levels that have a name of their own. -/
def named : List Level := [notset, debug, info, warning, error, critical]

theorem ofName?_name : ∀ l ∈ named, ofName? l.name = some l := by decide

end Level

/-- An entry of the log. -/
structure Entry where
  logger : String
  level : Level
  message : String
  /-- The kind of the fault that the entry is about, when it carries one. -/
  about : Option Fault.Kind := none
deriving DecidableEq, Repr

/-- The entry as a line: the time, the logger, the level and the message. -/
def Entry.line (time : String) (e : Entry) : String :=
  time ++ " - " ++ e.logger ++ " - " ++ e.level.name ++ " - " ++ e.message ++ "\n"

/-! ### Loggers -/

/-- The name at the root of the tree in which this library logs. -/
def root : String := "videostore"

/-- The root of the tree in which the transport logs, with a silent handler of its own. -/
def transportRoot : String := "grpc"

/-- Where a logger stands: the parts of its name between the dots.  The root of all loggers has
no part. -/
abbrev Path := List (List Char)

namespace Path

/-- The place of a name, if no part of the name is empty. -/
def ofName (name : String) : Path :=
  if name = "" ∨ name = "root" then [] else Text.splitAll '.' name.toList

/-- The way from a place up to the root, with both of them. -/
def upward : Path → List Path
  | [] => [[]]
  | part :: rest => (upward rest).map (part :: ·) ++ [[]]

end Path

/-- What takes the entries that reach a logger. -/
inductive Handler where
  /-- Writes nothing. -/
  | silent
  /-- Writes a line for every entry from a level on. -/
  | writer (level : Level)
deriving DecidableEq, Repr

namespace Handler

/-- What the handler writes for an entry. -/
def lines (time : String) (e : Entry) : Handler → List String
  | silent => []
  | writer level => if level ≤ e.level then [e.line time] else []

/-- The level of a handler that writes. -/
def level? : Handler → Option Level
  | silent => none
  | writer level => some level

end Handler

/-- The settings of a logger. -/
structure Logger where
  /-- The level of its own; `notset` leaves it to the logger above. -/
  level : Level := .notset
  handlers : List Handler := []
deriving DecidableEq, Repr

/-! ### The console -/

/-- What has been set up to show the log: the settings of loggers, of which the first ones count.
At the start the tree and that of the transport have a silent handler each, and the root of all
loggers lets through what is a warning or more. -/
structure Console where
  loggers : List (Path × Logger) := [
    ([], { level := .warning }),
    (.ofName root, { handlers := [.silent] }),
    (.ofName transportRoot, { handlers := [.silent] })]
deriving DecidableEq, Repr

namespace Console

/-- The settings of the logger at a place. -/
def logger (c : Console) (p : Path) : Logger := (c.loggers.lookup p).getD {}

/-- The console with other settings for the logger at a place. -/
def set (c : Console) (p : Path) (settings : Logger) : Console where
  loggers := (p, settings) :: c.loggers

@[simp] theorem logger_set (c : Console) (p q : Path) (settings : Logger) :
    (c.set p settings).logger q = if q = p then settings else c.logger q := by
  by_cases h : q = p
  · simp [set, logger, h]
  · have other : (q == p) = false := by simpa using h
    simp [set, logger, List.lookup_cons, other, h]

/-- The console with one more handler of a level on the tree, which gets this level. -/
def add (c : Console) (level : Level) : Console :=
  c.set (.ofName root) {
    level
    handlers := (c.logger (.ofName root)).handlers ++ [.writer level] }

/-- The console with one more handler of the named level. -/
def configure (c : Console) (name : String) : Except Fault Console :=
  match Level.ofName? name with
  | some level => .ok (c.add level)
  | none => .error (.unknownLevel name)

/-- The level of the tree. -/
def level (c : Console) : Level := (c.logger (.ofName root)).level

/-- The levels of the handlers on the tree that write, in the order in which they were added. -/
def handlers (c : Console) : List Level :=
  (c.logger (.ofName root)).handlers.filterMap Handler.level?

/-- The number of handlers on the tree. -/
def count (c : Console) : Nat := (c.logger (.ofName root)).handlers.length

/-- The settings of the loggers from a place up to the root. -/
def upward (c : Console) (p : Path) : List Logger := p.upward.map c.logger

/-- The level from which on a logger lets entries through: the nearest one on the way up. -/
def effective (c : Console) (p : Path) : Level :=
  (((c.upward p).map Logger.level).find? (· ≠ .notset)).getD .notset

/-- The handlers that an entry reaches. -/
def reached (c : Console) (p : Path) : List Handler := (c.upward p).flatMap Logger.handlers

/-- What is written when an entry is logged at the given time.  Where there is no handler at all,
entries that matter are written bare. -/
def lines (c : Console) (time : String) (e : Entry) : List String :=
  let p := Path.ofName e.logger
  if c.effective p ≤ e.level then
    match c.reached p with
    | [] => if .warning ≤ e.level then [e.message ++ "\n"] else []
    | handlers => handlers.flatMap (·.lines time e)
  else []

end Console

end Footage.Log
