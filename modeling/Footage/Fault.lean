import Footage.Value
/-!
# Faults

Everything that can end a run early.  Each fault is a cause; `Fault.message` puts it into words,
`Fault.kind` tells what kind of fault it is, and `Fault.shown` is how a log entry quotes it.

A fault is *ordinary* (`Fault.isOrdinary`) unless it demands that the task stops: clean-up code
reacts to ordinary faults only, and lets the others pass.
-/

namespace Footage

open Number (Binary64 Quantity)

/-- A kind of fault: how it is called, and how it is treated. -/
structure Fault.Kind where
  /-- The name of the kind. -/
  name : String
  /-- Where the kind belongs, for messages that give its full name. -/
  scope : String := ""
  /-- Whether the fault may be handled and the task go on. -/
  ordinary : Bool := true
  /-- Whether the kind is one of this library's own. -/
  own : Bool := false
  /-- Whether the fault's message is its text in quotes. -/
  quoted : Bool := false
  /-- Whether the fault is how an iteration says that it is at its end. -/
  exhaustion : Bool := false
  /-- The end of an iteration may always be handled. -/
  ordinary_of_exhaustion : exhaustion = true → ordinary = true := by decide
deriving DecidableEq, Repr

namespace Fault.Kind

/-- The name with the scope that it belongs to. -/
def fullName (k : Kind) : String := if k.scope = "" then k.name else k.scope ++ "." ++ k.name

/-! ### The kinds that occur -/

def package : Kind where name := "VideoStoreError"; scope := "videostore.exceptions"; own := true
def api : Kind where name := "APIError"; scope := "videostore.exceptions"; own := true
def configuration : Kind where
  name := "ConfigurationError"; scope := "videostore.exceptions"; own := true
def value : Kind where name := "ValueError"
def overflow : Kind where name := "OverflowError"
def type : Kind where name := "TypeError"
def member : Kind where name := "AttributeError"
def runtime : Kind where name := "RuntimeError"
def system : Kind where name := "OSError"
def key : Kind where name := "KeyError"; quoted := true
def exhausted : Kind where name := "StopIteration"; exhaustion := true
def noEntry : Kind where name := "FileNotFoundError"
def isDirectory : Kind where name := "IsADirectoryError"
def notDirectory : Kind where name := "NotADirectoryError"
def taken : Kind where name := "FileExistsError"
def frozen : Kind where name := "FrozenInstanceError"
def undecodable : Kind where name := "DecodeError"; scope := "google.protobuf.message"
def rpc : Kind where name := "AioRpcError"; scope := "grpc.aio._call"
def aborted : Kind where name := "AbortError"; scope := "grpc.aio"
def cancelled : Kind where
  name := "CancelledError"; scope := "asyncio.exceptions"; ordinary := false

end Fault.Kind

/-- The status with which a remote call ends. -/
inductive StatusCode where
  | ok | cancelled | unknown | invalidArgument | deadlineExceeded | notFound | alreadyExists
  | permissionDenied | resourceExhausted | failedPrecondition | aborted | outOfRange
  | unimplemented | internal | unavailable | dataLoss | unauthenticated
deriving DecidableEq, Repr

namespace StatusCode

/-- The name of the status in messages. -/
def name : StatusCode → String
  | ok => "OK"
  | cancelled => "CANCELLED"
  | unknown => "UNKNOWN"
  | invalidArgument => "INVALID_ARGUMENT"
  | deadlineExceeded => "DEADLINE_EXCEEDED"
  | notFound => "NOT_FOUND"
  | alreadyExists => "ALREADY_EXISTS"
  | permissionDenied => "PERMISSION_DENIED"
  | resourceExhausted => "RESOURCE_EXHAUSTED"
  | failedPrecondition => "FAILED_PRECONDITION"
  | aborted => "ABORTED"
  | outOfRange => "OUT_OF_RANGE"
  | unimplemented => "UNIMPLEMENTED"
  | internal => "INTERNAL"
  | unavailable => "UNAVAILABLE"
  | dataLoss => "DATA_LOSS"
  | unauthenticated => "UNAUTHENTICATED"

/-- All codes, in the order of their numbers. -/
def all : List StatusCode :=
  [ok, cancelled, unknown, invalidArgument, deadlineExceeded, notFound, alreadyExists,
    permissionDenied, resourceExhausted, failedPrecondition, aborted, outOfRange, unimplemented,
    internal, unavailable, dataLoss, unauthenticated]

/-- The code of a name. -/
def ofName? (s : String) : Option StatusCode := all.find? (·.name == s)

theorem ofName?_name (c : StatusCode) : ofName? c.name = some c := by cases c <;> decide

end StatusCode

/-- An interface used in a way that it does not allow. -/
inductive Misuse where
  /-- A text that should be an API triplet. -/
  | malformedApi (text : String)
  /-- A text that should be an API triplet and a name. -/
  | malformedName (text : String)
  | emptyName
  /-- Something given as a request hook that cannot be called. -/
  | hook (given : Value)
  | timeout (given : Quantity)
  /-- Something given as a chunk callback that cannot be called. -/
  | callback (given : Value)
  /-- An address that the server could not bind. -/
  | unbound (address : String)

namespace Misuse

/-- The misuse in words.  There are words for every quantity, also for one with too many digits to
be shown (`Number.Quantity.text`). -/
def message : Misuse → String
  | malformedApi text => "Expected <namespace>:<type>:<subtype>. Got " ++ Text.quote text ++ "."
  | malformedName text => "Expected <api>/<name>. Got " ++ Text.quote text ++ "."
  | emptyName => "Resource name must not be empty."
  | hook given => "request_logger must be callable. Got " ++ given.shown ++ "."
  | timeout given => "timeout must be positive. Got " ++ given.text ++ "."
  | callback given => "on_chunk must be callable. Got " ++ given.shown ++ "."
  | unbound address => "Could not bind " ++ address ++ "."

end Misuse

/-- Options of the command line that do not fit together. -/
inductive Misfit where
  | lastWithRange
  | rangeMissing
  | addressMissing
deriving DecidableEq, Repr

namespace Misfit

/-- The misfit in words. -/
def message : Misfit → String
  | lastWithRange => "--last cannot be combined with --from or --to."
  | rangeMissing => "Provide both --from and --to, or --last."
  | addressMissing => "Provide --address or set VIDEOSTORE_ADDRESS."

end Misfit

/-- Why no time range ends at a moment with a given duration. -/
inductive RangeFault where
  | negative (duration : Quantity)
  | notANumber
  | infinite
  /-- More days than a machine word holds. -/
  | tooManyDays
  /-- More days than a duration may have. -/
  | daysOutOfRange (days : Nat)
  /-- The range would start before the year 1. -/
  | startOutOfRange

namespace RangeFault

/-- What kind of fault it is. -/
def kind : RangeFault → Fault.Kind
  | negative _ | notANumber => .value
  | _ => .overflow

/-- The fault in words. -/
def message : RangeFault → String
  | negative duration => "Expected a non-negative duration. Got " ++ duration.text ++ "."
  | notANumber => "cannot convert float NaN to integer"
  | infinite => "cannot convert float infinity to integer"
  | tooManyDays => "Python int too large to convert to C int"
  | daysOutOfRange days =>
    "days=" ++ toString days ++ "; must have magnitude <= 999999999"
  | startOutOfRange => "date value out of range"

end RangeFault

/-- Why a text is not a timestamp. -/
inductive TimestampFault where
  | mismatch (text : String)
  /-- The text goes on after a timestamp. -/
  | leftover (rest : String)
  | yearZero
  | noSuchDay
  | leapSecond

namespace TimestampFault

/-- The fault in words. -/
def message : TimestampFault → String
  | mismatch text =>
    "time data " ++ Text.quote text ++ " does not match format '%Y-%m-%d_%H-%M-%S'"
  | leftover rest => "unconverted data remains: " ++ rest
  | yearZero => "year 0 is out of range"
  | noSuchDay => "day is out of range for month"
  | leapSecond => "second must be in 0..59"

end TimestampFault

/-- Why a free value and a tree of doubles do not convert into each other. -/
inductive ConversionFault where
  /-- The value holds a byte string. -/
  | unexpectedType
  /-- The value holds an integer beyond the range of the doubles. -/
  | integerTooLarge
  /-- The tree holds what is not a number. -/
  | notANumber
  /-- The tree holds an infinity. -/
  | infinite
deriving DecidableEq, Repr

namespace ConversionFault

/-- What kind of fault it is. -/
def kind : ConversionFault → Fault.Kind
  | integerTooLarge => .overflow
  | _ => .value

/-- The fault in words. -/
def message : ConversionFault → String
  | unexpectedType => "Unexpected type"
  | integerTooLarge => "int too large to convert to float"
  | notANumber =>
    "Fail to serialize NaN for Value.number_value, which would parse as string_value"
  | infinite =>
    "Fail to serialize Infinity for Value.number_value, which would parse as string_value"

end ConversionFault

/-- Why a file operation fails. -/
inductive FileTrouble where
  | noEntry | isDirectory | notDirectory | busy | nameTooLong | noSpace
deriving DecidableEq, Repr

namespace FileTrouble

/-- What kind of fault it is. -/
def kind : FileTrouble → Fault.Kind
  | noEntry => .noEntry
  | isDirectory => .isDirectory
  | notDirectory => .notDirectory
  | _ => .system

/-- The number and the words of the trouble. -/
def reason : FileTrouble → Nat × String
  | noEntry => (2, "No such file or directory")
  | busy => (16, "Device or resource busy")
  | notDirectory => (20, "Not a directory")
  | isDirectory => (21, "Is a directory")
  | noSpace => (28, "No space left on device")
  | nameTooLong => (36, "File name too long")

end FileTrouble

/-- What can end a run early. -/
inductive Fault where
  | misuse (cause : Misuse)
  | misfit (cause : Misfit)
  | range (cause : RangeFault)
  | timestamp (cause : TimestampFault)
  | conversion (cause : ConversionFault)
  /-- Two operands, of the sorts named, that the operator does not compare. -/
  | unordered (operator left right : String)
  /-- Something of the wrong sort was given where only one sort makes sense. -/
  | unsuitable (message : String)
  /-- Something was asked of a value whose sort does not offer it. -/
  | unoffered (sort member : String)
  /-- A name that stands for no level of the log. -/
  | unknownLevel (name : String)
  /-- An attempt to assign to a field of an immutable value. -/
  | frozen (field : String)
  /-- Bytes that are no message of the type named. -/
  | undecodable (messageType : String)
  /-- A file operation on a path, and on a second one where it takes two. -/
  | file (trouble : FileTrouble) (path : String) (target : Option String)
  /-- A path that holds the character zero. -/
  | nulInPath
  /-- All names that were drawn for a temporary file are taken. -/
  | noFreeName
  /-- A servicer ended the call with a status. -/
  | aborted (code : StatusCode) (details : String)
  /-- A remote call ended with a status other than success. -/
  | rpc (code : StatusCode) (details : String)
  /-- The task was cancelled. -/
  | cancelled
  /-- A fault that a hook, a callback, a channel or a store raised. -/
  | foreign (kind : Fault.Kind) (text : String)

namespace Fault

/-- What kind of fault it is. -/
def kind : Fault → Kind
  | misuse _ => .api
  | misfit _ => .configuration
  | range cause => cause.kind
  | timestamp _ => .value
  | conversion cause => cause.kind
  | unordered .. => .type
  | unsuitable _ => .type
  | unoffered .. => .member
  | unknownLevel _ => .value
  | frozen _ => .frozen
  | undecodable _ => .undecodable
  | file trouble .. => trouble.kind
  | nulInPath => .value
  | noFreeName => .taken
  | aborted .. => .aborted
  | rpc .. => .rpc
  | cancelled => .cancelled
  | foreign kind _ => kind

/-- The fault in words. -/
def message : Fault → String
  | misuse cause => cause.message
  | misfit cause => cause.message
  | range cause => cause.message
  | timestamp cause => cause.message
  | conversion cause => cause.message
  | unordered operator left right =>
    "'" ++ operator ++ "' not supported between instances of '" ++ left ++ "' and '" ++ right ++ "'"
  | unsuitable message => message
  | unoffered sort member => "'" ++ sort ++ "' object has no attribute '" ++ member ++ "'"
  | unknownLevel name => "Unknown level: " ++ Text.quote name
  | frozen field => "cannot assign to field " ++ Text.quote field
  | undecodable messageType => "Error parsing message with type '" ++ messageType ++ "'"
  | file trouble path target =>
    let (number, words) := trouble.reason
    "[Errno " ++ toString number ++ "] " ++ words ++ ": " ++ Text.quote path ++
      match target with
      | some target => " -> " ++ Text.quote target
      | none => ""
  | nulInPath => "embedded null byte"
  | noFreeName => "[Errno 17] No usable temporary file name found"
  | aborted _ details => details
  | rpc _ details => details
  | cancelled => ""
  | foreign kind text => if kind.quoted then Text.quote text else text

/-- Whether the fault may be handled and the task go on. -/
def isOrdinary (e : Fault) : Bool := e.kind.ordinary

/-- Whether the fault is of one of this library's own kinds. -/
def isOwn (e : Fault) : Bool := e.kind.own

/-- Whether the fault is how an iteration says that it is at its end. -/
def isExhaustion (e : Fault) : Bool := e.kind.exhaustion

/-- What takes the place of an exhaustion that leaves what is waited for. -/
def escaped : Fault := .foreign .runtime "coroutine raised StopIteration"

/-- The fault as it reaches the one who waits.  To wait is to go through an iteration up to its end,
so an exhaustion that left what is waited for would be taken for the end of it. -/
def awaited (e : Fault) : Fault := if e.isExhaustion then escaped else e

theorem awaited_of_not_isExhaustion {e : Fault} (h : e.isExhaustion = false) : e.awaited = e := by
  simp [awaited, h]

theorem awaited_eq_or (e : Fault) : e.awaited = e ∨ e.awaited = escaped := by
  unfold awaited
  split
  · exact .inr rfl
  · exact .inl rfl

/-- An exhaustion is ordinary, and so is what takes its place. -/
@[simp] theorem isOrdinary_awaited (e : Fault) : e.awaited.isOrdinary = e.isOrdinary := by
  unfold awaited
  split
  · next h => exact (e.kind.ordinary_of_exhaustion h).symm
  · rfl

theorem awaited_of_not_isOrdinary {e : Fault} (h : e.isOrdinary = false) : e.awaited = e := by
  refine awaited_of_not_isExhaustion (Bool.eq_false_iff.2 fun exhausted => ?_)
  exact Bool.false_ne_true (h.symm.trans (e.kind.ordinary_of_exhaustion exhausted))

/-- The text of the report that a remote call with this status gives. -/
def report (code : StatusCode) (details : String) : String :=
  "<AioRpcError of RPC that terminated with:\n\tstatus = StatusCode." ++ code.name ++
    "\n\tdetails = \"" ++ details ++ "\"\n\tdebug_error_string = \"dbg\"\n>"

/-- The fault as a log entry quotes it. -/
def shown : Fault → String
  | rpc code details => report code details
  | cancelled => Kind.cancelled.name ++ "()"
  | file trouble _ _ =>
    let (number, words) := trouble.reason
    trouble.kind.name ++ "(" ++ toString number ++ ", " ++ Text.quote words ++ ")"
  | noFreeName => Kind.taken.name ++ "(17, 'No usable temporary file name found')"
  | foreign kind text => kind.name ++ "(" ++ Text.quote text ++ ")"
  | e => e.kind.name ++ "(" ++ Text.quote e.message ++ ")"

/-- What a caller far away is told about a fault that no one handled. -/
def unexpected (e : Fault) : String :=
  "Unexpected <class '" ++ e.kind.fullName ++ "'>: " ++
    match e with
    | rpc code details => report code details
    | e => e.message

end Fault

end Footage
