import Footage.Fault
import Footage.Wire.Message
/-!
# The messages of the video store service

The eight messages that clients and services exchange, their fields, and the methods of the
service that carry them.
-/

namespace Footage.Wire

/-- The package of the messages. -/
def package : String := "viammodules.service.videostore.v1"

/-- Asks for the encoded video of a range. -/
structure FetchRequest where
  name : String := ""
  start : String := ""
  stop : String := ""
  container : String := ""
  requestId : String := ""
  unknown : Bytes := []
deriving DecidableEq, Repr

/-- The encoded video of a range. -/
structure FetchResponse where
  video : Bytes := []
  requestId : String := ""
  unknown : Bytes := []
deriving DecidableEq, Repr

/-- Asks to save a range to a file on the server. -/
structure SaveRequest where
  name : String := ""
  start : String := ""
  stop : String := ""
  container : String := ""
  metadata : String := ""
  background : Bool := false
  requestId : String := ""
  unknown : Bytes := []
deriving DecidableEq, Repr

/-- The name of a saved file. -/
structure SaveResponse where
  filename : String := ""
  requestId : String := ""
  unknown : Bytes := []
deriving DecidableEq, Repr

/-- Asks for the encoded video of a range in chunks. -/
structure FetchStreamRequest where
  name : String := ""
  start : String := ""
  stop : String := ""
  container : String := ""
  requestId : String := ""
  unknown : Bytes := []
deriving DecidableEq, Repr

/-- One chunk of a streamed range. -/
structure FetchStreamResponse where
  video : Bytes := []
  requestId : String := ""
  unknown : Bytes := []
deriving DecidableEq, Repr

/-- A command outside the operations on video. -/
structure DoCommandRequest where
  name : String := ""
  command : Option Struct := none
  unknown : Bytes := []

/-- The result of a command. -/
structure DoCommandResponse where
  result : Option Struct := none
  unknown : Bytes := []

instance : Message FetchRequest where
  typeName := "FetchRequest"
  slots := [
    ⟨1, "name", .text, (·.name), fun s m => { m with name := s }⟩,
    ⟨2, "from", .text, (·.start), fun s m => { m with start := s }⟩,
    ⟨3, "to", .text, (·.stop), fun s m => { m with stop := s }⟩,
    ⟨4, "container", .text, (·.container), fun s m => { m with container := s }⟩,
    ⟨5, "request_id", .text, (·.requestId), fun s m => { m with requestId := s }⟩]
  blank := {}
  unknown := (·.unknown)
  keep raw m := { m with unknown := m.unknown ++ raw }

instance : Message FetchResponse where
  typeName := "FetchResponse"
  slots := [
    ⟨1, "video_data", .bytes, (·.video), fun b m => { m with video := b }⟩,
    ⟨2, "request_id", .text, (·.requestId), fun s m => { m with requestId := s }⟩]
  blank := {}
  unknown := (·.unknown)
  keep raw m := { m with unknown := m.unknown ++ raw }

instance : Message SaveRequest where
  typeName := "SaveRequest"
  slots := [
    ⟨1, "name", .text, (·.name), fun s m => { m with name := s }⟩,
    ⟨2, "from", .text, (·.start), fun s m => { m with start := s }⟩,
    ⟨3, "to", .text, (·.stop), fun s m => { m with stop := s }⟩,
    ⟨4, "container", .text, (·.container), fun s m => { m with container := s }⟩,
    ⟨5, "metadata", .text, (·.metadata), fun s m => { m with metadata := s }⟩,
    ⟨6, "async", .flag, (·.background), fun b m => { m with background := b }⟩,
    ⟨7, "request_id", .text, (·.requestId), fun s m => { m with requestId := s }⟩]
  blank := {}
  unknown := (·.unknown)
  keep raw m := { m with unknown := m.unknown ++ raw }

instance : Message SaveResponse where
  typeName := "SaveResponse"
  slots := [
    ⟨1, "filename", .text, (·.filename), fun s m => { m with filename := s }⟩,
    ⟨2, "request_id", .text, (·.requestId), fun s m => { m with requestId := s }⟩]
  blank := {}
  unknown := (·.unknown)
  keep raw m := { m with unknown := m.unknown ++ raw }

instance : Message FetchStreamRequest where
  typeName := "FetchStreamRequest"
  slots := [
    ⟨1, "name", .text, (·.name), fun s m => { m with name := s }⟩,
    ⟨2, "from", .text, (·.start), fun s m => { m with start := s }⟩,
    ⟨3, "to", .text, (·.stop), fun s m => { m with stop := s }⟩,
    ⟨4, "container", .text, (·.container), fun s m => { m with container := s }⟩,
    ⟨5, "request_id", .text, (·.requestId), fun s m => { m with requestId := s }⟩]
  blank := {}
  unknown := (·.unknown)
  keep raw m := { m with unknown := m.unknown ++ raw }

instance : Message FetchStreamResponse where
  typeName := "FetchStreamResponse"
  slots := [
    ⟨1, "video_data", .bytes, (·.video), fun b m => { m with video := b }⟩,
    ⟨2, "request_id", .text, (·.requestId), fun s m => { m with requestId := s }⟩]
  blank := {}
  unknown := (·.unknown)
  keep raw m := { m with unknown := m.unknown ++ raw }

instance : Message DoCommandRequest where
  typeName := "DoCommandRequest"
  slots := [
    ⟨1, "name", .text, (·.name), fun s m => { m with name := s }⟩,
    ⟨2, "command", .struct, (·.command), fun c m => { m with command := c }⟩]
  blank := {}
  unknown := (·.unknown)
  keep raw m := { m with unknown := m.unknown ++ raw }

instance : Message DoCommandResponse where
  typeName := "DoCommandResponse"
  slots := [⟨1, "result", .struct, (·.result), fun r m => { m with result := r }⟩]
  blank := {}
  unknown := (·.unknown)
  keep raw m := { m with unknown := m.unknown ++ raw }

/-- The name of a message type with its package. -/
def fullName (M : Type) [Message M] : String := package ++ "." ++ Message.typeName M

/-- Reads a message, or fails with the type of message that the bytes are not. -/
def parse {M : Type} [Message M] (bytes : Bytes) : Except Fault M :=
  match Message.decode bytes with
  | some m => .ok m
  | none => .error (.undecodable (fullName M))

/-- The methods of the service. -/
inductive Method where
  | fetch | save | fetchStream | doCommand
deriving DecidableEq, Repr

/-- The name of the service with its package. -/
def serviceName : String := package ++ ".VideostoreService"

namespace Method

/-- All methods, in the order of their declaration. -/
def all : List Method := [fetch, save, fetchStream, doCommand]

/-- The name of the method in the service. -/
def name : Method → String
  | fetch => "Fetch"
  | save => "Save"
  | fetchStream => "FetchStream"
  | doCommand => "DoCommand"

/-- The path under which the method is called. -/
def path (m : Method) : String := "/" ++ serviceName ++ "/" ++ m.name

/-- The type of the requests. -/
def input (m : Method) : String := m.name ++ "Request"

/-- The type of the responses. -/
def output (m : Method) : String := m.name ++ "Response"

/-- Whether a call has a stream of responses in place of one. -/
def streams : Method → Bool
  | fetchStream => true
  | _ => false

end Method

end Footage.Wire
