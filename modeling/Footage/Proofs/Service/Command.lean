import Footage.Proofs.Service.Dispatch
import Footage.Proofs.Wire.Converting
import Footage.Proofs.Wire.Plain

/-!
# Commands

A service converts a command before it calls the addressed store, and the result afterwards.

How a request with a command ends is decided in this order: by whether a store is under the name,
by the first number of the command that is not finite, by the store, and by the first leaf of the
result that no message can hold (`Service.Handled`).  That there is no other way is
`Service.run_doCommand_iff`.

Values that can be sent arrive as they were, but for the integers, from the caller to the store and
back: this is `Service.doCommand_preserves`.
-/

namespace Footage

open Number (Binary64)
open Wire (Struct DoCommandRequest DoCommandResponse parse objection?)
open Wire.Message (Assigned Sized encode nesting)

namespace Service

variable {σ : Type} {table : Store.Table σ} {store : Store σ} {r : DoCommandRequest}
  {w w' : World σ}

/-! ### The steps of a command -/

/-- The response with the result of a command; an empty one is left out. -/
def reply (result : List (String × Value)) : Act σ DoCommandResponse := do
  if result.isEmpty then return {}
  let answer ← Act.ofExcept ((Value.toStruct result).mapError Fault.conversion)
  return { result := some answer }

theorem doCommand_eq (table : Store.Table σ) (r : DoCommandRequest) :
    doCommand table r = (do
      Act.note (Request.doCommand r).receipt
      let store ← resolve table r.name
      let command ← Act.ofExcept ((r.command.getD {}).toRecord.mapError Fault.conversion)
      store.doCommand command >>= reply) := rfl

theorem run_doCommand_missing (h : table.lookup r.name = none) :
    (doCommand table.watched r).run w =
      .error (.aborted .notFound ("No videostore resource named " ++ Text.quote r.name ++ "."))
        (w.grow [(Request.doCommand r).receipt]) := by
  rw [doCommand_eq, EStateM.run_bind, Act.run_note]
  simp only [resolve, Store.Table.lookup_watched, h]
  rfl

/-- A command that does not convert is not given to the store. -/
theorem run_doCommand_refused (h : table.lookup r.name = some store) {e : ConversionFault}
    (refused : (r.command.getD {}).toRecord = .error e) :
    (doCommand table.watched r).run w =
      .error (.conversion e) (w.grow [(Request.doCommand r).receipt]) := by
  rw [doCommand_eq, EStateM.run_bind, Act.run_note]
  simp only [resolve, Store.Table.lookup_watched, h, refused]
  rfl

/-- The world in which the store under the name of a request is called with a command. -/
def atCall (r : DoCommandRequest) (command : List (String × Value)) (w : World σ) : World σ :=
  w.grow [(Request.doCommand r).receipt, .noted r.name (.command command)]

/-- A command that converts is the one that the store under the name is called with, and the
response is made of its result. -/
theorem run_doCommand_called (h : table.lookup r.name = some store)
    {command : List (String × Value)} (converted : (r.command.getD {}).toRecord = .ok command) :
    (doCommand table.watched r).run w =
      (store.doCommand command >>= reply).run (atCall r command w) := by
  have mapped : (r.command.getD {}).toRecord.mapError Fault.conversion = .ok command := by
    rw [converted]
    rfl
  rw [doCommand_eq, EStateM.run_bind, Act.run_note]
  simp only [resolve, Store.Table.lookup_watched, h, Option.map_some, pure_bind, mapped,
    Store.watched, bind_assoc, EStateM.run_bind, Act.run_ofExcept_ok, Act.run_note,
    World.grow_grow]
  rfl

theorem run_reply_error {result : List (String × Value)} {e : ConversionFault}
    (h : Value.toStruct result = .error e) :
    (reply result : Act σ DoCommandResponse).run w = .error (.conversion e) w := by
  cases result with
  | nil => cases h
  | cons entry rest =>
    simp only [reply, List.isEmpty_cons, h]
    rfl

theorem run_reply_ok {result : List (String × Value)} {s : Struct}
    (h : Value.toStruct result = .ok s) :
    (reply result : Act σ DoCommandResponse).run w =
      .ok { result := if result.isEmpty then none else some s } w := by
  cases result with
  | nil => rfl
  | cons entry rest =>
    simp only [reply, List.isEmpty_cons, h]
    rfl

/-! ### How a command ends -/

/-- A request leads to a store and to a command for it: the store is under the name, and all numbers
of the command are finite, so that it converts. -/
structure Calls (table : Store.Table σ) (r : DoCommandRequest) (store : Store σ)
    (command : List (String × Value)) : Prop where
  found : table.lookup r.name = some store
  finite : ∀ x ∈ (r.command.getD {}).numbers, x.IsFinite
  converted : (r.command.getD {}).toRecord = .ok command

/-- A request with a command ends in one of these ways. -/
inductive Handled (table : Store.Table σ) (r : DoCommandRequest) (w : World σ) :
    EStateM.Result Fault (World σ) DoCommandResponse → Prop where
  /-- No store is under the name, whatever the command holds. -/
  | missing : table.lookup r.name = none →
      Handled table r w
        (.error (.aborted .notFound ("No videostore resource named " ++ Text.quote r.name ++ "."))
          (w.grow [(Request.doCommand r).receipt]))
  /-- A number of the command is not finite, and the first one that is not decides on the fault.
  The store is not called. -/
  | refused {store : Store σ} {e : ConversionFault} : table.lookup r.name = some store →
      (r.command.getD {}).numbers.findSome? objection? = some e →
      (Fault.conversion e).kind = .value →
      Handled table r w (.error (.conversion e) (w.grow [(Request.doCommand r).receipt]))
  /-- The store is called once, and fails; its fault goes on. -/
  | failed {store : Store σ} {command : List (String × Value)} {e : Fault} {w' : World σ} :
      Calls table r store command →
      (store.doCommand command).run (atCall r command w) = .error e w' →
      Handled table r w (.error e w')
  /-- The store is called once, and a leaf of its result offends; the first one that does decides on
  the fault. -/
  | unwritable {store : Store σ} {command result : List (String × Value)} {w' : World σ}
      {before after : List Value} {v : Value} {e : ConversionFault} :
      Calls table r store command →
      (store.doCommand command).run (atCall r command w) = .ok result w' →
      Value.entryLeaves result = before ++ v :: after →
      (∀ u ∈ before, ∀ kind, ¬ u.Offends kind) → v.offence? = some e →
      v.Offends (Fault.conversion e).kind →
      Handled table r w (.error (.conversion e) w')
  /-- The store is called once, no leaf of its result offends, and the result is the response; an
  empty one is left out. -/
  | answered {store : Store σ} {command result : List (String × Value)} {w' : World σ}
      {s : Struct} :
      Calls table r store command →
      (store.doCommand command).run (atCall r command w) = .ok result w' →
      (∀ v ∈ Value.entryLeaves result, ∀ kind, ¬ v.Offends kind) →
      Value.toStruct result = .ok s →
      Handled table r w (.ok { result := if result.isEmpty then none else some s } w')

theorem calls_iff {command : List (String × Value)} : Calls table r store command ↔
    table.lookup r.name = some store ∧ (r.command.getD {}).toRecord = .ok command := by
  constructor
  · intro h
    exact ⟨h.found, h.converted⟩
  · rintro ⟨found, converted⟩
    refine ⟨found, fun x hx => ?_, converted⟩
    have none := Wire.Struct.faultOf_toRecord (r.command.getD {})
    rw [converted] at none
    exact Wire.objection?_eq_none_iff.1 (List.findSome?_eq_none_iff.1 none.symm x hx)

theorem Calls.run_failed {command : List (String × Value)} (calls : Calls table r store command)
    {e : Fault} (h : (store.doCommand command).run (atCall r command w) = .error e w') :
    (doCommand table.watched r).run w = .error e w' := by
  rw [run_doCommand_called calls.found calls.converted, EStateM.run_bind, h]

theorem Calls.run_returned {command result : List (String × Value)}
    (calls : Calls table r store command)
    (h : (store.doCommand command).run (atCall r command w) = .ok result w') :
    (doCommand table.watched r).run w = (reply result).run w' := by
  rw [run_doCommand_called calls.found calls.converted, EStateM.run_bind, h]

/-- Each of these ways is how the request ends. -/
theorem Handled.run_eq {outcome : EStateM.Result Fault (World σ) DoCommandResponse}
    (h : Handled table r w outcome) : (doCommand table.watched r).run w = outcome := by
  cases h with
  | missing absent => exact run_doCommand_missing absent
  | refused found first _ =>
    rw [← Wire.Struct.faultOf_toRecord, faultOf_eq_some_iff] at first
    exact run_doCommand_refused found first
  | failed calls ran => exact calls.run_failed ran
  | unwritable calls ran leaves clean offence _ =>
    rw [calls.run_returned ran]
    refine run_reply_error (faultOf_eq_some_iff.1 ?_)
    rw [Value.faultOf_toStruct, List.findSome?_eq_some_iff]
    exact ⟨_, _, _, leaves, offence, fun u hu => Value.offence?_eq_none_iff.2 (clean u hu)⟩
  | answered calls ran _ converted =>
    rw [calls.run_returned ran]
    exact run_reply_ok converted

/-- A request ends in one of these ways. -/
theorem handled_run (table : Store.Table σ) (r : DoCommandRequest) (w : World σ) :
    Handled table r w ((doCommand table.watched r).run w) := by
  cases found : table.lookup r.name with
  | none =>
    rw [run_doCommand_missing found]
    exact .missing found
  | some store =>
    have first := Wire.Struct.faultOf_toRecord (r.command.getD {})
    cases converted : (r.command.getD {}).toRecord with
    | error e =>
      rw [converted] at first
      obtain ⟨x, -, objection⟩ := List.exists_of_findSome?_eq_some first.symm
      rw [run_doCommand_refused found converted]
      exact .refused found first.symm (Wire.kind_of_objection? objection)
    | ok command =>
      have calls : Calls table r store command := calls_iff.2 ⟨found, converted⟩
      cases ran : (store.doCommand command).run (atCall r command w) with
      | error e w' =>
        rw [calls.run_failed ran]
        exact .failed calls ran
      | ok result w' =>
        have offences := Value.faultOf_toStruct result
        rw [calls.run_returned ran]
        cases made : Value.toStruct result with
        | error e =>
          rw [made] at offences
          obtain ⟨before, v, after, leaves, offence, clean⟩ :=
            List.findSome?_eq_some_iff.1 offences.symm
          rw [run_reply_error made]
          exact .unwritable calls ran leaves
            (fun u hu => Value.offence?_eq_none_iff.1 (clean u hu)) offence
            (Value.offends_of_offence? offence)
        | ok s =>
          rw [made] at offences
          have clean := List.findSome?_eq_none_iff.1 offences.symm
          rw [run_reply_ok made]
          exact .answered calls ran (fun v hv => Value.offence?_eq_none_iff.1 (clean v hv)) made

/-- **How a command ends is decided by the table, the command, the store and the result, in this
order.**  Whatever the command and the result hold at any depth, a request ends just as
`Service.Handled` says: the store is called once, or not at all when there is none under the name or
a number of the command is not finite. -/
theorem run_doCommand_iff (table : Store.Table σ) (r : DoCommandRequest) (w : World σ)
    (outcome : EStateM.Result Fault (World σ) DoCommandResponse) :
    (doCommand table.watched r).run w = outcome ↔ Handled table r w outcome := by
  constructor
  · rintro rfl
    exact handled_run table r w
  · exact Handled.run_eq

/-! ### Commands and results on the wire -/

/-- A request is made for a store with a command, within the limits of the wire.  An empty command
may be left out. -/
structure Sends (request : DoCommandRequest) (name : String) (command : List (String × Value)) :
    Prop where
  name_eq : request.name = name
  converted : Value.toStruct command = .ok (request.command.getD {})
  shallow : (request.command.getD {}).depth ≤ nesting
  sized : Sized request
  known : request.unknown = []

/-- What a record was put in is plain. -/
theorem plain_of_converted {c : Option Struct} {entries : List (String × Value)}
    (converted : Value.toStruct entries = .ok (c.getD {})) (shallow : (c.getD {}).depth ≤ nesting) :
    Wire.Kind.Plain .struct c := by
  cases c with
  | none => trivial
  | some s => exact ⟨Wire.plain_of_toStruct converted, shallow⟩

theorem parse_encode_of_assigned {M : Type} [Wire.Message M] (lawful : Wire.Message.Lawful M)
    {m : M} (assigned : Assigned m) : parse (encode m) = .ok m := by
  have read := (assigned.settled lawful).read lawful assigned.sized
  rw [parse, Wire.Message.decode_eq_readWith, read]

theorem Sends.parse_encode {request : DoCommandRequest} {name : String}
    {command : List (String × Value)} (sends : Sends request name command) :
    parse (encode request) = .ok request := by
  have plain := plain_of_converted sends.converted sends.shallow
  refine parse_encode_of_assigned (Wire.MessageType.lawful .doCommandRequest) ⟨?_, sends.sized,
    sends.known⟩
  simp only [Wire.Message.slots, List.forall_mem_cons]
  exact ⟨trivial, plain, nofun⟩

theorem parse_encode_response {c : Option Struct} {result : List (String × Value)}
    (converted : Value.toStruct result = .ok (c.getD {})) (shallow : (c.getD {}).depth ≤ nesting)
    (sized : Sized ({ result := c } : DoCommandResponse)) :
    parse (encode ({ result := c } : DoCommandResponse)) =
      .ok ({ result := c } : DoCommandResponse) := by
  have plain := plain_of_converted converted shallow
  refine parse_encode_of_assigned (Wire.MessageType.lawful .doCommandResponse) ⟨?_, sized, rfl⟩
  simp only [Wire.Message.slots, List.forall_mem_cons]
  exact ⟨plain, nofun⟩

/-- A result that can be sent is put in a response, and is there again when this one is read. -/
theorem exists_reply {result : List (String × Value)} (sendable : (Value.record result).Sendable) :
    ∃ (response : DoCommandResponse) (back : List (String × Value)),
      (∀ w : World σ, (reply result).run w = .ok response w) ∧
      (Value.record result).Arrives (.record back) ∧
      ((response.result.getD {}).depth ≤ nesting → Sized response →
        parse (encode response) = .ok response ∧
        (response.result.getD {}).toRecord = .ok back) := by
  obtain ⟨s, back, converted, read, arrives⟩ := Value.arrives_toStruct sendable
  obtain ⟨c, rfl, replied⟩ : ∃ c : Option Struct, c.getD {} = s ∧
      ∀ w : World σ, (reply result).run w = .ok { result := c } w := by
    refine ⟨_, ?_, fun w => run_reply_ok converted⟩
    cases result with
    | nil =>
      cases converted
      rfl
    | cons entry rest => rfl
  exact ⟨{ result := c }, back, replied, arrives, fun shallow sized =>
    ⟨parse_encode_response converted shallow sized, read⟩⟩

/-- **Free values are preserved from the caller of a command to the store and back.**  A command
that can be sent converts, and it arrives at the store under the name as it was, but with the
nearest double in place of each integer.  So does a result that can be sent, at the caller.
Requests and responses have to keep to the limits of the wire. -/
theorem doCommand_preserves (table : Store.Table σ) {name : String} {store : Store σ}
    (found : table.lookup name = some store) {command : List (String × Value)}
    (sendable : (Value.record command).Sendable) :
    (∃ s, Value.toStruct command = .ok s) ∧
    ∃ received, (Value.record command).Arrives (.record received) ∧
      ∀ request, Sends request name command → parse (encode request) = .ok request ∧
        ∀ w, (doCommand table.watched request).run w =
            (store.doCommand received >>= reply).run (atCall request received w) ∧
          ∀ result w', (store.doCommand received).run (atCall request received w) = .ok result w' →
            (Value.record result).Sendable →
            ∃ response back, (doCommand table.watched request).run w = .ok response w' ∧
              (Value.record result).Arrives (.record back) ∧
              ((response.result.getD {}).depth ≤ nesting → Sized response →
                parse (encode response) = .ok response ∧
                (response.result.getD {}).toRecord = .ok back) := by
  obtain ⟨s, received, converted, read, arrives⟩ := Value.arrives_toStruct sendable
  refine ⟨⟨s, converted⟩, received, arrives, fun request sends => ⟨sends.parse_encode, fun w => ?_⟩⟩
  have same : request.command.getD {} = s := by
    have twice := sends.converted.symm.trans converted
    cases twice
    rfl
  have calls : Calls table request store received :=
    calls_iff.2 ⟨sends.name_eq ▸ found, same ▸ read⟩
  refine ⟨run_doCommand_called calls.found calls.converted, fun result w' ran answerable => ?_⟩
  obtain ⟨response, back, replied, arrives, limits⟩ := exists_reply (σ := σ) answerable
  exact ⟨response, back, (calls.run_returned ran).trans (replied w'), arrives, limits⟩

/-- A command with values of every sort that can be sent. -/
def sampleCommand : List (String × Value) := [
  ("none", .null),
  ("flags", .list [.flag true, .flag false]),
  ("large", .whole (2 ^ 53 + 1)),
  ("", .text ""),
  ("empty", .list [.list [], .record []])]

theorem sendable_sampleCommand : (Value.record sampleCommand).Sendable := by
  have small : (2 ^ 53 + 1 : Int).natAbs < Binary64.overflowBound := by decide +kernel
  have once : (sampleCommand.map Prod.fst).Nodup := by decide
  exact ⟨once, trivial, ⟨trivial, trivial, trivial⟩, small, trivial,
    ⟨trivial, ⟨.nil, trivial⟩, trivial⟩, trivial⟩

/-- A result with values of several sorts, one inside the other. -/
def sampleResult : List (String × Value) := [
  ("done", .flag true),
  ("ratio", .real ⟨0x3FE0000000000000⟩),
  ("clips", .list [.whole (-3), .text "a.mp4", .record [("note", .null)]])]

theorem sendable_sampleResult : (Value.record sampleResult).Sendable := by
  have small : (-3 : Int).natAbs < Binary64.overflowBound := by decide +kernel
  have finite : (⟨0x3FE0000000000000⟩ : Binary64).IsFinite := by decide +kernel
  have once : (sampleResult.map Prod.fst).Nodup := by decide
  have note : (["note"] : List String).Nodup := by decide
  exact ⟨once, trivial, finite, ⟨small, trivial, ⟨note, trivial, trivial⟩, trivial⟩, trivial⟩

/-- A store that answers every command with the sample result. -/
def answering : Store Unit := .scripted "vs-1" { result := some sampleResult }

/-- The sample is sent to a store and arrives there, and the result of the store comes back. -/
theorem doCommand_preserves_sample : ∃ request received response back w',
    Sends request "vs-1" sampleCommand ∧ (Value.record sampleCommand).Arrives (.record received) ∧
      parse (encode request) = .ok request ∧
      (doCommand (Store.Table.watched [("vs-1", answering)]) request).run (.fresh ()) =
        .ok response w' ∧
      (Value.record sampleResult).Arrives (.record back) ∧
      parse (encode response) = .ok response ∧ (response.result.getD {}).toRecord = .ok back := by
  have within (entries : List (String × Value)) (h : entries ∈ [sampleCommand, sampleResult]) :
      ∃ s, Value.toStruct entries = .ok s ∧ s.depth ≤ nesting ∧
        s.encode.length ≤ Wire.longest := by
    simp only [List.mem_cons, List.not_mem_nil, or_false] at h
    rcases h with rfl | rfl <;> exact ⟨_, rfl, by decide +kernel, by decide +kernel⟩
  obtain ⟨s, converted, shallow, short⟩ := within sampleCommand (by simp)
  obtain ⟨r, converted', shallow', short'⟩ := within sampleResult (by simp)
  have name : (Bytes.ofText "vs-1").length ≤ Wire.longest := by decide
  have sends : Sends { name := "vs-1", command := some s } "vs-1" sampleCommand := {
    name_eq := rfl
    converted := converted
    shallow := shallow
    sized := by simp [Wire.Message.slots, Sized, Wire.Kind.payload?, Wire.Payload.Fits, short, name]
    known := rfl }
  have found : List.lookup "vs-1" [("vs-1", answering)] = some answering := rfl
  obtain ⟨-, received, arrives, carried⟩ := doCommand_preserves _ found sendable_sampleCommand
  obtain ⟨parsed, runs⟩ := carried _ sends
  obtain ⟨run, answers⟩ := runs (.fresh ())
  obtain ⟨response, back, ran, comes, limits⟩ := answers _ _ rfl sendable_sampleResult
  -- The response is made of the result as it converts.
  have made : response = { result := some r } := by
    rw [run, EStateM.run_bind] at ran
    have replied := ran.symm.trans (run_reply_ok converted')
    cases replied
    rfl
  subst made
  obtain ⟨parsed', read⟩ := limits shallow' (by
    simp [Wire.Message.slots, Sized, Wire.Kind.payload?, Wire.Payload.Fits, short'])
  exact ⟨_, received, _, back, _, sends, arrives, parsed, ran, comes, parsed', read⟩

end Service

end Footage
