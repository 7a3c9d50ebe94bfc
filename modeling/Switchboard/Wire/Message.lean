import Switchboard.Failure
import Switchboard.Json.Fields
import Switchboard.Text.Unsigned
import Switchboard.Wire.Opcode

/-!
# Inbound messages

A gateway payload is a document with an opcode and, according to it, data, a sequence number and the
name of an event. Reading gives one of the messages that a session knows, or says what is missing.

## Main definitions

* `Message`: what a session hears.
* `Message.parse`: reads a payload.
* `ReadyInfo`: what a session keeps of the data of its first event.
-/
namespace Switchboard

/-- The fields of every payload. -/
structure Envelope where
  op : Nat
  data : Option Json
  sequence : Option Nat
  name : Option String

/-- The names of the fields, in the order in which an array lists them. -/
def Envelope.fieldNames : List String := ["op", "d", "s", "t"]

/-- Reads the fields; all but the opcode may be absent or null. -/
def Envelope.parse? (s : String) : Option Envelope := do
  let fields ← Json.readFields? fieldNames s
  let op ← Json.required? fields "op" (Json.asNat? Text.bound8)
  let data ← Json.optional? fields "d" none (Json.nullable some)
  let sequence ← Json.optional? fields "s" none (Json.nullable (Json.asNat? Text.bound64))
  let name ← Json.optional? fields "t" none (Json.nullable Json.asText?)
  return { op, data, sequence, name }

/-- What a session hears from the gateway. -/
inductive Message where
  /-- An event of the application. -/
  | dispatch (kind : String) (sequence : Nat) (data : Json)
  /-- The server wants a heartbeat now. -/
  | heartbeat
  | reconnect
  | invalidSession (resumable : Bool)
  /-- The greeting, with the heartbeat interval in milliseconds. -/
  | hello (intervalMs : Nat)
  | heartbeatAck
  /-- An opcode that only clients send, or that nobody knows. -/
  | unknown (op : Nat)
deriving Repr

namespace Message

/-- Why a payload is no message. -/
inductive Defect where
  | envelope
  | dispatchWithoutName
  | dispatchWithoutSequence (kind : String)
  | helloWithoutInterval
  | readyWithoutSession
deriving DecidableEq, Repr

/-- The wording of a defect. -/
def Defect.reason : Defect → String
  | .envelope => "invalid gateway envelope"
  | .dispatchWithoutName => "dispatch without event name"
  | .dispatchWithoutSequence kind => "dispatch " ++ kind ++ " without sequence"
  | .helloWithoutInterval => "hello without heartbeat_interval"
  | .readyWithoutSession => "READY without session_id"

/-- The failure that a defect is. -/
def Defect.toFailure (d : Defect) : Failure := .protocol d.reason

/-- The heartbeat interval in the data of a greeting: a positive number of milliseconds. -/
def interval? (data : Option Json) : Option Nat := do
  let value ← (← data).get? "heartbeat_interval"
  let n ← value.asNat? Text.bound64
  if n = 0 then none else some n

/-- The data says that the session can be resumed. -/
def saysResumable (data : Option Json) : Bool := (data.bind Json.asBool?).getD false

/-- The message of an envelope. -/
def ofEnvelope (e : Envelope) : Except Defect Message :=
  match Opcode.ofNat? e.op with
  | some .dispatch =>
    match e.name, e.sequence with
    | none, _ => .error .dispatchWithoutName
    | some kind, none => .error (.dispatchWithoutSequence kind)
    | some kind, some sequence => .ok (.dispatch kind sequence (e.data.getD .null))
  | some .heartbeat => .ok .heartbeat
  | some .reconnect => .ok .reconnect
  | some .invalidSession => .ok (.invalidSession (saysResumable e.data))
  | some .hello =>
    match interval? e.data with
    | some n => .ok (.hello n)
    | none => .error .helloWithoutInterval
  | some .heartbeatAck => .ok .heartbeatAck
  | _ => .ok (.unknown e.op)

/-- Reads a payload. -/
def parse (s : String) : Except Defect Message :=
  match Envelope.parse? s with
  | none => .error .envelope
  | some e => ofEnvelope e

end Message

/-- What a session keeps of the data of its first event. -/
structure ReadyInfo where
  sessionId : String
  resumeUrl : Option String
deriving DecidableEq, Repr

/-- Reads the data: the identifier of the session must be a string that is not empty. -/
def ReadyInfo.ofData (data : Json) : Except Message.Defect ReadyInfo :=
  match (data.get? "session_id").bind Json.asText? with
  | some id =>
    if id.isEmpty then .error .readyWithoutSession
    else .ok ⟨id, (data.get? "resume_gateway_url").bind Json.asText?⟩
  | none => .error .readyWithoutSession

end Switchboard
