import Switchboard.Json.Printer
import Switchboard.Wire.Compression
import Switchboard.Wire.Opcode

/-!
# Outbound payloads

What a session sends: its handshakes, its heartbeats and the commands of the application. Every
payload is an object with an opcode and data, written compactly.

## Main definitions

* `Payload.identify`, `Payload.resume`: the handshakes.
* `Payload.heartbeat`, `Payload.command`: everything else.
-/
namespace Switchboard

/-- A shard: its number and how many there are. -/
structure Shard where
  id : Nat
  total : Nat
deriving DecidableEq, Repr, Inhabited

namespace Shard

/-- The shard responsible for a resource: identifiers carry a time in their upper bits. -/
def ofResource (resource total : Nat) : Nat := resource / (1 <<< 22) % max total 1

/-- A shard as a pair. -/
def toJson (s : Shard) : Json := .array [.ofNat s.id, .ofNat s.total]

/-- A shard as messages show it. -/
def render (s : Shard) : String := "[" ++ toString s.id ++ "/" ++ toString s.total ++ "]"

theorem ofResource_lt (resource total : Nat) : ofResource resource total < max total 1 :=
  Nat.mod_lt _ (by omega)

end Shard

namespace Payload

/-- The name under which the library presents itself. -/
def libraryName : String := "shardwire"

/-- The size from which the server leaves out offline members. -/
def largeThreshold : Nat := 250

/-- An opcode with its data. -/
def envelope (op : Nat) (data : Json) : Json := .object [("op", .ofNat op), ("d", data)]

/-- The data of a fresh handshake from a client on an operating system. -/
def identifyData (token : String) (intents : Nat) (shard : Shard) (mode : Compression)
    (system : String) : Json :=
  .object [
    ("token", .text token),
    ("intents", .ofNat intents),
    ("properties", .object [
      ("os", .text system), ("browser", .text libraryName), ("device", .text libraryName)]),
    ("shard", shard.toJson),
    ("compress", .bool (mode == .payload)),
    ("large_threshold", .ofNat largeThreshold)]

/-- The data of a handshake that takes up a session. -/
def resumeData (token sessionId : String) (sequence : Nat) : Json :=
  .object [("token", .text token), ("session_id", .text sessionId), ("seq", .ofNat sequence)]

/-- A sequence number, or null before the first. -/
def sequenceData : Option Nat → Json
  | some n => .ofNat n
  | none => .null

/-- A fresh handshake. -/
def identify (token : String) (intents : Nat) (shard : Shard) (mode : Compression)
    (system : String := "linux") : String :=
  (envelope Opcode.identify.toNat (identifyData token intents shard mode system)).render

/-- A handshake that takes up a session. -/
def resume (token sessionId : String) (sequence : Nat) : String :=
  (envelope Opcode.resume.toNat (resumeData token sessionId sequence)).render

/-- A heartbeat. -/
def heartbeat (sequence : Option Nat) : String :=
  (envelope Opcode.heartbeat.toNat (sequenceData sequence)).render

/-- A command of the application. -/
def command (op : Nat) (data : Json) : String := (envelope op data).render

end Payload

end Switchboard
