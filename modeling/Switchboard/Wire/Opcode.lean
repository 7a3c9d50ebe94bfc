/-!
# Opcodes

The kinds of gateway payload. Applications may send the three commands and opcodes that nobody
knows; all others belong to the session.
-/
namespace Switchboard

/-- A known opcode. -/
inductive Opcode where
  | dispatch
  | heartbeat
  | identify
  | presenceUpdate
  | voiceStateUpdate
  | resume
  | reconnect
  | requestGuildMembers
  | invalidSession
  | hello
  | heartbeatAck
deriving DecidableEq, Repr

namespace Opcode

/-- All opcodes, by number. -/
def all : List Opcode :=
  [dispatch, heartbeat, identify, presenceUpdate, voiceStateUpdate, resume, reconnect,
    requestGuildMembers, invalidSession, hello, heartbeatAck]

/-- The number of an opcode. -/
def toNat : Opcode → Nat
  | dispatch => 0
  | heartbeat => 1
  | identify => 2
  | presenceUpdate => 3
  | voiceStateUpdate => 4
  | resume => 6
  | reconnect => 7
  | requestGuildMembers => 8
  | invalidSession => 9
  | hello => 10
  | heartbeatAck => 11

/-- The opcode of a number. -/
def ofNat? (n : Nat) : Option Opcode := all.find? fun c => c.toNat = n

/-- An opcode that is a command of the application. -/
def isCommand : Opcode → Bool
  | presenceUpdate | voiceStateUpdate | requestGuildMembers => true
  | _ => false

/-- Applications may send a payload with this number. -/
def allowsApplication (n : Nat) : Bool :=
  match ofNat? n with
  | some c => c.isCommand
  | none => true

@[simp] theorem ofNat?_toNat (c : Opcode) : ofNat? c.toNat = some c := by cases c <;> rfl

end Opcode

end Switchboard
