/-!
# Close codes

The codes with which a gateway ends a connection, and what the session does about each. A code that
is not known, like a connection that ends without one, is resumed.
-/
namespace Switchboard

/-- What follows a close. -/
inductive CloseAction where
  /-- Reconnect and resume the session. -/
  | resume
  /-- Reconnect with a new session. -/
  | reidentify
  /-- Stop: the credentials were rejected. -/
  | authenticationFailed
  /-- Stop: the configuration cannot work with this server. -/
  | fatal
deriving DecidableEq, Repr

/-- The codes that a gateway uses. -/
inductive CloseCode where
  | unknownError
  | unknownOpcode
  | decodeError
  | notAuthenticated
  | authenticationFailed
  | alreadyAuthenticated
  | invalidSequence
  | rateLimited
  | sessionTimedOut
  | invalidShard
  | shardingRequired
  | invalidApiVersion
  | invalidIntents
  | disallowedIntents
deriving DecidableEq, Repr

namespace CloseCode

/-- All codes, by number. -/
def all : List CloseCode :=
  [unknownError, unknownOpcode, decodeError, notAuthenticated, authenticationFailed,
    alreadyAuthenticated, invalidSequence, rateLimited, sessionTimedOut, invalidShard,
    shardingRequired, invalidApiVersion, invalidIntents, disallowedIntents]

/-- The number of a code. -/
def toNat : CloseCode → Nat
  | unknownError => 4000
  | unknownOpcode => 4001
  | decodeError => 4002
  | notAuthenticated => 4003
  | authenticationFailed => 4004
  | alreadyAuthenticated => 4005
  | invalidSequence => 4007
  | rateLimited => 4008
  | sessionTimedOut => 4009
  | invalidShard => 4010
  | shardingRequired => 4011
  | invalidApiVersion => 4012
  | invalidIntents => 4013
  | disallowedIntents => 4014

/-- The code of a number. -/
def ofNat? (n : Nat) : Option CloseCode := all.find? fun c => c.toNat = n

/-- What follows a close with this code. -/
def action : CloseCode → CloseAction
  | authenticationFailed => .authenticationFailed
  | invalidShard | shardingRequired | invalidApiVersion | invalidIntents | disallowedIntents =>
    .fatal
  | invalidSequence | sessionTimedOut => .reidentify
  | _ => .resume

/-- What the code says. -/
def description : CloseCode → String
  | unknownError => "unknown error"
  | unknownOpcode => "unknown opcode sent"
  | decodeError => "invalid payload sent"
  | notAuthenticated => "payload sent before identify"
  | authenticationFailed => "authentication failed"
  | alreadyAuthenticated => "identify sent twice"
  | invalidSequence => "invalid resume sequence"
  | rateLimited => "gateway rate limit exceeded"
  | sessionTimedOut => "session timed out"
  | invalidShard => "invalid shard"
  | shardingRequired => "sharding required"
  | invalidApiVersion => "invalid api version"
  | invalidIntents => "invalid intents"
  | disallowedIntents => "disallowed intents"

/-- The description with the number. -/
def message (c : CloseCode) : String := c.description ++ " (" ++ toString c.toNat ++ ")"

@[simp] theorem ofNat?_toNat (c : CloseCode) : ofNat? c.toNat = some c := by cases c <;> rfl

end CloseCode

/-- What follows a close with this code, or with none. -/
def CloseAction.ofCode (code : Option Nat) : CloseAction :=
  match code.bind CloseCode.ofNat? with
  | some c => c.action
  | none => .resume

@[simp] theorem CloseAction.ofCode_none : CloseAction.ofCode none = .resume := rfl

end Switchboard
