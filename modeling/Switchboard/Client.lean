import Switchboard.Config.Validity

/-!
# Clients

A client is a configuration that can work. Everything that a client does begins with one.

## Main definitions

* `Client`: a configuration without a problem.
* `Client.ofConfig`: the client of a configuration, or the first problem of it.
-/
namespace Switchboard

/-- A client. -/
structure Client where
  config : Config
  valid : config.problem? = none

namespace Client

/-- The client of a configuration. -/
def ofConfig (c : Config) : Except Config.Problem Client :=
  match h : c.problem? with
  | some p => .error p
  | none => .ok ⟨c, h⟩

/-- How many shards a client has. -/
def shards (c : Client) : Nat := c.config.shardCount

/-- The value of the authorization header of a client. -/
def authorization (c : Client) : String := c.config.authorization

theorem ofConfig_eq_ok_iff (c : Config) : (∃ k, ofConfig c = .ok k) ↔ c.problem? = none := by
  unfold ofConfig
  split <;> simp_all

end Client

end Switchboard
