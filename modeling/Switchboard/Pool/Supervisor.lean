import Switchboard.Config.Basic
import Switchboard.Pool.Event
import Switchboard.Session.Basic

/-!
# The supervisor of a pool

A supervisor listens to the notices about the shards and restarts those that stopped for good, after
a cooldown, if the policy says so and the credentials were not rejected. When it missed notices it
asks the shards one after the other why they stopped.

A shard is listed as long as its restart is under way. Handing over the restart and striking the
shard off the list are two inputs, because others may come between them.

## Main definitions

* `Supervisor`: the policy, the shards whose restart is under way, and the shard that was asked.
* `Supervisor.step`: what an input changes, and what it asks for.
-/
namespace Switchboard

/-- What a supervisor knows. -/
structure Supervisor where
  policy : FatalPolicy
  /-- How long after its end a shard is restarted. -/
  cooldown : Span
  /-- How many shards there are. -/
  shards : Nat
  /-- Shards whose restart is under way. -/
  restarting : List Nat := []
  /-- The shard that was asked for its cause; the ones after it are still to be asked. -/
  asked : Option Nat := none
deriving DecidableEq, Repr

namespace Supervisor

/-- What happens to a supervisor. -/
inductive Input where
  | notice (n : Notice)
  /-- Notices were missed. -/
  | lagged
  /-- The shard that was asked says why it stopped for good, if it did. -/
  | answer (cause : Option FatalCause)
  /-- The cooldown of a shard is over. -/
  | due (shard : Nat)
  /-- The restart of a shard was handed over. -/
  | told (shard : Nat)

/-- What a supervisor asks for. -/
inductive Effect where
  /-- Report after the cooldown that a restart is due. -/
  | plan (shard : Nat) (cooldown : Span)
  /-- Ask a shard for its cause. -/
  | ask (shard : Nat)
  /-- Hand a restart to a shard. -/
  | restart (shard : Nat)
deriving DecidableEq, Repr

/-- The supervisor of a pool of the given configuration. -/
def ofConfig (c : Config) : Supervisor where
  policy := c.fatalRestart
  cooldown := Span.ofMillis c.fatalRestartCooldownMs
  shards := c.shardCount

/-- A restart is planned for a shard that stopped for this reason. -/
def wantsRestart (s : Supervisor) (shard : Nat) (authentication : Bool) : Bool :=
  !authentication && s.policy = .restart && shard < s.shards && shard ∉ s.restarting

/-- A shard stopped for good. -/
def onFatal (s : Supervisor) (shard : Nat) (authentication : Bool) : Supervisor × List Effect :=
  if s.wantsRestart shard authentication then
    ({ s with restarting := s.restarting ++ [shard] }, [.plan shard s.cooldown])
  else (s, [])

/-- Asks the next shard that is not listed, beginning with the given one. -/
def askFrom (s : Supervisor) (first : Nat) : Supervisor × List Effect :=
  match (List.range' first (s.shards - first)).find? (· ∉ s.restarting) with
  | some shard => ({ s with asked := some shard }, [.ask shard])
  | none => ({ s with asked := none }, [])

/-- The step of a supervisor. -/
def step (s : Supervisor) : Input → Supervisor × List Effect
  | .notice ⟨shard, .fatal _ authentication⟩ => s.onFatal shard authentication
  | .notice _ => (s, [])
  | .lagged => if s.policy = .surface then (s, []) else s.askFrom 0
  | .answer cause =>
    match s.asked with
    | none => (s, [])
    | some shard =>
      let (s, planned) := cause.elim (s, []) fun c => s.onFatal shard c.authentication
      let (s, asked) := s.askFrom (shard + 1)
      (s, planned ++ asked)
  | .due shard => (s, [.restart shard])
  | .told shard => ({ s with restarting := s.restarting.filter (· ≠ shard) }, [])

@[simp] theorem restarting_askFrom (s : Supervisor) (first : Nat) :
    (s.askFrom first).1.restarting = s.restarting := by
  unfold askFrom; split <;> rfl

end Supervisor

end Switchboard
