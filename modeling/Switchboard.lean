import Switchboard.Client
import Switchboard.Config.Document
import Switchboard.Config.Variables
import Switchboard.Dispatch.Dispatcher
import Switchboard.Pool.Supervisor
import Switchboard.Session.Step
import Switchboard.Simulation.CooldownRun
import Switchboard.Simulation.DispatchRun
import Switchboard.Simulation.GateRun
import Switchboard.Simulation.LinkRun
import Switchboard.Simulation.PoolRun
import Switchboard.Simulation.WriterRun
import Switchboard.Proofs.Wire.Reports
import Switchboard.Proofs.Wire.Traffic
import Switchboard.Proofs.Wire.Packets
import Switchboard.Proofs.Wire.Draining
import Switchboard.Proofs.Wire.ReadBack
import Switchboard.Proofs.Session.Acts
import Switchboard.Proofs.Session.Steps
import Switchboard.Proofs.Session.Coupling
import Switchboard.Proofs.Session.Memory
import Switchboard.Proofs.Session.FreshHandshake
import Switchboard.Proofs.Session.EventStream
import Switchboard.Proofs.Session.Delivery
import Switchboard.Proofs.Session.Desk
import Switchboard.Proofs.Session.CloseReaction
import Switchboard.Proofs.Session.Handshakes
import Switchboard.Proofs.Session.AtRest
import Switchboard.Proofs.Session.Retries
import Switchboard.Proofs.Session.Likeness
import Switchboard.Proofs.Session.Renewal
import Switchboard.Proofs.Session.Failures
import Switchboard.Proofs.Session.Causes
import Switchboard.Proofs.Session.Heartbeats
import Switchboard.Proofs.Session.Lobby
import Switchboard.Proofs.Session.Connections
import Switchboard.Proofs.Session.Announcements
import Switchboard.Proofs.Session.Commands
import Switchboard.Proofs.Session.Discipline
import Switchboard.Proofs.Session.Counters
import Switchboard.Proofs.Session.Statistics
import Switchboard.Proofs.Pool.Ward
import Switchboard.Proofs.Pool.Restarts
import Switchboard.Proofs.Pool.Repairs
import Switchboard.Proofs.Pool.Spacing
import Switchboard.Proofs.Pool.Forum
import Switchboard.Proofs.Dispatch.Pause
import Switchboard.Proofs.Dispatch.Lines
import Switchboard.Proofs.Dispatch.Owners
import Switchboard.Proofs.Dispatch.Order
import Switchboard.Proofs.Dispatch.Buckets
import Switchboard.Proofs.Dispatch.Pending
import Switchboard.Proofs.Dispatch.SingleRoute
import Switchboard.Proofs.Dispatch.ClosedLoop
import Switchboard.Proofs.Dispatch.Tokens
import Switchboard.Proofs.Dispatch.Eviction
import Switchboard.Proofs.Dispatch.Refusal
import Switchboard.Proofs.Dispatch.Timeouts
import Switchboard.Proofs.Dispatch.View
import Switchboard.Proofs.Dispatch.Parting
import Switchboard.Proofs.Dispatch.Shown
import Switchboard.Proofs.Dispatch.Independence
import Switchboard.Proofs.Dispatch.Units
import Switchboard.Proofs.Dispatch.LongestWait
import Switchboard.Proofs.Dispatch.Clearance
import Switchboard.Proofs.Dispatch.Outcomes
import Switchboard.Proofs.Dispatch.Trials
import Switchboard.Proofs.Dispatch.Progress
import Switchboard.Proofs.Dispatch.Templates
import Switchboard.Proofs.Pacing.Grants
import Switchboard.Proofs.Pacing.Missed
import Switchboard.Proofs.Pacing.Cooldowns
