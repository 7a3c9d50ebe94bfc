import Switchboard.Proofs.Session.Steps
import Switchboard.Proofs.Wire.Transports

/-!
# A session and its connection

Between two steps the phase of a session says whether it hears a connection, the connection that it
hears is the current one of its link, and nothing is held that belongs to another. The invariant is
`Session.Coupled`. What a session asks of the link is accounted for apart from it, by `Link.follow`:
a list of effects takes one link to another when each effect finds the link as it expects it.

## Main results

* `Session.follow_happens`: every step leaves the link as its effects leave it.
* `Session.coupled_happens`: every step but the end preserves the coupling.
* `Session.run_coupled`: both, for all runs.
-/
namespace Switchboard

namespace Link

/-- The link after effects that each find it as they expect it: none is current when one is begun,
the next number is taken, and only the current one is sent to and given up. -/
@[simp] def follow (l : Link) : List Session.Effect → Option Link
  | [] => some l
  | .connect k _ :: es =>
    if l.current = none ∧ k = l.begun + 1 then l.renew.follow es else none
  | .close k _ _ :: es => if l.current = some k then l.drop.follow es else none
  | .send k _ :: es => if l.current = some k then l.follow es else none
  | _ :: es => l.follow es

theorem follow_append (l : Link) (es fs : List Session.Effect) :
    l.follow (es ++ fs) = (l.follow es).bind (·.follow fs) := by
  induction es generalizing l with
  | nil => rfl
  | cons e es ih => cases e <;> simp only [List.cons_append, follow] <;> (try split) <;> simp [ih]

end Link

namespace Session

/-- The number of the connection that an effect begins. -/
def Effect.begun? : Effect → Option Nat
  | .connect k _ => some k
  | _ => none

end Session

theorem Link.begun_follow {l l' : Link} {es : List Session.Effect} (h : l.follow es = some l') :
    l.begun ≤ l'.begun ∧
      es.filterMap Session.Effect.begun? = List.range' (l.begun + 1) (l'.begun - l.begun) := by
  induction es generalizing l with
  | nil =>
    obtain rfl : l = l' := by simpa using h
    simp
  | cons e es ih =>
    cases e with
    | connect k url =>
      obtain ⟨⟨-, rfl⟩, hrest⟩ : (l.current = none ∧ k = l.begun + 1) ∧ l.renew.follow es = some l' := by
        simpa using h
      obtain ⟨hle, hes⟩ := ih hrest
      have hbegun : l.renew.begun = l.begun + 1 := rfl
      rw [hbegun] at hle hes
      refine ⟨by omega, ?_⟩
      obtain ⟨d, hd⟩ : ∃ d, l'.begun - l.begun = d + 1 := ⟨l'.begun - l.begun - 1, by omega⟩
      have hd' : l'.begun - (l.begun + 1) = d := by omega
      rw [List.filterMap_cons, hd, List.range'_succ, hes, hd']
      rfl
    | close k code reason =>
      obtain ⟨-, hrest⟩ : l.current = some k ∧ l.drop.follow es = some l' := by
        simpa using h
      have hes := ih hrest
      exact hes
    | send k payload =>
      obtain ⟨-, hrest⟩ : l.current = some k ∧ l.follow es = some l' := by
        simpa using h
      exact ih hrest
    | _ => exact ih h

namespace Session

variable {c : Config} {m : Moment} {s : Session}

/-! ## What is asked of the link -/

@[simp] theorem follow_taskEnds (l : Link) : l.follow s.taskEnds = some l := by
  cases hb : s.heartbeatTask <;> cases hi : s.identifyTask <;> simp [taskEnds, hb, hi]

@[simp] theorem follow_farewell (code : Nat) (reason : String) :
    s.link.follow (s.farewell code reason) = some s.link.drop := by
  cases hc : s.link.current with
  | none =>
    have hd : s.link.drop = s.link := by rw [Link.drop, ← hc]
    simp [farewell, hc, hd]
  | some k => simp [farewell, hc]

@[simp] theorem follow_release (code : Nat) (reason : String) :
    s.link.follow (s.release code reason) = some s.link.drop := by
  simp [release, Link.follow_append]

@[simp] theorem follow_beat (l : Link) (k : Nat) (interval : Span) :
    l.follow (s.beat k interval) = some l := by
  cases hb : s.heartbeatTask <;> simp [beat, hb]

section Acts

-- The link is named apart from the session: most acts begin at a session that a step has changed
-- already, with the link as it was.
variable {l : Link} (hl : s.link = l)
include hl

theorem follow_dial : l.follow (s.dial c).2 = some (s.dial c).1.link := by
  subst hl
  simp [dial, dialed, idle, Link.renew, Link.follow_append]

theorem follow_redial {reason : String} :
    l.follow (s.redial c reason).2 = some (s.redial c reason).1.link := by
  subst hl
  simp [redial, dialed, idle, Link.renew, Link.follow_append]

theorem follow_fail {cause : FatalCause} :
    l.follow (s.fail cause).2 = some (s.fail cause).1.link := by
  subst hl
  simp [fail, failed, released, idle, Link.follow_append]

theorem follow_retreat {reason : String} :
    l.follow (s.retreat c m reason).2 = some (s.retreat c m reason).1.link := by
  subst hl
  cases he : s.exceeded? c <;>
    simp [retreat, he, failed, planned, released, idle, Link.follow_append]

theorem follow_leave {reason : String} :
    l.follow (s.leave c m reason).2 = some (s.leave c m reason).1.link := by
  by_cases hr : s.canResume = true
  · simpa [leave, hr] using follow_redial hl
  · simpa [leave, hr] using follow_retreat hl

theorem follow_deliver {payload : String} :
    l.follow (s.deliver c m payload).2 = some (s.deliver c m payload).1.link := by
  cases hm : m.sending with
  | ok _ =>
    subst hl
    cases hc : s.link.current <;> simp [deliver, hm, hc]
  | error failure => simpa [deliver, hm] using follow_retreat hl

theorem follow_await {k : Nat} : l.follow (s.await k).2 = some (s.await k).1.link := by
  subst hl
  cases hi : s.identifyTask <;> simp [await, awaiting, hi]

theorem follow_accept {kind : String} {q : Nat} {data : Json} :
    l.follow (s.accept kind q data).2 = some (s.accept kind q data).1.link := by
  subst hl
  cases hw : welcome? kind data with
  | some info =>
    rw [accept_welcome s hw]
    rfl
  | none =>
    by_cases hkind : kind = "RESUMED"
    · subst hkind
      rw [accept_resumed]
      rfl
    · rw [accept_other s hw hkind]
      rfl

theorem follow_lose {code : Option Nat} {reason : String} :
    l.follow (s.lose c m code reason).2 = some (s.lose c m code reason).1.link := by
  have hlost : (s.lost code).link = l := hl
  rw [lose, snd_following, fst_following, List.append_assoc, Link.follow_append, follow_taskEnds]
  cases CloseAction.ofCode code with
  | authenticationFailed => exact follow_fail hlost
  | fatal => exact follow_fail hlost
  | reidentify =>
    have hforget : (s.lost code).forget.link = l := hl
    exact follow_retreat hforget
  | resume => exact follow_retreat hlost

theorem follow_meets {k : Nat} {message : Message} {r : Session × List Effect}
    (h : Meets c m s k message r) : l.follow r.2 = some r.1.link := by
  cases h with
  | greet ms _ => simp [beating, hl]
  | resume ms _ _ _ =>
    rw [snd_following, Link.follow_append, follow_beat]
    refine follow_deliver ?_
    exact hl
  | ask ms _ _ =>
    rw [snd_following, Link.follow_append, follow_beat]
    refine follow_await ?_
    exact hl
  | pulse =>
    refine follow_deliver ?_
    exact hl
  | ack => simp [acked, Link.follow, hl]
  | leave => exact follow_leave hl
  | redial _ => exact follow_redial hl
  | reject _ _ =>
    refine follow_await ?_
    exact hl
  | accept kind q data _ => exact follow_accept hl
  | skip _ _ _ _ => simp [hl]
  | unknown _ => simp [hl]

end Acts

/-- Every step leaves the link as its effects do. -/
theorem follow_happens {i : Input} {r : Session × List Effect} (h : Happens c m s i r) :
    s.link.follow r.2 = some r.1.link := by
  cases h with
  | start _ => exact follow_dial rfl
  | restart =>
    rw [snd_following, Link.follow_append, follow_release]
    refine follow_dial ?_
    rfl
  | shutdown => simp [shut, released, idle]
  | stop => simp [stopped, idle]
  | command op data w _ _ _ => cases hc : s.link.current <;> simp [hc]
  | message _ _ _ _ hr => exact follow_meets (s := s.heard m) rfl hr
  | close _ code reason _ => exact follow_lose rfl
  | fail _ reason _ _ => exact follow_retreat rfl
  | due _ _ _ =>
    refine follow_deliver ?_
    rfl
  | dead _ _ _ =>
    refine follow_leave ?_
    rfl
  | denied _ failure _ _ =>
    refine follow_retreat ?_
    rfl
  | identify _ _ _ =>
    refine follow_deliver ?_
    rfl
  | reconnect _ _ _ => exact follow_dial rfl
  | _ => simp [heard]

end Session

/-! ## Transports -/

namespace Transport

/-- Does what an effect asks of a transport. -/
def obey (t : Transport) : Session.Effect → Transport
  | .connect _ url => (t.dial url).1
  | .close _ code reason => t.close code reason
  | .send _ payload => t.send (.ofString payload)
  | _ => t

/-- A transport obeys effects one by one, while its connections may go on by themselves. -/
inductive Serves : Transport → List Session.Effect → Transport → Prop where
  | done (t : Transport) : Serves t [] t
  | obey {t u : Transport} (e : Session.Effect) {es : List Session.Effect}
      (h : Serves (t.obey e) es u) : Serves t (e :: es) u
  | drift {t u : Transport} (connections : Table Nat Connection) {es : List Session.Effect}
      (h : Serves { t with connections } es u) : Serves t es u

/-- A transport that does what it is asked has the link that the effects account for. -/
theorem link_serves {t u : Transport} {es : List Session.Effect} (h : Serves t es u) {l : Link}
    (hl : t.link.follow es = some l) : u.link = l := by
  induction h with
  | done t => simpa using hl
  | drift connections _ ih => exact ih hl
  | @obey t u e es _ ih =>
    refine ih ?_
    cases e with
    | connect k url =>
      obtain ⟨⟨hnone, -⟩, hrest⟩ : (t.link.current = none ∧ k = t.link.begun + 1) ∧
          t.link.renew.follow es = some l := by simpa using hl
      rwa [Transport.obey, link_dial hnone]
    | close k code reason =>
      obtain ⟨hk, hrest⟩ : t.link.current = some k ∧ t.link.drop.follow es = some l := by
        simpa using hl
      rwa [Transport.obey, link_close hk]
    | send k payload =>
      obtain ⟨-, hrest⟩ : t.link.current = some k ∧ t.link.follow es = some l := by
        simpa using hl
      rwa [Transport.obey, link_send]
    | _ => exact hl

end Transport

namespace Session

/-! ## The coupling -/

/-- What holds of a session between two steps. -/
structure Coupled (s : Session) : Prop where
  /-- A connection is heard in the phases that have one. -/
  connected : s.connection.isSome = true ↔ s.phase.isConnected = true
  /-- None is heard in the others. -/
  apart : s.connection = none ↔
    s.phase = .disconnected ∨ s.phase = .reconnectPending ∨ s.phase = .fatal
  /-- The phase in between is never seen. -/
  settled : s.phase ≠ .resuming
  /-- The connection that is heard is the current one of the link. -/
  link : s.connection = s.link.current
  /-- Without a connection nothing is held that belongs to one. -/
  tasks : s.connection = none → s.heartbeatTask = none ∧ s.identifyTask = none
  /-- The server accepts a session with an event. -/
  ready : s.phase.isReady = true → s.sequence.isSome = true
  resumable : s.sessionId.isSome = true → s.sequence.isSome = true

variable {c : Config} {m : Moment} {s : Session}

theorem coupled_new (c : Config) (shard : Shard) (now : Instant) : (new c shard now).Coupled := by
  constructor <;> simp [new, Phase.isConnected, Phase.isReady]

section Acts

variable (hr : s.sessionId.isSome = true → s.sequence.isSome = true)
include hr

theorem coupled_dial : (s.dial c).1.Coupled := by
  constructor <;> simp_all [dial, dialed, idle, Phase.isConnected, Phase.isReady, Link.renew]

theorem coupled_redial {reason : String} : (s.redial c reason).1.Coupled := by
  constructor <;> simp_all [redial, dialed, idle, Phase.isConnected, Phase.isReady, Link.renew]

theorem coupled_fail {cause : FatalCause} : (s.fail cause).1.Coupled := by
  constructor <;> simp_all [fail, failed, released, idle, Phase.isConnected, Phase.isReady]

theorem coupled_retreat {reason : String} : (s.retreat c m reason).1.Coupled := by
  cases he : s.exceeded? c <;> constructor <;>
    simp_all [retreat, failed, planned, released, idle, Phase.isConnected, Phase.isReady]

theorem coupled_leave {reason : String} : (s.leave c m reason).1.Coupled := by
  unfold leave
  split
  · exact coupled_redial hr
  · exact coupled_retreat hr

theorem coupled_shut : s.shut.Coupled := by
  constructor <;> simp_all [shut, released, idle, Phase.isConnected, Phase.isReady]

theorem coupled_lose {code : Option Nat} {reason : String} :
    (s.lose c m code reason).1.Coupled := by
  rw [lose, fst_following]
  cases CloseAction.ofCode code with
  | authenticationFailed => exact coupled_fail (s := s.lost code) hr
  | fatal => exact coupled_fail (s := s.lost code) hr
  | reidentify => exact coupled_retreat (s := (s.lost code).forget) (by simp [forget])
  | resume => exact coupled_retreat (s := s.lost code) hr

end Acts

theorem coupled_deliver (h : s.Coupled) {payload : String} :
    (s.deliver c m payload).1.Coupled := by
  unfold deliver
  split
  · exact h
  · exact coupled_retreat h.resumable

/-- A session that hears the current connection, in a phase that has one. -/
theorem coupled_of_connected {k : Nat} (hk : s.connection = some k) (hl : s.link.current = some k)
    (hp : s.phase.isConnected = true) (hready : s.phase.isReady = true → s.sequence.isSome = true)
    (hr : s.sessionId.isSome = true → s.sequence.isSome = true) : s.Coupled where
  connected := by simp [hk, hp]
  apart := by cases hphase : s.phase <;> simp_all [Phase.isConnected]
  settled := by
    intro hphase
    simp [hphase, Phase.isConnected] at hp
  link := by rw [hk, hl]
  tasks := by simp [hk]
  ready := hready
  resumable := hr

theorem Coupled.current (h : s.Coupled) {k : Nat} (hk : s.connection = some k) :
    s.link.current = some k := by
  rw [← h.link, hk]

theorem Coupled.isConnected (h : s.Coupled) {k : Nat} (hk : s.connection = some k) :
    s.phase.isConnected = true := h.connected.mp (by simp [hk])

theorem coupled_beating (h : s.Coupled) {k : Nat} (hk : s.connection = some k) (interval : Span) :
    (s.beating interval).Coupled :=
  coupled_of_connected (k := k) hk (h.current hk) (h.isConnected hk) h.ready h.resumable

theorem coupled_awaiting (h : s.Coupled) {k : Nat} (hk : s.connection = some k) :
    s.awaiting.Coupled :=
  coupled_of_connected (k := k) hk (h.current hk) (h.isConnected hk) h.ready h.resumable

theorem coupled_acked (h : s.Coupled) {k : Nat} (hk : s.connection = some k) :
    (s.acked m).Coupled := by
  by_cases hp : s.phase = .ready
  · have hseq : s.sequence.isSome = true := h.ready (by simp [hp, Phase.isReady])
    exact coupled_of_connected (k := k) hk (h.current hk) (by simp [acked, hp, Phase.isConnected])
      (fun _ => hseq) h.resumable
  · have hphase : (s.acked m).phase = s.phase := by simp [acked, hp]
    refine coupled_of_connected (k := k) hk (h.current hk) ?_ ?_ h.resumable
    · rw [hphase]
      exact h.isConnected hk
    · rw [hphase]
      exact h.ready

theorem coupled_accept (h : s.Coupled) {k : Nat} (hk : s.connection = some k) (kind : String)
    (q : Nat) (data : Json) : (s.accept kind q data).1.Coupled := by
  have hl := h.current hk
  have hp := h.isConnected hk
  cases hw : welcome? kind data with
  | some info =>
    rw [accept_welcome s hw]
    refine coupled_of_connected (k := k) ?_ ?_ ?_ ?_ ?_ <;>
      simp [settled, hk, hl, Phase.isConnected]
  | none =>
    by_cases hkind : kind = "RESUMED"
    · subst hkind
      rw [accept_resumed]
      refine coupled_of_connected (k := k) ?_ ?_ ?_ ?_ ?_ <;>
        simp [settled, hk, hl, Phase.isConnected]
    · rw [accept_other s hw hkind]
      refine coupled_of_connected (k := k) ?_ ?_ ?_ ?_ ?_ <;> simp [hk, hl, hp]

theorem coupled_meets (h : s.Coupled) {k : Nat} (hk : s.connection = some k) {message : Message}
    {r : Session × List Effect} (hr : Meets c m s k message r) : r.1.Coupled := by
  cases hr with
  | greet ms _ => exact coupled_beating h hk _
  | resume ms _ _ _ =>
    have hb := coupled_beating h hk (Span.ofMillis ms)
    refine coupled_deliver ?_
    exact ⟨hb.connected, hb.apart, hb.settled, hb.link, hb.tasks, hb.ready, hb.resumable⟩
  | ask ms _ _ => exact coupled_awaiting (coupled_beating h hk _) hk
  | pulse =>
    refine coupled_deliver ?_
    exact ⟨h.connected, h.apart, h.settled, h.link, h.tasks, h.ready, h.resumable⟩
  | ack => exact coupled_acked h hk
  | leave => exact coupled_leave h.resumable
  | redial _ => exact coupled_redial h.resumable
  | reject _ _ =>
    refine coupled_awaiting (s := s.rejected) ?_ hk
    refine coupled_of_connected (k := k) hk (h.current hk) ?_ ?_ ?_ <;>
      simp [rejected, forget, Phase.isConnected, Phase.isReady]
  | accept kind q data _ => exact coupled_accept h hk kind q data
  | skip _ _ _ _ => exact h
  | unknown _ => exact h

/-- Every step but the end preserves the coupling. -/
theorem coupled_happens {i : Input} {r : Session × List Effect} (hi : i ≠ .stop)
    (hr : Happens c m s i r) (h : s.Coupled) : r.1.Coupled := by
  have hsame := h
  obtain ⟨hconn, hapart, hset, hlink, htasks, hready, hres⟩ := hsame
  cases hr with
  | start _ => exact coupled_dial h.resumable
  | restart =>
    refine coupled_dial (s := s.renewed) ?_
    simp [renewed, released, idle, forget]
  | shutdown => exact coupled_shut h.resumable
  | stop => exact absurd rfl hi
  | refuse _ _ _ _ => exact ⟨hconn, hapart, hset, hlink, htasks, hready, hres⟩
  | command _ _ _ _ _ _ => exact ⟨hconn, hapart, hset, hlink, htasks, hready, hres⟩
  | opened k hk =>
    refine coupled_of_connected (k := k) hk (h.current hk) ?_ ?_ h.resumable <;>
      simp [Phase.isConnected, Phase.isReady]
  | mumble _ _ _ _ _ => exact ⟨hconn, hapart, hset, hlink, htasks, hready, hres⟩
  | message k _ hk _ hm =>
    refine coupled_meets (s := s.heard m) ?_ hk hm
    exact ⟨hconn, hapart, hset, hlink, htasks, hready, hres⟩
  | close _ _ _ _ => exact coupled_lose h.resumable
  | fail _ _ _ _ => exact coupled_retreat h.resumable
  | due _ _ _ =>
    refine coupled_deliver ?_
    exact ⟨hconn, hapart, hset, hlink, htasks, hready, hres⟩
  | dead _ _ _ =>
    refine coupled_leave ?_
    exact hres
  | late _ _ _ =>
    exact ⟨hconn, hapart, hset, hlink, fun hn => ⟨(htasks hn).1, rfl⟩, hready, hres⟩
  | denied _ _ _ _ =>
    refine coupled_retreat ?_
    exact hres
  | identify _ _ _ =>
    refine coupled_deliver ?_
    exact ⟨hconn, hapart, hset, hlink, fun hn => ⟨(htasks hn).1, rfl⟩, hready, hres⟩
  | reconnect _ _ _ => exact coupled_dial h.resumable
  | _ => exact h

/-! ## Runs -/

theorem coupled_run (hcoupled : s.Coupled) {inputs : List (Moment × Input)}
    (hstop : ∀ x ∈ inputs, x.2 ≠ .stop) : (run c s inputs).1.Coupled :=
  run_preserves (p := (· ≠ .stop)) (P := fun s _ => s.Coupled)
    (fun _ _ _ _ _ hi hr hs => coupled_happens hi hr hs) inputs hstop s [] hcoupled

/-- What belongs to a connection that is not heard changes nothing; at most a wait is no longer
held that is over. -/
theorem step_stale {k : Nat} (h : s.connection ≠ some k) :
    (∀ e, step c s m (.inbound k e) = (s, [])) ∧
      step c s m (.heartbeatDue k) = (s, []) ∧
      ∀ outcome, step c s m (.admitted k outcome) = ({ s with identifyTask := none }, []) := by
  refine ⟨fun e => ?_, ?_, fun outcome => ?_⟩
  · simp [step, Turn.handle, h]
  · simp [step, Turn.handle, h]
  · simp [step, Turn.handle, Turn.onAdmitted, h]

/-- After every run of a session that has not ended, the session is coupled to its connection, the
connection is the current one of every transport that obeys the session, connections are numbered
upwards, and what belongs to another connection is passed over. -/
theorem run_coupled (c : Config) (shard : Shard) (now : Instant) (inputs : List (Moment × Input))
    (hstop : ∀ x ∈ inputs, x.2 ≠ .stop) :
    let s := (run c (new c shard now) inputs).1
    let es := (run c (new c shard now) inputs).2.flatten
    s.Coupled ∧
      (∀ mode t, Transport.Serves { mode } es t → t.link.current = s.connection) ∧
      (es.filterMap Effect.begun?).Pairwise (· < ·) ∧
      ∀ m k, s.connection ≠ some k →
        (∀ e, step c s m (.inbound k e) = (s, [])) ∧
          step c s m (.heartbeatDue k) = (s, []) ∧
          ∀ outcome, step c s m (.admitted k outcome) = ({ s with identifyTask := none }, []) := by
  intro s es
  have hall : s.Coupled ∧ Link.follow {} es = some s.link := by
    refine run_preserves (p := (· ≠ .stop))
      (P := fun s es => s.Coupled ∧ Link.follow {} es = some s.link) ?_ inputs hstop _ []
      ⟨coupled_new c shard now, rfl⟩
    intro s es m i r hi hr ⟨hs, hes⟩
    refine ⟨coupled_happens hi hr hs, ?_⟩
    rw [Link.follow_append, hes]
    exact follow_happens hr
  obtain ⟨hs, hes⟩ := hall
  refine ⟨hs, fun mode t ht => ?_, ?_, fun m k hk => step_stale hk⟩
  · rw [Transport.link_serves ht hes, hs.link]
  · rw [(Link.begun_follow hes).2]
    exact List.pairwise_lt_range'

/-- A restart takes the second connection, and a transport that obeys is at the second as well; the
greeting of the first is passed over. -/
theorem run_coupled_restart :
    let m : Moment := ⟨0, true, .ok (), 0⟩
    let inputs : List (Moment × Input) := [(m, .start), (m, .inbound 1 .opened), (m, .restart)]
    let s := (run {} (new {} ⟨0, 1⟩ 0) inputs).1
    (∀ x ∈ inputs, x.2 ≠ .stop) ∧ s.connection = some 2 ∧ s.phase = .connecting ∧
      (∀ mode t, Transport.Serves { mode } (run {} (new {} ⟨0, 1⟩ 0) inputs).2.flatten t →
        t.link.current = some 2) ∧
      step {} s m (.inbound 1 .opened) = (s, []) := by
  intro m inputs s
  have hstop : ∀ x ∈ inputs, x.2 ≠ .stop := by simp [inputs]
  obtain ⟨-, hlink, -, hstale⟩ := run_coupled {} ⟨0, 1⟩ 0 inputs hstop
  exact ⟨hstop, rfl, rfl, hlink, (hstale m 1 (by decide)).1 .opened⟩

end Session

end Switchboard
