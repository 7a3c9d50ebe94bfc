import Mathlib.Data.List.DropRight
import Switchboard.Proofs.Session.Connections
import Switchboard.Proofs.Session.Heartbeats
import Switchboard.Proofs.Session.Notices

/-!
# What a session counts

The counters of a session change with what arrives on the connection that it hears: texts, closes and
acknowledgements. Beyond that a step counts one reconnect at most: the one that it plans and tells,
or the connection that it begins at once to take the session up. Orders of the owner count nothing.

## Main definitions

* `Recent.Holds`: the items are the end of a series.
* `Session.arrived`: the health of a session after what an input brings.
* `Session.Accounts`: what a step does to the health of a session.
* `Session.Counts`: what a step adds to each counter.

## Main results

* `Recent.Holds.push`: the end of a series that goes on.
* `Session.accounts_happens`: every step is one of three as far as the health goes.
* `Session.counts_happens`: every counter goes on by what it counts.
-/
namespace Switchboard

/-! ## The end of a series -/

namespace Recent

variable {α : Type} {r : Recent α} {xs : List α}

/-- The items are the last of a series. -/
def Holds (r : Recent α) (xs : List α) : Prop := r.items = xs.rtake r.capacity

theorem holds_empty (capacity : Nat) : (empty capacity : Recent α).Holds [] := by
  simp [Holds]

/-- **The series goes on**: the oldest item gives way when all places are taken. -/
theorem Holds.push (h : r.Holds xs) (x : α) : (r.push x).Holds (xs ++ [x]) := by
  have hitems : r.items = xs.drop (xs.length - r.capacity) := h
  have hkept : xs.drop (xs.length - r.capacity) ++ [x] =
      (xs ++ [x]).drop (xs.length - r.capacity) :=
    (List.drop_append_of_le_length (Nat.sub_le ..)).symm
  rw [Holds, items_push, capacity_push, hitems, hkept, List.rtake, List.drop_drop]
  congr 1
  rw [List.length_drop, List.length_append, List.length_singleton]
  omega

theorem Holds.length_items (h : r.Holds xs) : r.items.length = min r.capacity xs.length := by
  rw [h, List.rtake, List.length_drop]
  omega

end Recent

/-- The server acknowledges heartbeats. -/
def Message.isAck : Message → Bool
  | .heartbeatAck => true
  | _ => false

namespace Session

/-! ## What arrives -/

/-- A text arrives on the connection that is heard, whether or not it is a message. -/
def isText (s : Session) : Input → Bool
  | .inbound k (.received _) => s.connection = some k
  | _ => false

/-- The code with which the connection that is heard was closed, if the input tells of that. -/
def close? (s : Session) : Input → Option (Option Nat)
  | .inbound k (.closed code _) => if s.connection = some k then some code else none
  | _ => none

/-- How long an acknowledgement took, if the input is one and a heartbeat is outstanding. -/
def latency? (m : Moment) (s : Session) (i : Input) : Option Span :=
  if s.isAcked i then (s.heartbeat.acked m.now).2 else none

/-- The counters after what the input brings. -/
def arrived (m : Moment) (s : Session) (i : Input) : Health :=
  let heard := if s.isText i then s.health.recordMessage m.now else s.health
  let closed := (s.close? i).elim heard heard.recordClose
  (s.latency? m i).elim closed closed.recordLatency

variable {c : Config} {m : Moment} {s t : Session} {i : Input} {r : Session × List Effect}

/-! ## What a step counts -/

/-- What a step does to the health of a session. -/
inductive Accounts (m : Moment) (s : Session) (i : Input) (r : Session × List Effect) : Prop where
  /-- Nothing is counted but what arrived. -/
  | plain (hh : r.1.health = s.arrived m i) (hp : (notices r.2).countP Happening.isPlan = 0)
      (hr : s.resumes i = false)
  /-- A reconnect is planned, and told. -/
  | plan (hh : r.1.health = (s.arrived m i).recordReconnect)
      (hp : (notices r.2).countP Happening.isPlan = 1) (hr : s.resumes i = false)
      (hphase : r.1.phase = .reconnectPending)
  /-- The session is taken up at once, on a further connection. -/
  | resume (hh : r.1.health = (s.arrived m i).recordReconnect)
      (hp : (notices r.2).countP Happening.isPlan = 0) (hr : s.resumes i = true)
      (hphase : r.1.phase = .connecting)

section Acts

-- Most acts begin at a session `t` that the step has changed already: what arrived was counted.
variable (hh : t.health = s.arrived m i)
include hh

theorem accounts_retreat (before : List Effect)
    (hn : (notices before).countP Happening.isPlan = 0) (hr : s.resumes i = false)
    {reason : String} : Accounts m s i (following before (t.retreat c m reason)) := by
  cases he : t.exceeded? c with
  | some most =>
    refine .plain ?_ ?_ hr
    · simpa [retreat, he, failed, released, idle] using hh
    · simp [retreat, he, hn, Effect.happening?, Happening.isPlan]
  | none =>
    refine .plan ?_ ?_ hr ?_
    · simp [retreat, he, planned, hh]
    · simp [retreat, he, hn, Effect.happening?, Happening.isPlan]
    · simp [retreat, he, planned]

/-- The connection is left for another one at once, or for a reconnect. -/
theorem accounts_leave (hr : s.resumes i = s.canResume) (hs : t.canResume = s.canResume)
    {reason : String} : Accounts m s i (t.leave c m reason) := by
  unfold leave
  split
  case isTrue hyes =>
    refine .resume ?_ ?_ (by rw [hr, ← hs, hyes]) rfl
    · simp [redial, hh]
    · simp [redial, Effect.happening?]
  case isFalse hno =>
    refine accounts_retreat hh [] rfl ?_
    rw [hr, ← hs]
    exact Bool.eq_false_iff.mpr hno

theorem accounts_deliver (before : List Effect) (hn : notices before = [])
    (hr : s.resumes i = false) {p : String} :
    Accounts m s i (following before (t.deliver c m p)) := by
  unfold deliver
  split
  · refine .plain hh ?_ hr
    cases t.link.current <;> simp [hn, Effect.happening?]
  · exact accounts_retreat hh before (by simp [hn]) hr

theorem accounts_fail (before : List Effect) (hn : (notices before).countP Happening.isPlan = 0)
    (hr : s.resumes i = false) {cause : FatalCause} :
    Accounts m s i (following before (t.fail cause)) :=
  .plain hh (by simp [fail, hn, Effect.happening?, Happening.isPlan]) hr

theorem accounts_accept (hr : s.resumes i = false) (kind : String) (q : Nat) (data : Json) :
    Accounts m s i (t.accept kind q data) := by
  cases hw : welcome? kind data with
  | some info =>
    rw [accept_welcome t hw]
    exact .plain hh (by simp [Effect.happening?, Happening.isPlan]) hr
  | none =>
    by_cases hk : kind = "RESUMED"
    · subst hk
      rw [accept_resumed]
      exact .plain hh (by simp [Effect.happening?, Happening.isPlan]) hr
    · rw [accept_other t hw hk]
      exact .plain hh (by simp [Effect.happening?]) hr

end Acts

/-- Nothing is told. -/
theorem Accounts.same (hh : r.1.health = s.arrived m i) (hn : notices r.2 = [])
    (hr : s.resumes i = false) : Accounts m s i r := .plain hh (by simp [hn]) hr

theorem accounts_lose {k : Nat} {code : Option Nat} {reason : String}
    (hk : s.connection = some k) :
    Accounts m s (.inbound k (.closed code reason)) (s.lose c m code reason) := by
  have hh : (s.lost code).health = s.arrived m (.inbound k (.closed code reason)) := by
    simp [arrived, isText, close?, latency?, isAcked, message?, hk, lost]
  have hn : (notices (s.taskEnds ++ [.announce (.disconnected code reason)])).countP
      Happening.isPlan = 0 := by
    simp [Effect.happening?, Happening.isPlan]
  unfold lose
  cases CloseAction.ofCode code with
  | authenticationFailed => exact accounts_fail (t := s.lost code) hh _ hn rfl
  | fatal => exact accounts_fail (t := s.lost code) hh _ hn rfl
  | reidentify => exact accounts_retreat (t := (s.lost code).forget) hh _ hn rfl
  | resume => exact accounts_retreat (t := s.lost code) hh _ hn rfl

theorem accounts_meets {k : Nat} {text : String} (hk : s.connection = some k) {message : Message}
    (ht : Message.parse text = .ok message) (h : Meets c m (s.heard m) k message r) :
    Accounts m s (.inbound k (.received text)) r := by
  have hmessage : s.message? (.inbound k (.received text)) = some message := by
    simp [message?, hk, ht, Except.toOption]
  have hacked : s.isAcked (.inbound k (.received text)) = message.isAck := by
    cases message <;> simp [isAcked, hmessage, Message.isAck]
  -- A text that acknowledges nothing is counted as a text.
  have hheard : message.isAck = false →
      (s.heard m).health = s.arrived m (.inbound k (.received text)) := by
    intro hno
    simp [arrived, isText, close?, latency?, hacked, hno, hk, heard]
  cases h with
  | greet ms _ => exact .same (hheard rfl) (by simp) (by simp [resumes, ht])
  | resume ms _ _ _ =>
    exact accounts_deliver (t := { (s.heard m).beating _ with handshakeSent := true }) (hheard rfl)
      _ (by simp) (by simp [resumes, ht])
  | ask ms _ _ => exact .same (hheard rfl) (by simp [Effect.happening?]) (by simp [resumes, ht])
  | pulse =>
    exact accounts_deliver (t := (s.heard m).pulsed m) (hheard rfl) [] rfl (by simp [resumes, ht])
  | ack =>
    refine .same ?_ rfl (by simp [resumes, ht])
    simp [arrived, isText, close?, latency?, hacked, Message.isAck, hk, acked, heard]
  | leave => exact accounts_leave (hheard rfl) (by simp [resumes, hk, ht]) rfl
  | redial hyes =>
    have hyes' : s.canResume = true := hyes
    refine .resume ?_ (by simp [redial, Effect.happening?]) (by simp [resumes, hk, ht, hyes']) rfl
    rw [← hheard rfl]
    rfl
  | reject resumable hno =>
    have hno' : (resumable && s.canResume) = false := hno
    refine .same (hheard rfl) (by simp [Effect.happening?]) ?_
    cases resumable <;> simp_all [resumes]
  | accept kind q data _ => exact accounts_accept (hheard rfl) (by simp [resumes, ht]) kind q data
  | skip _ _ _ _ => exact .same (hheard rfl) rfl (by simp [resumes, ht])
  | unknown _ => exact .same (hheard rfl) rfl (by simp [resumes, ht])

/-- **Every step** counts what arrived, and beyond that at most one reconnect: one that it plans and
tells, or a connection that it begins at once. -/
theorem accounts_happens (h : Happens c m s i r) : Accounts m s i r := by
  have hdial : ∀ t : Session, notices (t.dial c).2 = [] := by simp [dial, Effect.happening?]
  cases h with
  | start _ => exact .same rfl (hdial _) rfl
  | restart => exact .same rfl (by simp [hdial]) rfl
  | reconnect _ _ _ => exact .same rfl (hdial _) rfl
  | shutdown => exact .same rfl (by simp) rfl
  | stop => exact .same rfl (by simp) rfl
  | refuse _ _ _ _ => exact .same rfl (by simp [Effect.happening?]) rfl
  | command _ _ _ _ _ _ =>
    refine .same rfl ?_ rfl
    cases s.link.current <;> simp [Effect.happening?]
  | stale k e hk =>
    refine .same ?_ rfl ?_
    · cases e <;> simp [arrived, isText, close?, latency?, isAcked, message?, hk]
    · cases e <;> simp [resumes, hk]
  | opened k hk => exact .plain rfl (by simp [Effect.happening?, Happening.isPlan]) rfl
  | mumble k text hk _ ht =>
    have hmessage : s.message? (.inbound k (.received text)) = none := by
      simp [message?, ht, Except.toOption]
    refine .same ?_ rfl (by simp [resumes, ht])
    simp [arrived, isText, close?, latency?, isAcked, hmessage, hk, heard]
  | message _ _ hk ht hr => exact accounts_meets hk ht hr
  | close _ _ _ hk => exact accounts_lose hk
  | fail _ _ _ _ => exact accounts_retreat (t := s) rfl [] rfl rfl
  | staleDue k hk => exact .same rfl rfl (by simp [resumes, hk])
  | @due k hk b hb =>
    exact accounts_deliver (s := s) (t := ({ s with heartbeat := b } : Session).pulsed m) rfl [] rfl
      (by simp [resumes, hb])
  | @dead k hk b _ hb =>
    exact accounts_leave (s := s) (i := .heartbeatDue k) (t := { s with heartbeat := b }) rfl
      (by simp [resumes, hk, hb]) rfl
  | denied _ failure _ _ =>
    exact accounts_retreat (s := s) (t := { s with identifyTask := none }) rfl [] rfl rfl
  | identify _ _ _ =>
    exact accounts_deliver (s := s) (t := { s with identifyTask := none, handshakeSent := true }) rfl
      [] rfl rfl
  | _ => exact .same rfl rfl rfl

/-- A step that stops the session for good counts what arrived. -/
theorem health_of_fatal (h : Happens c m s i r) (hphase : r.1.phase = .fatal) :
    r.1.health = s.arrived m i := by
  cases accounts_happens h with
  | plain hh _ _ => exact hh
  | plan _ _ _ hp => exact absurd (hp.symm.trans hphase) (by simp)
  | resume _ _ _ hp => exact absurd (hp.symm.trans hphase) (by simp)

/-- An order of the owner leaves the counters as they are. -/
theorem health_of_order (h : Happens c m s i r) (hi : i = .restart ∨ i = .shutdown) :
    r.1.health = s.health := by
  rcases hi with rfl | rfl
  · cases h
    rfl
  · cases h
    rfl

/-! ## The counters -/

theorem messages_arrived (m : Moment) (s : Session) (i : Input) :
    (s.arrived m i).messages = s.health.messages + if s.isText i then 1 else 0 := by
  unfold arrived
  cases s.latency? m i <;> cases s.close? i <;> cases s.isText i <;> rfl

theorem reconnects_arrived (m : Moment) (s : Session) (i : Input) :
    (s.arrived m i).reconnects = s.health.reconnects := by
  unfold arrived
  cases s.latency? m i <;> cases s.close? i <;> cases s.isText i <;> rfl

theorem closes_arrived (m : Moment) (s : Session) (i : Input) :
    (s.arrived m i).closes = (s.close? i).elim s.health.closes s.health.closes.push := by
  unfold arrived
  cases s.latency? m i <;> cases s.close? i <;> cases s.isText i <;> rfl

theorem total_arrived (m : Moment) (s : Session) (i : Input) :
    (s.arrived m i).latencies.total =
      s.health.latencies.total + if (s.latency? m i).isSome then 1 else 0 := by
  unfold arrived
  cases s.latency? m i <;> cases s.close? i <;> cases s.isText i <;>
    simp [Health.recordLatency, Health.recordClose, Health.recordMessage]

/-- What a step adds to the counters. -/
structure Counts (m : Moment) (s : Session) (i : Input) (r : Session × List Effect) : Prop where
  messages : r.1.health.messages = s.health.messages + if s.isText i then 1 else 0
  reconnects : r.1.health.reconnects = s.health.reconnects +
    ((notices r.2).countP Happening.isPlan + if s.resumes i then 1 else 0)
  closes : r.1.health.closes = (s.close? i).elim s.health.closes s.health.closes.push
  samples : r.1.health.latencies.total =
    s.health.latencies.total + if (s.latency? m i).isSome then 1 else 0

theorem counts_of_plain (hh : r.1.health = s.arrived m i)
    (hsum : (notices r.2).countP Happening.isPlan + (if s.resumes i then 1 else 0) = 0) :
    Counts m s i r := by
  refine ⟨?_, ?_, ?_, ?_⟩ <;> rw [hh]
  · exact messages_arrived m s i
  · rw [hsum]
    exact reconnects_arrived m s i
  · exact closes_arrived m s i
  · exact total_arrived m s i

theorem counts_of_reconnect (hh : r.1.health = (s.arrived m i).recordReconnect)
    (hsum : (notices r.2).countP Happening.isPlan + (if s.resumes i then 1 else 0) = 1) :
    Counts m s i r := by
  refine ⟨?_, ?_, ?_, ?_⟩ <;> rw [hh]
  · exact messages_arrived m s i
  · rw [hsum]
    exact congrArg Nat.succ (reconnects_arrived m s i)
  · exact closes_arrived m s i
  · exact total_arrived m s i

/-- **Every counter** goes on by what it counts. -/
theorem counts_happens (h : Happens c m s i r) : Counts m s i r := by
  cases accounts_happens h with
  | plain hh hp hr => exact counts_of_plain hh (by simp [hp, hr])
  | plan hh hp hr _ => exact counts_of_reconnect hh (by simp [hp, hr])
  | resume hh hp hr _ => exact counts_of_reconnect hh (by simp [hp, hr])

end Session

end Switchboard
