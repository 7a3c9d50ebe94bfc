import Switchboard.Session.Step

/-!
# What the acts of a session come to

Every act of a turn changes the session in one go and adds its effects after those so far. This
module says for each act what the session is then and what is added, as a function of the session
alone; later modules reason with these functions and do not open the acts again.

## Main definitions

* `Session.idle`, `Session.released`: without tasks, and without a connection as well.
* `Session.dial`, `Session.fail`, `Session.retreat`, `Session.redial`: the ways in which a
  connection is left.
* `Session.deliver`, `Session.await`, `Session.beat`: what is done on a connection.
* `Session.accept`, `Session.lose`: what an event and a close of the server come to.
* `Session.Chores`: effects on tasks and connections that tell nobody anything.
* `Session.select`: what a classifier takes of effects.
-/
namespace Switchboard.Session

/-- Effects that stand before those of a further act. -/
def following (es : List Effect) (r : Session × List Effect) : Session × List Effect :=
  (r.1, es ++ r.2)

@[simp] theorem fst_following (es : List Effect) (r : Session × List Effect) :
    (following es r).1 = r.1 := rfl

@[simp] theorem snd_following (es : List Effect) (r : Session × List Effect) :
    (following es r).2 = es ++ r.2 := rfl

/-! ## Leaving a connection -/

/-- The effects of ending the tasks of a connection. -/
def taskEnds (s : Session) : List Effect :=
  s.heartbeatTask.toList.map .endHeartbeat ++ s.identifyTask.toList.map .endIdentify

/-- The effects of giving up the current connection of the link. -/
def farewell (s : Session) (code : Nat) (reason : String) : List Effect :=
  s.link.current.toList.map (.close · code reason)

/-- The effects of ending the tasks and giving up the connection. -/
def release (s : Session) (code : Nat) (reason : String) : List Effect :=
  s.taskEnds ++ s.farewell code reason

/-- No task belongs to the connection, and no heartbeat is outstanding. -/
def idle (s : Session) : Session :=
  { s with heartbeatTask := none, identifyTask := none, heartbeat := s.heartbeat.reset }

/-- The connection is given up with all that belongs to it. -/
def released (s : Session) : Session := { s.idle with link := s.link.drop, connection := none }

/-- A further connection is begun. -/
def dialed (c : Config) (s : Session) : Session :=
  { s.idle with
    handshakeSent := false
    fatal := none
    commands := freshCommands c
    phase := .connecting
    link := s.link.renew
    connection := some (s.link.begun + 1) }

/-- Begins a further connection in the place of the one so far. -/
def dial (c : Config) (s : Session) : Session × List Effect :=
  (s.dialed c, s.release resumeCloseCode "reconnecting" ++
    [.connect (s.link.begun + 1) (nextUrl c s)])

/-- The same for a session that is to be resumed at once. -/
def redial (c : Config) (s : Session) (reason : String) : Session × List Effect :=
  ({ s.dialed c with health := s.health.recordReconnect },
    s.release resumeCloseCode reason ++ [.connect (s.link.begun + 1) (nextUrl c s)])

/-- Stopped for good. -/
def failed (s : Session) (cause : FatalCause) : Session :=
  { s.released with epoch := s.epoch + 1, phase := .fatal, fatal := some cause }

/-- Stops for good. -/
def fail (s : Session) (cause : FatalCause) : Session × List Effect :=
  (s.failed cause, s.release normalCloseCode "fatal" ++
    [.announce (.fatal cause.reason cause.authentication)])

/-- The number of the next attempt to reconnect. -/
def nextAttempt (s : Session) : Nat := min (s.attempt + 1) mostAttempts

/-- A reconnect is planned. -/
def planned (m : Moment) (s : Session) : Session :=
  { s.released with
    attempt := s.nextAttempt
    backoff := (s.backoff.next m.draw).1
    health := s.health.recordReconnect
    phase := .reconnectPending
    epoch := s.epoch + 1 }

/-- The limit on attempts that the next one would exceed. -/
def exceeded? (c : Config) (s : Session) : Option Nat :=
  c.maxReconnectAttempts.filter (· < s.nextAttempt)

/-- Why a session stops that may not reconnect once more. -/
def gaveUp (most : Nat) (reason : String) : FatalCause :=
  ⟨"gave up after " ++ toString most ++ " reconnect attempts: " ++ reason, false⟩

theorem gaveUp_eq (most : Nat) (reason : String) : gaveUp most reason =
    ⟨"gave up after " ++ toString most ++ " reconnect attempts: " ++ reason, false⟩ := rfl

/-- Gives up the connection and plans a reconnect, or stops for good if there were too many. -/
def retreat (c : Config) (m : Moment) (s : Session) (reason : String) : Session × List Effect :=
  match s.exceeded? c with
  | some most =>
    ({ s.failed (gaveUp most reason) with attempt := s.nextAttempt },
      s.release resumeCloseCode "reconnecting" ++
        [.announce (.fatal (gaveUp most reason).reason false)])
  | none =>
    (s.planned m, s.release resumeCloseCode "reconnecting" ++
      [.announce (.reconnectScheduled s.nextAttempt (s.backoff.next m.draw).2),
        .plan (s.epoch + 1) (s.backoff.next m.draw).2])

/-- The server closed the connection: it is no longer heard, and no task belongs to it. -/
def lost (s : Session) (code : Option Nat) : Session :=
  { s.idle with health := s.health.recordClose code, connection := none }

/-- What a close of the server comes to, by its code. -/
def lose (c : Config) (m : Moment) (s : Session) (code : Option Nat) (reason : String) :
    Session × List Effect :=
  following (s.taskEnds ++ [.announce (.disconnected code reason)]) <|
    match CloseAction.ofCode code with
    | .authenticationFailed =>
      (s.lost code).fail ⟨"authentication failed (code " ++ showCode code ++ "): " ++ reason, true⟩
    | .fatal =>
      (s.lost code).fail ⟨"non-recoverable close code " ++ showCode code ++ ": " ++ reason, false⟩
    | .reidentify => (s.lost code).forget.retreat c m reason
    | .resume => (s.lost code).retreat c m reason

/-- What a restart leaves of a session before it connects. -/
def renewed (s : Session) : Session :=
  { s.released.forget with
    backoff := s.backoff.reset, attempt := 0, phase := .disconnected, epoch := s.epoch + 1 }

/-- Without a connection, at the wish of the owner. -/
def shut (s : Session) : Session :=
  { s.released with epoch := s.epoch + 1, phase := .disconnected }

/-- Ended. -/
def stopped (s : Session) : Session := { s.idle with link := s.link.drop }

/-- Gives up the connection: to resume at once, or for a reconnect after a delay if there is nothing
to resume. -/
def leave (c : Config) (m : Moment) (s : Session) (reason : String) : Session × List Effect :=
  if s.canResume then s.redial c reason else s.retreat c m reason

/-! ## On a connection -/

/-- Hands over a payload, or gives up the connection if that fails. -/
def deliver (c : Config) (m : Moment) (s : Session) (payload : String) : Session × List Effect :=
  match m.sending with
  | .ok () => (s, s.link.current.toList.map (.send · payload))
  | .error failure => s.retreat c m failure.message

/-- The session waits for an admission, for a connection. -/
def awaiting (s : Session) : Session :=
  { s with tasks := s.tasks + 1, identifyTask := some s.tasks }

/-- Waits for an admission instead of any wait before. -/
def await (s : Session) (connection : Nat) : Session × List Effect :=
  (s.awaiting, s.identifyTask.toList.map .endIdentify ++ [.beginIdentify s.tasks connection])

/-- Heartbeats of an interval have begun. -/
def beating (s : Session) (interval : Span) : Session :=
  { s with
    heartbeat := s.heartbeat.reset.setInterval interval
    tasks := s.tasks + 1
    heartbeatTask := some s.tasks }

/-- The effects of beginning heartbeats instead of any before. -/
def beat (s : Session) (connection : Nat) (interval : Span) : List Effect :=
  s.heartbeatTask.toList.map .endHeartbeat ++ [.beginHeartbeat s.tasks connection interval]

/-- A message arrived. -/
def heard (m : Moment) (s : Session) : Session :=
  { s with health := s.health.recordMessage m.now }

/-- A heartbeat is outstanding. -/
def pulsed (m : Moment) (s : Session) : Session := { s with heartbeat := s.heartbeat.sent m.now }

/-- A heartbeat was acknowledged. -/
def acked (m : Moment) (s : Session) : Session :=
  { s with
    heartbeat := (s.heartbeat.acked m.now).1
    health := (s.heartbeat.acked m.now).2.elim s.health s.health.recordLatency
    phase := if s.phase = .ready then .heartbeating else s.phase }

/-- The server no longer accepts the session; a fresh one begins on the same connection. -/
def rejected (s : Session) : Session :=
  { s.forget with handshakeSent := false, phase := .identifying }

/-- An event of this number is accepted now. -/
def accepts (s : Session) (sequence : Nat) : Bool :=
  s.phase.acceptsDispatch && !Turn.isReplay s sequence

/-- What an event says of the session that the server made, if it does. -/
def welcome? (kind : String) (data : Json) : Option ReadyInfo :=
  if kind = "READY" then (ReadyInfo.ofData data).toOption else none

/-- The server accepted the session. -/
def settled (s : Session) : Session :=
  { s with backoff := s.backoff.reset, attempt := 0, phase := .ready }

/-- What an accepted event changes. -/
def accept (s : Session) (kind : String) (sequence : Nat) (data : Json) : Session × List Effect :=
  let next := { s with sequence := some sequence }
  let event : Effect := .publish ⟨s.shard.id, kind, sequence, data⟩
  match welcome? kind data with
  | some info =>
    ({ next with sessionId := some info.sessionId, resumeUrl := info.resumeUrl }.settled,
      [.announce (.ready info.sessionId), event])
  | none =>
    if kind = "RESUMED" then (next.settled, [.announce .resumed, event]) else (next, [event])

theorem accept_welcome (s : Session) {kind : String} {q : Nat} {data : Json} {info : ReadyInfo}
    (h : welcome? kind data = some info) :
    s.accept kind q data =
      (({ s with
          sequence := some q
          sessionId := some info.sessionId
          resumeUrl := info.resumeUrl } : Session).settled,
        [.announce (.ready info.sessionId), .publish ⟨s.shard.id, kind, q, data⟩]) := by
  simp only [accept, h]

theorem accept_resumed (s : Session) (q : Nat) (data : Json) :
    s.accept "RESUMED" q data =
      (({ s with sequence := some q } : Session).settled,
        [.announce .resumed, .publish ⟨s.shard.id, "RESUMED", q, data⟩]) := by
  simp [accept, welcome?]

theorem accept_other (s : Session) {kind : String} {q : Nat} {data : Json}
    (h : welcome? kind data = none) (hk : kind ≠ "RESUMED") :
    s.accept kind q data =
      ({ s with sequence := some q }, [.publish ⟨s.shard.id, kind, q, data⟩]) := by
  simp only [accept, h, hk, if_false]

/-- What an event leaves of a session: it changes what is known of the session at the server and how
far it got with it. The event is published, after notices. -/
theorem exists_accept (s : Session) (kind : String) (q : Nat) (data : Json) :
    ∃ id url backoff attempt phase, ∃ told : List Happening,
      s.accept kind q data =
        ({ s with
            sequence := some q
            sessionId := id
            resumeUrl := url
            backoff := backoff
            attempt := attempt
            phase := phase },
          told.map .announce ++ [.publish ⟨s.shard.id, kind, q, data⟩]) := by
  cases hw : welcome? kind data with
  | some info =>
    rw [accept_welcome s hw]
    exact ⟨_, _, _, _, _, [.ready info.sessionId], rfl⟩
  | none =>
    by_cases hk : kind = "RESUMED"
    · subst hk
      rw [accept_resumed]
      exact ⟨_, _, _, _, _, [.resumed], rfl⟩
    · rw [accept_other s hw hk]
      exact ⟨_, _, _, _, _, [], rfl⟩

/-! ## Chores -/

/-- The effect ends a task, begins heartbeats or gives up a connection. -/
def Effect.isChore : Effect → Bool
  | .endHeartbeat _ | .endIdentify _ | .beginHeartbeat .. | .close .. => true
  | _ => false

/-- Nothing else is among the effects. -/
def Chores (es : List Effect) : Prop := ∀ e ∈ es, e.isChore = true

@[simp] theorem chores_nil : Chores [] := by simp [Chores]

@[simp] theorem chores_cons {e : Effect} {es : List Effect} :
    Chores (e :: es) ↔ e.isChore = true ∧ Chores es := List.forall_mem_cons

@[simp] theorem chores_append {es fs : List Effect} :
    Chores (es ++ fs) ↔ Chores es ∧ Chores fs := List.forall_mem_append

@[simp] theorem chores_endIdentify (task : Option Nat) :
    Chores (task.toList.map .endIdentify) := by
  cases task <;> simp [Effect.isChore]

@[simp] theorem chores_endHeartbeat (task : Option Nat) :
    Chores (task.toList.map .endHeartbeat) := by
  cases task <;> simp [Effect.isChore]

@[simp] theorem chores_taskEnds (s : Session) : Chores s.taskEnds := by simp [taskEnds]

@[simp] theorem chores_release (s : Session) (code : Nat) (reason : String) :
    Chores (s.release code reason) := by
  cases hc : s.link.current <;> simp [release, farewell, hc, Effect.isChore]

@[simp] theorem chores_beat (s : Session) (k : Nat) (interval : Span) :
    Chores (s.beat k interval) := by
  simp [beat, Effect.isChore]

/-! ## Selections

Later modules look at one side of what is done: the notices, what is published, the waits that begin.
Each of these is what a classifier takes of the effects. -/

/-- What a classifier takes of effects, in their order. -/
def select {α : Type} (f : Effect → Option α) (es : List Effect) : List α := es.filterMap f

/-- A classifier takes nothing of the effects of a kind. -/
class Effect.Ignores {α : Type} (kind : Effect → Bool) (f : Effect → Option α) : Prop where
  eq_none : ∀ e : Effect, kind e = true → f e = none

section Select

variable {α : Type} {f : Effect → Option α} {p : Effect → Bool} {es : List Effect}

@[simp] theorem select_nil : select f [] = [] := rfl

@[simp] theorem select_cons (e : Effect) (es : List Effect) :
    select f (e :: es) = (f e).toList ++ select f es := by
  cases h : f e <;> simp [select, h]

@[simp] theorem select_append (es fs : List Effect) :
    select f (es ++ fs) = select f es ++ select f fs := List.filterMap_append

theorem select_map {β : Type} (g : β → Effect) (xs : List β) :
    select f (xs.map g) = xs.filterMap (f ∘ g) := List.filterMap_map

theorem mem_select {a : α} : a ∈ select f es ↔ ∃ e ∈ es, f e = some a := List.mem_filterMap

theorem select_eq_nil : select f es = [] ↔ ∀ e ∈ es, f e = none := List.filterMap_eq_nil_iff

theorem select_of_ignores {kind : Effect → Bool} [hf : Effect.Ignores kind f]
    (h : ∀ e ∈ es, kind e = true) : select f es = [] :=
  select_eq_nil.mpr fun e he => hf.eq_none e (h e he)

@[simp] theorem select_of_chores [Effect.Ignores Effect.isChore f] (h : Chores es) :
    select f es = [] := select_of_ignores h

@[simp] theorem select_await [Effect.Ignores Effect.isChore f] (s : Session) (k : Nat) :
    select f (s.await k).2 = (f (.beginIdentify s.tasks k)).toList := by
  simp [await]

/-- A kind of effects is a classifier that takes them as they are. -/
@[simp] theorem toList_guard (p : Effect → Bool) (e : Effect) :
    (Option.guard p e).toList = if p e then [e] else [] := by
  cases h : p e <;> simp [Option.guard, h]

theorem select_guard : select (Option.guard p) es = es.filter p := by
  rw [select, List.filterMap_eq_filter]

end Select

/-! ## The acts of a turn -/

namespace Turn

/-- A turn that goes on with a session and further effects. -/
def andThen (t : Turn) (r : Session × List Effect) : Turn := ⟨r.1, t.effects ++ r.2⟩

@[simp] theorem session_andThen (t : Turn) (r : Session × List Effect) :
    (t.andThen r).session = r.1 := rfl

@[simp] theorem effects_andThen (t : Turn) (r : Session × List Effect) :
    (t.andThen r).effects = t.effects ++ r.2 := rfl

theorem endTasks_eq (t : Turn) : t.endTasks = t.andThen (t.session.idle, t.session.taskEnds) := by
  obtain ⟨s, es⟩ := t
  cases hb : s.heartbeatTask <;> cases hi : s.identifyTask <;>
    simp [endTasks, endHeartbeat, endIdentify, andThen, idle, taskEnds, update, emit, hb, hi]

theorem closeLink_eq (t : Turn) (code : Nat) (reason : String) :
    t.closeLink code reason =
      t.andThen ({ t.session with link := t.session.link.drop }, t.session.farewell code reason) := by
  obtain ⟨s, es⟩ := t
  cases hc : s.link.current with
  | none =>
    have hd : s.link.drop = s.link := by rw [Link.drop, ← hc]
    simp [closeLink, andThen, farewell, hc, hd]
  | some id => simp [closeLink, andThen, farewell, update, emit, hc]

theorem connect_eq (c : Config) (t : Turn) : connect c t = t.andThen (t.session.dial c) := by
  simp [connect, endTasks_eq, closeLink_eq, andThen, update, emit, dial, dialed, idle, release,
    farewell, Link.renew, Link.drop, nextUrl, canResume]

theorem enterFatal_eq (t : Turn) (reason : String) (authentication : Bool) :
    t.enterFatal reason authentication = t.andThen (t.session.fail ⟨reason, authentication⟩) := by
  simp [enterFatal, endTasks_eq, closeLink_eq, andThen, update, emit, announce, enter, detach,
    nextEpoch, fail, failed, released, idle, release, farewell]

/-- What is left to do for a session whose connection was given up already. -/
theorem planReconnect_eq (m : Moment) (t : Turn) :
    planReconnect m t =
      t.andThen
        ({ t.session with
            backoff := (t.session.backoff.next m.draw).1
            health := t.session.health.recordReconnect
            phase := .reconnectPending
            epoch := t.session.epoch + 1 },
          [.announce (.reconnectScheduled t.session.attempt (t.session.backoff.next m.draw).2),
            .plan (t.session.epoch + 1) (t.session.backoff.next m.draw).2]) := by
  simp [planReconnect, andThen, update, emit, announce, nextEpoch]

theorem scheduleReconnect_eq (c : Config) (m : Moment) (t : Turn) (reason : String) :
    t.scheduleReconnect c m reason = t.andThen (t.session.retreat c m reason) := by
  have hstart : (((t.endTasks.closeLink resumeCloseCode "reconnecting").detach.update fun s =>
      { s with attempt := min (s.attempt + 1) mostAttempts }) : Turn) =
      t.andThen ({ t.session.released with attempt := t.session.nextAttempt },
        t.session.release resumeCloseCode "reconnecting") := by
    simp [endTasks_eq, closeLink_eq, detach, update, andThen, released, idle, release, farewell,
      nextAttempt]
  rw [scheduleReconnect, hstart]
  cases hmax : c.maxReconnectAttempts with
  | none =>
    have he : t.session.exceeded? c = none := by simp [exceeded?, hmax]
    simp [retreat, he, planReconnect_eq, andThen, planned, released, idle]
  | some most =>
    by_cases hlt : most < t.session.nextAttempt
    · have he : t.session.exceeded? c = some most := by simp [exceeded?, hmax, hlt]
      simp [retreat, he, hlt, enterFatal_eq, andThen, fail, failed, released, idle, release,
        taskEnds, farewell, gaveUp_eq, Link.drop, Heartbeat.reset]
    · have he : t.session.exceeded? c = none := by simp [exceeded?, hmax, Nat.not_lt.mp hlt]
      simp [retreat, he, hlt, planReconnect_eq, andThen, planned, released, idle]

theorem beginResume_eq (c : Config) (m : Moment) (t : Turn) (reason : String) :
    beginResume c m t reason =
      t.andThen (t.session.leave c m reason) := by
  by_cases h : t.session.canResume = true
  · simp only [beginResume, leave, h, if_true]
    simp [connect_eq, endTasks_eq, closeLink_eq, detach, enter, update, andThen, redial, dial,
      dialed, idle, release, taskEnds, farewell, nextUrl, canResume, Link.drop, Link.renew,
      Heartbeat.reset]
  · simp [beginResume, leave, h, scheduleReconnect_eq]

theorem send_eq (c : Config) (m : Moment) (t : Turn) (payload : String) :
    send c m t payload = t.andThen (t.session.deliver c m payload) := by
  cases hs : m.sending with
  | ok u =>
    cases hc : t.session.link.current <;> simp [send, deliver, hs, hc, andThen, emit]
  | error failure => simp [send, deliver, hs, scheduleReconnect_eq]

theorem requestIdentify_eq (t : Turn) {k : Nat} (h : t.session.connection = some k) :
    t.requestIdentify = t.andThen (t.session.await k) := by
  obtain ⟨s, es⟩ := t
  cases hi : s.identifyTask <;>
    simp_all [requestIdentify, endIdentify, andThen, await, awaiting, update, emit]

theorem startHeartbeat_eq (t : Turn) (interval : Span) {k : Nat}
    (h : t.session.connection = some k) :
    t.startHeartbeat interval = t.andThen (t.session.beating interval, t.session.beat k interval) := by
  obtain ⟨s, es⟩ := t
  cases hb : s.heartbeatTask <;>
    simp_all [startHeartbeat, endHeartbeat, andThen, beat, beating, update, emit]

theorem onClosed_eq (c : Config) (m : Moment) (t : Turn) (code : Option Nat) (reason : String) :
    onClosed c m t code reason = t.andThen (t.session.lose c m code reason) := by
  cases h : CloseAction.ofCode code <;>
    simp [onClosed, lose, h, endTasks_eq, enterFatal_eq, scheduleReconnect_eq, detach, announce,
      update, emit, andThen, lost, idle, taskEnds]

theorem restart_eq (c : Config) (t : Turn) :
    restart c t = t.andThen
      (following (t.session.release normalCloseCode "restart") (t.session.renewed.dial c)) := by
  simp [restart, connect_eq, endTasks_eq, closeLink_eq, detach, nextEpoch, update, andThen, dial,
    renewed, released, idle, forget, release, taskEnds, farewell, Link.drop, dialed]

theorem shutdown_eq (t : Turn) :
    t.shutdown = t.andThen (t.session.shut, t.session.release normalCloseCode "shutdown") := by
  simp [shutdown, endTasks_eq, closeLink_eq, detach, nextEpoch, enter, update, andThen, shut,
    released, idle, release, farewell]

theorem stop_eq (t : Turn) :
    t.stop = t.andThen (t.session.stopped, t.session.release normalCloseCode "shutdown") := by
  simp [stop, endTasks_eq, closeLink_eq, andThen, stopped, idle, release, farewell]

theorem onDispatch_eq (t : Turn) (kind : String) (sequence : Nat) (data : Json) :
    t.onDispatch kind sequence data =
      if t.session.accepts sequence then t.andThen (t.session.accept kind sequence data) else t := by
  by_cases h : t.session.accepts sequence = true
  · have hg : (!t.session.phase.acceptsDispatch || isReplay t.session sequence) = false := by
      simpa [accepts] using h
    by_cases hready : kind = "READY"
    · cases hinfo : ReadyInfo.ofData data <;>
        simp [onDispatch, hg, h, acknowledge, accept, welcome?, hready, hinfo, markReady, settled,
          announce, andThen, update, emit, Except.toOption]
    · by_cases hresumed : kind = "RESUMED" <;>
        simp [onDispatch, hg, h, acknowledge, accept, welcome?, hready, hresumed, markReady,
          settled, announce, andThen, update, emit]
  · have hg : (!t.session.phase.acceptsDispatch || isReplay t.session sequence) = true := by
      cases hp : t.session.phase.acceptsDispatch <;> simp_all [accepts]
    simp [onDispatch, hg, h]

end Turn

end Switchboard.Session
