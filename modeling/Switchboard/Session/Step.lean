import Switchboard.Session.Basic
import Switchboard.Wire.CloseCode

/-!
# What a session does

The step of a session: what an input changes, and which effects follow. A step is put together from
small acts, each of which changes the session and may add effects to those so far.

## Main definitions

* `Session.Turn`: a session with the effects so far.
* The acts: `Turn.connect`, `Turn.scheduleReconnect`, `Turn.enterFatal`, `Turn.beginResume`, …
* `Session.step`: the step.
-/
namespace Switchboard.Session

/-- A session in the middle of a step, with the effects so far. -/
structure Turn where
  session : Session
  effects : List Effect := []

namespace Turn

/-- Changes the session. -/
def update (t : Turn) (f : Session → Session) : Turn := { t with session := f t.session }

/-- Adds an effect. -/
def emit (t : Turn) (e : Effect) : Turn := { t with effects := t.effects ++ [e] }

/-- Enters a phase. -/
def enter (t : Turn) (p : Phase) : Turn := t.update ({ · with phase := p })

/-- Tells what happened to the shard. -/
def announce (t : Turn) (h : Happening) : Turn := t.emit (.announce h)

/-! ## Tasks and connections -/

/-- Ends the heartbeat task, if one is held. -/
def endHeartbeat (t : Turn) : Turn :=
  match t.session.heartbeatTask with
  | some task => (t.update ({ · with heartbeatTask := none })).emit (.endHeartbeat task)
  | none => t

/-- Ends the wait for an admission, if one is held. -/
def endIdentify (t : Turn) : Turn :=
  match t.session.identifyTask with
  | some task => (t.update ({ · with identifyTask := none })).emit (.endIdentify task)
  | none => t

/-- Ends everything that belongs to a connection. -/
def endTasks (t : Turn) : Turn :=
  t.endHeartbeat.endIdentify.update fun s => { s with heartbeat := s.heartbeat.reset }

/-- Gives up the current connection of the link, if there is one. -/
def closeLink (t : Turn) (code : Nat) (reason : String) : Turn :=
  match t.session.link.current with
  | some id =>
    (t.update fun s => { s with link := s.link.drop }).emit (.close id code reason)
  | none => t

/-- No connection is heard. -/
def detach (t : Turn) : Turn := t.update ({ · with connection := none })

/-- Begins a connection. -/
def connect (c : Config) (t : Turn) : Turn :=
  let t := t.endTasks
  let url := nextUrl c t.session
  let t := t.update fun s => { s with
    handshakeSent := false
    fatal := none
    commands := freshCommands c
    phase := .connecting }
  let t := t.closeLink resumeCloseCode "reconnecting"
  let id := t.session.link.begun + 1
  (t.update fun s => { s with link := s.link.renew, connection := some id }).emit (.connect id url)

/-! ## The ways out -/

/-- Voids what was planned. -/
def nextEpoch (t : Turn) : Turn := t.update fun s => { s with epoch := s.epoch + 1 }

/-- Stops for good. -/
def enterFatal (t : Turn) (reason : String) (authentication : Bool) : Turn :=
  (((t.endTasks.closeLink normalCloseCode "fatal").detach.nextEpoch.enter .fatal).update
    ({ · with fatal := some ⟨reason, authentication⟩ })).announce (.fatal reason authentication)

/-- Plans the reconnect after the next delay. -/
def planReconnect (m : Moment) (t : Turn) : Turn :=
  let (backoff, delay) := t.session.backoff.next m.draw
  let t := t.update fun s => { s with
    backoff
    health := s.health.recordReconnect
    phase := .reconnectPending }
  let t := (t.announce (.reconnectScheduled t.session.attempt delay)).nextEpoch
  t.emit (.plan t.session.epoch delay)

/-- Gives up the connection and plans a reconnect, or stops for good when there were too many. -/
def scheduleReconnect (c : Config) (m : Moment) (t : Turn) (reason : String) : Turn :=
  let t := (t.endTasks.closeLink resumeCloseCode "reconnecting").detach.update fun s =>
    { s with attempt := min (s.attempt + 1) mostAttempts }
  match c.maxReconnectAttempts with
  | some most =>
    if most < t.session.attempt then
      t.enterFatal ("gave up after " ++ toString most ++ " reconnect attempts: " ++ reason) false
    else planReconnect m t
  | none => planReconnect m t

/-- Gives up the connection and connects again at once, to resume the session; without one to
resume, a reconnect is planned. -/
def beginResume (c : Config) (m : Moment) (t : Turn) (reason : String) : Turn :=
  if t.session.canResume then
    let t := (t.enter .resuming).update fun s => { s with health := s.health.recordReconnect }
    connect c (t.endTasks.closeLink resumeCloseCode reason).detach
  else t.scheduleReconnect c m reason

/-! ## Sending -/

/-- Sends a payload over the current connection; if that fails, a reconnect is planned. -/
def send (c : Config) (m : Moment) (t : Turn) (payload : String) : Turn :=
  match m.sending, t.session.link.current with
  | .ok (), some id => t.emit (.send id payload)
  | .ok (), none => t
  | .error failure, _ => t.scheduleReconnect c m failure.message

/-- Sends a heartbeat. -/
def sendHeartbeat (c : Config) (m : Moment) (t : Turn) : Turn :=
  let t := t.update fun s => { s with heartbeat := s.heartbeat.sent m.now }
  send c m t (Payload.heartbeat t.session.sequence)

/-- Sends the handshake that takes up the session. -/
def sendResume (c : Config) (m : Moment) (t : Turn) : Turn :=
  match t.session.sessionId, t.session.sequence with
  | some id, some sequence =>
    send c m (t.update ({ · with handshakeSent := true }))
      (Payload.resume c.bareToken id sequence)
  | _, _ => t

/-- Sends a fresh handshake. -/
def sendIdentify (c : Config) (m : Moment) (t : Turn) : Turn :=
  send c m (t.update ({ · with handshakeSent := true }))
    (Payload.identify c.bareToken c.intents t.session.shard c.compression c.system)

/-- Waits for the admission of a fresh handshake, instead of any wait before. -/
def requestIdentify (t : Turn) : Turn :=
  match t.session.connection with
  | none => t
  | some connection =>
    let t := t.endIdentify
    let task := t.session.tasks
    (t.update fun s => { s with tasks := s.tasks + 1, identifyTask := some task }).emit
      (.beginIdentify task connection)

/-- Begins the heartbeats of the connection, with nothing outstanding. -/
def startHeartbeat (t : Turn) (interval : Span) : Turn :=
  let t := t.endHeartbeat.update fun s =>
    { s with heartbeat := s.heartbeat.reset.setInterval interval }
  match t.session.connection with
  | none => t
  | some connection =>
    let task := t.session.tasks
    (t.update fun s => { s with tasks := s.tasks + 1, heartbeatTask := some task }).emit
      (.beginHeartbeat task connection interval)

/-! ## Messages -/

/-- The server accepted the session: counting of attempts begins anew. -/
def markReady (t : Turn) : Turn :=
  t.update fun s => { s with backoff := s.backoff.reset, attempt := 0, phase := .ready }

/-- What an event changes, apart from being published. -/
def acknowledge (t : Turn) (kind : String) (data : Json) : Turn :=
  if kind == "READY" then
    match ReadyInfo.ofData data with
    | .ok info =>
      ((t.announce (.ready info.sessionId)).update fun s =>
        { s with sessionId := some info.sessionId, resumeUrl := info.resumeUrl }).markReady
    | .error _ => t
  else if kind == "RESUMED" then (t.announce .resumed).markReady
  else t

/-- The event was seen before. -/
def isReplay (s : Session) (sequence : Nat) : Bool := s.sequence.any (sequence ≤ ·)

/-- An event of the application: published once, and only while events are accepted. -/
def onDispatch (t : Turn) (kind : String) (sequence : Nat) (data : Json) : Turn :=
  if !t.session.phase.acceptsDispatch || isReplay t.session sequence then t
  else
    let t := t.update ({ · with sequence := some sequence })
    (t.acknowledge kind data).emit (.publish ⟨t.session.shard.id, kind, sequence, data⟩)

/-- The greeting: heartbeats begin, and the handshake if it was not sent. -/
def onHello (c : Config) (m : Moment) (t : Turn) (intervalMs : Nat) : Turn :=
  let t := t.startHeartbeat (Span.ofMillis intervalMs)
  if t.session.phase = .identifying && !t.session.handshakeSent then
    if t.session.canResume then sendResume c m t else t.requestIdentify
  else t

/-- A heartbeat was acknowledged. -/
def onHeartbeatAck (m : Moment) (t : Turn) : Turn :=
  let (heartbeat, latency) := t.session.heartbeat.acked m.now
  let t := t.update fun s => { s with
    heartbeat
    health := latency.elim s.health s.health.recordLatency }
  if t.session.phase = .ready then t.enter .heartbeating else t

/-- The server does not accept the session. If it can still be resumed that is tried, else a fresh
one is begun on the same connection. -/
def onInvalidSession (c : Config) (m : Moment) (t : Turn) (resumable : Bool) : Turn :=
  if resumable && t.session.canResume then beginResume c m t "resumable invalid session"
  else
    (t.update fun s =>
      { s.forget with handshakeSent := false, phase := .identifying }).requestIdentify

/-- A message of the server. -/
def onMessage (c : Config) (m : Moment) (t : Turn) : Message → Turn
  | .hello intervalMs => onHello c m t intervalMs
  | .heartbeat => sendHeartbeat c m t
  | .heartbeatAck => onHeartbeatAck m t
  | .reconnect => beginResume c m t "server requested reconnect"
  | .invalidSession resumable => onInvalidSession c m t resumable
  | .dispatch kind sequence data => t.onDispatch kind sequence data
  | .unknown _ => t

/-- The server closed the connection. -/
def onClosed (c : Config) (m : Moment) (t : Turn) (code : Option Nat) (reason : String) : Turn :=
  let t := (t.update fun s => { s with health := s.health.recordClose code }).endTasks.detach
  let t := t.announce (.disconnected code reason)
  match CloseAction.ofCode code with
  | .authenticationFailed =>
    t.enterFatal ("authentication failed (code " ++ showCode code ++ "): " ++ reason) true
  | .fatal =>
    t.enterFatal ("non-recoverable close code " ++ showCode code ++ ": " ++ reason) false
  | .reidentify => (t.update forget).scheduleReconnect c m reason
  | .resume => t.scheduleReconnect c m reason

/-- News of the connection that is heard. -/
def onLinkEvent (c : Config) (m : Moment) (t : Turn) : LinkEvent → Turn
  | .opened => (t.enter .identifying).announce .connected
  | .received text =>
    let t := t.update fun s => { s with health := s.health.recordMessage m.now }
    match Message.parse text with
    | .ok message => onMessage c m t message
    | .error _ => t
  | .closed code reason => onClosed c m t code reason
  | .failed reason => if m.live then t else t.scheduleReconnect c m reason

/-! ## Inputs -/

/-- Forgets everything but the counters, and connects. -/
def restart (c : Config) (t : Turn) : Turn :=
  let t := (t.endTasks.closeLink normalCloseCode "restart").detach
  let t := t.update fun s =>
    { s.forget with backoff := s.backoff.reset, attempt := 0, phase := .disconnected }
  connect c t.nextEpoch

/-- Closes the connection and stays disconnected. -/
def shutdown (t : Turn) : Turn :=
  ((t.endTasks.closeLink normalCloseCode "shutdown").detach.nextEpoch).enter .disconnected

/-- Ends the session. -/
def stop (t : Turn) : Turn := t.endTasks.closeLink normalCloseCode "shutdown"

/-- Why a command is not sent, as far as opcode and phase go. -/
def commandRefusal? (s : Session) (op : Nat) : Option Failure :=
  if !Opcode.allowsApplication op then
    some (.invalidState ("opcode " ++ toString op ++ " is managed by the session"))
  else if !s.phase.isReady then
    some (.invalidState ("shard " ++ s.shard.render ++ " is " ++ s.phase.name))
  else none

/-- Sends a command of the application, if opcode, phase and rate allow it. -/
def command (m : Moment) (t : Turn) (op : Nat) (data : Json) : Turn :=
  match commandRefusal? t.session op with
  | some failure => t.emit (.reply (.error failure))
  | none =>
    let (commands, answer) := t.session.commands.tryAcquire m.now
    let t := t.update ({ · with commands })
    match answer with
    | .error wait => t.emit (.reply (.error (commands.refusal wait)))
    | .ok () =>
      match m.sending, t.session.link.current with
      | .ok (), some id =>
        (t.emit (.send id (Payload.command op data))).emit (.reply (.ok ()))
      | .ok (), none => t.emit (.reply (.ok ()))
      | .error failure, _ => t.emit (.reply (.error failure))

/-- One heartbeat interval went by. -/
def onHeartbeatDue (c : Config) (m : Moment) (t : Turn) : Turn :=
  let (heartbeat, tick) := t.session.heartbeat.tick
  let t := t.update ({ · with heartbeat })
  match tick with
  | .send => sendHeartbeat c m t
  | .dead _ => beginResume c m t "heartbeat ack timeout"

/-- The wait for an admission is over; one that comes too late is passed over. -/
def onAdmitted (c : Config) (m : Moment) (t : Turn) (connection : Nat)
    (outcome : Except Failure Unit) : Turn :=
  let t := t.update ({ · with identifyTask := none })
  if t.session.connection ≠ some connection || t.session.phase ≠ .identifying ||
      t.session.handshakeSent then t
  else
    match outcome with
    | .error failure => t.scheduleReconnect c m failure.message
    | .ok () => sendIdentify c m t

/-- What an input does. -/
def handle (c : Config) (m : Moment) (t : Turn) : Input → Turn
  | .start => if t.session.phase = .disconnected then connect c t else t
  | .restart => restart c t
  | .shutdown => t.shutdown
  | .stop => t.stop
  | .command op data => command m t op data
  | .inbound connection event =>
    if t.session.connection = some connection then onLinkEvent c m t event else t
  | .heartbeatDue connection =>
    if t.session.connection = some connection then onHeartbeatDue c m t else t
  | .admitted connection outcome => onAdmitted c m t connection outcome
  | .reconnectDue epoch =>
    if epoch = t.session.epoch && t.session.phase = .reconnectPending then connect c t else t

@[simp] theorem session_update (t : Turn) (f : Session → Session) :
    (t.update f).session = f t.session := rfl

@[simp] theorem effects_update (t : Turn) (f : Session → Session) :
    (t.update f).effects = t.effects := rfl

@[simp] theorem session_emit (t : Turn) (e : Effect) : (t.emit e).session = t.session := rfl

@[simp] theorem effects_emit (t : Turn) (e : Effect) : (t.emit e).effects = t.effects ++ [e] := rfl

end Turn

/-- The step of a session. -/
def step (c : Config) (s : Session) (m : Moment) (i : Input) : Session × List Effect :=
  let t := Turn.handle c m { session := s } i
  (t.session, t.effects)

/-- The session after a list of inputs, with the effects of each. -/
def run (c : Config) (s : Session) : List (Moment × Input) → Session × List (List Effect)
  | [] => (s, [])
  | (m, i) :: rest =>
    let (s, effects) := step c s m i
    let (s, later) := run c s rest
    (s, effects :: later)

end Switchboard.Session
