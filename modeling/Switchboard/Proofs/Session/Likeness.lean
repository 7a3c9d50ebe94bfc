import Switchboard.Proofs.Session.Steps

/-!
# Sessions that are alike

Two sessions are alike if they are the same up to their numbers, their statistics and their tasks:
one counts connections and planned reconnects on from certain numbers. None of this is seen in what
a session does: each act leads from sessions that are alike to such, and what is seen of it is the
same up to the numbers.

## Main definitions

* `Session.Alike`: the same but for a shift of the numbers, statistics and tasks.
* `Session.seen`: the effects of a session that others see, all but those on its tasks.
* `Session.Matches`: sessions that are alike, with effects of which the same is seen.

## Main results

* `Session.Alike.step`: sessions that are alike take steps that match.
-/
namespace Switchboard

/-- The link with its connections counted on from `b`. -/
def Link.shift (b : Nat) (l : Link) : Link := ⟨b + l.begun, l.current.map (b + ·)⟩

namespace Session

/-! ## Numbers that are counted on -/

/-- The input, about the connections and reconnects that are counted on. -/
def Input.shift (b e : Nat) : Input → Input
  | .inbound k event => .inbound (b + k) event
  | .heartbeatDue k => .heartbeatDue (b + k)
  | .admitted k outcome => .admitted (b + k) outcome
  | .reconnectDue n => .reconnectDue (e + n)
  | i => i

namespace Effect

/-- The effect, on the connections and reconnects that are counted on. -/
def shift (b e : Nat) : Effect → Effect
  | .connect k url => .connect (b + k) url
  | .close k code reason => .close (b + k) code reason
  | .send k payload => .send (b + k) payload
  | .beginHeartbeat task k interval => .beginHeartbeat task (b + k) interval
  | .beginIdentify task k => .beginIdentify task (b + k)
  | .plan n delay => .plan (e + n) delay
  | x => x

/-- The effect is on a task of the session, and nobody else sees it. -/
def isHidden : Effect → Bool
  | .beginHeartbeat .. | .endHeartbeat _ | .beginIdentify .. | .endIdentify _ => true
  | _ => false

end Effect

/-- The effect, if others see it. -/
def Effect.seen? (x : Effect) : Option Effect := if x.isHidden then none else some x

@[simp] theorem Effect.toList_seen? (x : Effect) :
    x.seen?.toList = if x.isHidden then [] else [x] := by
  cases h : x.isHidden <;> simp [seen?, h]

/-- The effects that others see. -/
abbrev seen (es : List Effect) : List Effect := select Effect.seen? es

@[simp] theorem seen_taskEnds (s : Session) : seen s.taskEnds = [] := by
  cases hb : s.heartbeatTask <;> cases hi : s.identifyTask <;>
    simp [taskEnds, hb, hi, Effect.isHidden]

@[simp] theorem seen_farewell (s : Session) (code : Nat) (reason : String) :
    seen (s.farewell code reason) = s.farewell code reason := by
  cases hc : s.link.current <;> simp [farewell, hc, Effect.isHidden]

@[simp] theorem seen_release (s : Session) (code : Nat) (reason : String) :
    seen (s.release code reason) = s.farewell code reason := by
  simp [release]

@[simp] theorem seen_beat (s : Session) (k : Nat) (interval : Span) :
    seen (s.beat k interval) = [] := by
  cases hb : s.heartbeatTask <;> simp [beat, hb, Effect.isHidden]

@[simp] theorem seen_await (s : Session) (k : Nat) : seen (s.await k).2 = [] := by
  cases hi : s.identifyTask <;> simp [await, hi, Effect.isHidden]

/-! ## Sessions that are alike -/

/-- The second session is the first with its connections and reconnects counted on, but for
statistics and tasks. -/
structure Alike (b e : Nat) (s t : Session) : Prop where
  shard : t.shard = s.shard
  phase : t.phase = s.phase
  connection : t.connection = s.connection.map (b + ·)
  link : t.link = s.link.shift b
  handshakeSent : t.handshakeSent = s.handshakeSent
  sessionId : t.sessionId = s.sessionId
  resumeUrl : t.resumeUrl = s.resumeUrl
  sequence : t.sequence = s.sequence
  heartbeat : t.heartbeat = s.heartbeat
  backoff : t.backoff = s.backoff
  attempt : t.attempt = s.attempt
  epoch : t.epoch = e + s.epoch
  commands : t.commands = s.commands
  fatal : t.fatal = s.fatal

/-- Sessions that are alike, with effects of which the same is seen. -/
structure Matches (b e : Nat) (r r' : Session × List Effect) : Prop where
  alike : Alike b e r.1 r'.1
  seen : Session.seen r'.2 = (Session.seen r.2).map (Effect.shift b e)

variable {b e : Nat} {c : Config} {m : Moment} {s t : Session}

theorem Alike.canResume (h : Alike b e s t) : t.canResume = s.canResume := by
  simp [Session.canResume, h.sessionId, h.sequence]

theorem Alike.nextUrl (h : Alike b e s t) : nextUrl c t = nextUrl c s := by
  simp [Session.nextUrl, h.canResume, h.resumeUrl]

theorem Alike.begun (h : Alike b e s t) : t.link.begun = b + s.link.begun :=
  congrArg Link.begun h.link

theorem Alike.current (h : Alike b e s t) : t.link.current = s.link.current.map (b + ·) :=
  congrArg Link.current h.link

theorem Alike.heard_iff (h : Alike b e s t) (k : Nat) :
    t.connection = some (b + k) ↔ s.connection = some k := by
  cases hk : s.connection <;> simp [h.connection, hk]

theorem Alike.farewell (h : Alike b e s t) (code : Nat) (reason : String) :
    t.farewell code reason = (s.farewell code reason).map (Effect.shift b e) := by
  cases hk : s.link.current <;> simp [Session.farewell, h.current, hk, Effect.shift]

theorem Matches.following {r r' : Session × List Effect} {es fs : List Effect}
    (h : Matches b e r r') (hes : Session.seen fs = (Session.seen es).map (Effect.shift b e)) :
    Matches b e (following es r) (following fs r') :=
  ⟨h.alike, by simp [hes, h.seen]⟩

/-! ## Acts -/

theorem Alike.idle (h : Alike b e s t) : Alike b e s.idle t.idle :=
  { h with heartbeat := congrArg Heartbeat.reset h.heartbeat }

theorem Alike.released (h : Alike b e s t) : Alike b e s.released t.released :=
  { h.idle with connection := rfl, link := congrArg Link.drop h.link }

theorem Alike.forget (h : Alike b e s t) : Alike b e s.forget t.forget :=
  { h with sessionId := rfl, resumeUrl := rfl, sequence := rfl }

theorem Alike.dialed (h : Alike b e s t) : Alike b e (s.dialed c) (t.dialed c) :=
  { h.idle with
    handshakeSent := rfl, fatal := rfl, commands := rfl, phase := rfl
    link := congrArg Link.renew h.link
    connection := by simp [Session.dialed, h.begun, Nat.add_assoc] }

theorem Alike.dial (h : Alike b e s t) : Matches b e (s.dial c) (t.dial c) where
  alike := h.dialed
  seen := by
    simp [Session.dial, h.farewell, h.nextUrl, h.begun, Nat.add_assoc, Effect.isHidden,
      Effect.shift]

theorem Alike.redial (h : Alike b e s t) (reason : String) :
    Matches b e (s.redial c reason) (t.redial c reason) where
  alike := { h.dialed with }
  seen := by
    simp [Session.redial, h.farewell, h.nextUrl, h.begun, Nat.add_assoc, Effect.isHidden,
      Effect.shift]

theorem Alike.failed (h : Alike b e s t) (cause : FatalCause) :
    Alike b e (s.failed cause) (t.failed cause) :=
  { h.released with phase := rfl, fatal := rfl, epoch := congrArg (· + 1) h.epoch }

theorem Alike.fail (h : Alike b e s t) (cause : FatalCause) :
    Matches b e (s.fail cause) (t.fail cause) where
  alike := h.failed cause
  seen := by simp [Session.fail, h.farewell, Effect.isHidden, Effect.shift]

theorem Alike.planned (h : Alike b e s t) : Alike b e (s.planned m) (t.planned m) :=
  { h.released with
    attempt := by simp [Session.planned, nextAttempt, h.attempt]
    backoff := by simp [Session.planned, h.backoff]
    phase := rfl
    epoch := congrArg (· + 1) h.epoch }

theorem Alike.retreat (h : Alike b e s t) (reason : String) :
    Matches b e (s.retreat c m reason) (t.retreat c m reason) := by
  have hnext : t.nextAttempt = s.nextAttempt := by simp [nextAttempt, h.attempt]
  have hexceeded : t.exceeded? c = s.exceeded? c := by simp [exceeded?, hnext]
  unfold Session.retreat
  rw [hexceeded]
  cases s.exceeded? c with
  | some most =>
    exact ⟨{ h.failed (gaveUp most reason) with attempt := hnext },
      by simp [h.farewell, Effect.isHidden, Effect.shift]⟩
  | none =>
    refine ⟨h.planned, ?_⟩
    simp [h.farewell, hnext, h.backoff, h.epoch, Nat.add_assoc, Effect.isHidden, Effect.shift]

theorem Alike.leave (h : Alike b e s t) (reason : String) :
    Matches b e (s.leave c m reason) (t.leave c m reason) := by
  unfold Session.leave
  rw [h.canResume]
  split
  · exact h.redial reason
  · exact h.retreat reason

theorem Alike.lost (h : Alike b e s t) (code : Option Nat) :
    Alike b e (s.lost code) (t.lost code) :=
  { h.idle with connection := rfl }

theorem Alike.lose (h : Alike b e s t) (code : Option Nat) (reason : String) :
    Matches b e (s.lose c m code reason) (t.lose c m code reason) := by
  have hlost := h.lost code
  refine Matches.following ?_ (by simp [Effect.isHidden, Effect.shift])
  cases CloseAction.ofCode code with
  | authenticationFailed => exact hlost.fail _
  | fatal => exact hlost.fail _
  | reidentify => exact hlost.forget.retreat _
  | resume => exact hlost.retreat _

theorem Alike.renewed (h : Alike b e s t) : Alike b e s.renewed t.renewed :=
  { h.released.forget with
    backoff := congrArg Backoff.reset h.backoff
    attempt := rfl, phase := rfl
    epoch := congrArg (· + 1) h.epoch }

theorem Alike.shut (h : Alike b e s t) : Alike b e s.shut t.shut :=
  { h.released with phase := rfl, epoch := congrArg (· + 1) h.epoch }

theorem Alike.stopped (h : Alike b e s t) : Alike b e s.stopped t.stopped :=
  { h.idle with link := congrArg Link.drop h.link }

theorem Alike.deliver (h : Alike b e s t) (p : String) :
    Matches b e (s.deliver c m p) (t.deliver c m p) := by
  unfold Session.deliver
  split
  · refine ⟨h, ?_⟩
    cases hk : s.link.current <;> simp [h.current, hk, Effect.isHidden, Effect.shift]
  · exact h.retreat _

theorem Alike.await (h : Alike b e s t) (k : Nat) :
    Matches b e (s.await k) (t.await (b + k)) :=
  ⟨{ h with }, by simp⟩

theorem Alike.beating (h : Alike b e s t) (interval : Span) :
    Alike b e (s.beating interval) (t.beating interval) :=
  { h with
    heartbeat := congrArg (fun x : Heartbeat => x.reset.setInterval interval) h.heartbeat }

theorem Alike.settled (h : Alike b e s t) : Alike b e s.settled t.settled :=
  { h with backoff := congrArg Backoff.reset h.backoff, attempt := rfl, phase := rfl }

theorem Alike.accept (h : Alike b e s t) (kind : String) (q : Nat) (data : Json) :
    Matches b e (s.accept kind q data) (t.accept kind q data) := by
  have hnext : Alike b e { s with sequence := some q } { t with sequence := some q } :=
    { h with sequence := rfl }
  cases hw : welcome? kind data with
  | some info =>
    rw [accept_welcome _ hw, accept_welcome _ hw]
    exact ⟨{ hnext.settled with sessionId := rfl, resumeUrl := rfl },
      by simp [h.shard, Effect.isHidden, Effect.shift]⟩
  | none =>
    by_cases hk : kind = "RESUMED"
    · subst hk
      rw [accept_resumed, accept_resumed]
      exact ⟨hnext.settled, by simp [h.shard, Effect.isHidden, Effect.shift]⟩
    · rw [accept_other _ hw hk, accept_other _ hw hk]
      exact ⟨hnext, by simp [h.shard, Effect.isHidden, Effect.shift]⟩

/-! ## Turns -/

namespace Turn

/-- Turns that match. -/
structure Likens (b e : Nat) (t u : Turn) : Prop where
  alike : Alike b e t.session u.session
  seen : Session.seen u.effects = (Session.seen t.effects).map (Effect.shift b e)

variable {t u : Turn}

theorem Likens.andThen (h : Likens b e t u) {r r' : Session × List Effect}
    (hr : Matches b e r r') : Likens b e (t.andThen r) (u.andThen r') :=
  ⟨hr.alike, by simp [h.seen, hr.seen]⟩

theorem Likens.update (h : Likens b e t u) {f : Session → Session}
    (hf : Alike b e (f t.session) (f u.session)) : Likens b e (t.update f) (u.update f) :=
  ⟨hf, h.seen⟩

theorem Likens.emit (h : Likens b e t u) (x : Effect) :
    Likens b e (t.emit x) (u.emit (x.shift b e)) := by
  refine ⟨h.alike, ?_⟩
  have hseen : Session.seen [x.shift b e] = (Session.seen [x]).map (Effect.shift b e) := by
    cases x <;> rfl
  simpa [h.seen] using hseen

theorem Likens.connect (h : Likens b e t u) : Likens b e (connect c t) (connect c u) := by
  rw [connect_eq, connect_eq]
  exact h.andThen h.alike.dial

theorem Likens.scheduleReconnect (h : Likens b e t u) (reason : String) :
    Likens b e (t.scheduleReconnect c m reason) (u.scheduleReconnect c m reason) := by
  rw [scheduleReconnect_eq, scheduleReconnect_eq]
  exact h.andThen (h.alike.retreat reason)

theorem Likens.beginResume (h : Likens b e t u) (reason : String) :
    Likens b e (beginResume c m t reason) (beginResume c m u reason) := by
  rw [beginResume_eq, beginResume_eq]
  exact h.andThen (h.alike.leave reason)

theorem Likens.send (h : Likens b e t u) (p : String) :
    Likens b e (send c m t p) (send c m u p) := by
  rw [send_eq, send_eq]
  exact h.andThen (h.alike.deliver p)

theorem Likens.onClosed (h : Likens b e t u) (code : Option Nat) (reason : String) :
    Likens b e (onClosed c m t code reason) (onClosed c m u code reason) := by
  rw [onClosed_eq, onClosed_eq]
  exact h.andThen (h.alike.lose code reason)

theorem Likens.restart (h : Likens b e t u) : Likens b e (restart c t) (restart c u) := by
  rw [restart_eq, restart_eq]
  refine h.andThen (h.alike.renewed.dial.following ?_)
  simp [h.alike.farewell]

theorem Likens.shutdown (h : Likens b e t u) : Likens b e t.shutdown u.shutdown := by
  rw [shutdown_eq, shutdown_eq]
  exact h.andThen ⟨h.alike.shut, by simp [h.alike.farewell]⟩

theorem Likens.stop (h : Likens b e t u) : Likens b e t.stop u.stop := by
  rw [stop_eq, stop_eq]
  exact h.andThen ⟨h.alike.stopped, by simp [h.alike.farewell]⟩

theorem Likens.onDispatch (h : Likens b e t u) (kind : String) (q : Nat) (data : Json) :
    Likens b e (t.onDispatch kind q data) (u.onDispatch kind q data) := by
  have haccepts : u.session.accepts q = t.session.accepts q := by
    simp [accepts, isReplay, h.alike.phase, h.alike.sequence]
  rw [onDispatch_eq, onDispatch_eq, haccepts]
  split
  · exact h.andThen (h.alike.accept kind q data)
  · exact h

theorem Likens.requestIdentify (h : Likens b e t u) {k : Nat} (hk : t.session.connection = some k) :
    Likens b e t.requestIdentify u.requestIdentify := by
  rw [requestIdentify_eq t hk, requestIdentify_eq u ((h.alike.heard_iff k).mpr hk)]
  exact h.andThen (h.alike.await k)

theorem Likens.startHeartbeat (h : Likens b e t u) {k : Nat} (hk : t.session.connection = some k)
    (interval : Span) : Likens b e (t.startHeartbeat interval) (u.startHeartbeat interval) := by
  rw [startHeartbeat_eq t interval hk, startHeartbeat_eq u interval ((h.alike.heard_iff k).mpr hk)]
  exact h.andThen ⟨h.alike.beating interval, by simp⟩

theorem Likens.sendHeartbeat (h : Likens b e t u) :
    Likens b e (sendHeartbeat c m t) (sendHeartbeat c m u) := by
  have hsent : Alike b e (t.session.pulsed m) (u.session.pulsed m) :=
    { h.alike with heartbeat := congrArg (Heartbeat.sent · m.now) h.alike.heartbeat }
  have hsend := (h.update hsent).send (c := c) (m := m) (Payload.heartbeat t.session.sequence)
  unfold Turn.sendHeartbeat
  simp only [session_update, h.alike.sequence]
  exact hsend

theorem Likens.sendResume (h : Likens b e t u) :
    Likens b e (sendResume c m t) (sendResume c m u) := by
  unfold Turn.sendResume
  rw [h.alike.sessionId, h.alike.sequence]
  split
  · refine Likens.send (h.update ?_) _
    exact { h.alike with handshakeSent := rfl }
  · exact h

theorem Likens.onHello (h : Likens b e t u) {k : Nat} (hk : t.session.connection = some k)
    (ms : Nat) : Likens b e (onHello c m t ms) (onHello c m u ms) := by
  have hbeat := h.startHeartbeat hk (Span.ofMillis ms)
  have hk' : (t.startHeartbeat (Span.ofMillis ms)).session.connection = some k := by
    rw [startHeartbeat_eq t _ hk]
    exact hk
  simp only [Turn.onHello, hbeat.alike.phase, hbeat.alike.handshakeSent, hbeat.alike.canResume]
  split
  · split
    · exact hbeat.sendResume
    · exact hbeat.requestIdentify hk'
  · exact hbeat

theorem Likens.onHeartbeatAck (h : Likens b e t u) :
    Likens b e (t.onHeartbeatAck m) (u.onHeartbeatAck m) := by
  unfold Turn.onHeartbeatAck
  simp only [session_update, h.alike.phase, h.alike.heartbeat]
  by_cases hp : t.session.phase = .ready
  · simp only [hp, if_true]
    refine (h.update ?_).update ?_
    · exact { h.alike with heartbeat := rfl }
    · exact { h.alike with heartbeat := rfl, phase := rfl }
  · simp only [hp, if_false]
    refine h.update ?_
    exact { h.alike with heartbeat := rfl }

theorem Likens.onInvalidSession (h : Likens b e t u) {k : Nat}
    (hk : t.session.connection = some k) (resumable : Bool) :
    Likens b e (onInvalidSession c m t resumable) (onInvalidSession c m u resumable) := by
  unfold Turn.onInvalidSession
  rw [h.alike.canResume]
  split
  · exact h.beginResume _
  · have hrejected : Alike b e t.session.rejected u.session.rejected :=
      { h.alike.forget with handshakeSent := rfl, phase := rfl }
    exact (h.update hrejected).requestIdentify hk

theorem Likens.onMessage (h : Likens b e t u) {k : Nat} (hk : t.session.connection = some k)
    (message : Message) : Likens b e (onMessage c m t message) (onMessage c m u message) := by
  cases message with
  | hello ms => exact h.onHello hk ms
  | heartbeat => exact h.sendHeartbeat
  | heartbeatAck => exact h.onHeartbeatAck
  | reconnect => exact h.beginResume _
  | invalidSession resumable => exact h.onInvalidSession hk resumable
  | dispatch kind q data => exact h.onDispatch kind q data
  | unknown op => exact h

theorem Likens.onLinkEvent (h : Likens b e t u) {k : Nat} (hk : t.session.connection = some k)
    (event : LinkEvent) : Likens b e (onLinkEvent c m t event) (onLinkEvent c m u event) := by
  cases event with
  | opened =>
    refine Likens.emit (h.update ?_) (.announce .connected)
    exact { h.alike with phase := rfl }
  | received text =>
    have hheard : Likens b e (t.update (Session.heard m)) (u.update (Session.heard m)) :=
      h.update { h.alike with }
    simp only [Turn.onLinkEvent]
    cases Message.parse text with
    | ok message => exact hheard.onMessage hk message
    | error _ => exact hheard
  | closed code reason => exact h.onClosed code reason
  | failed reason =>
    simp only [Turn.onLinkEvent]
    split
    · exact h
    · exact h.scheduleReconnect reason

theorem Likens.onHeartbeatDue (h : Likens b e t u) :
    Likens b e (onHeartbeatDue c m t) (onHeartbeatDue c m u) := by
  unfold Turn.onHeartbeatDue
  rw [h.alike.heartbeat]
  cases t.session.heartbeat.tick with
  | mk beat tick =>
    have hticked : Likens b e (t.update ({ · with heartbeat := beat }))
        (u.update ({ · with heartbeat := beat })) :=
      h.update { h.alike with heartbeat := rfl }
    cases tick with
    | send => exact hticked.sendHeartbeat
    | dead missed => exact hticked.beginResume _

theorem Likens.sendIdentify (h : Likens b e t u) :
    Likens b e (sendIdentify c m t) (sendIdentify c m u) := by
  unfold Turn.sendIdentify
  simp only [h.alike.shard]
  refine Likens.send (h.update ?_) _
  exact { h.alike with handshakeSent := rfl }

/-- An admission is answered if it comes in time. -/
theorem onAdmitted_eq (t : Turn) (k : Nat) (outcome : Except Failure Unit) :
    onAdmitted c m t k outcome =
      if t.session.connection = some k ∧ t.session.Unshaken then
        match outcome with
        | .error failure =>
          (t.update ({ · with identifyTask := none })).scheduleReconnect c m failure.message
        | .ok () => Turn.sendIdentify c m (t.update ({ · with identifyTask := none }))
      else t.update ({ · with identifyTask := none }) := by
  by_cases hk : t.session.connection = some k <;> by_cases hp : t.session.phase = .identifying <;>
    cases hs : t.session.handshakeSent <;> cases outcome <;>
    simp [onAdmitted, Unshaken, hk, hp, hs]

theorem Likens.onAdmitted (h : Likens b e t u) (k : Nat) (outcome : Except Failure Unit) :
    Likens b e (onAdmitted c m t k outcome) (onAdmitted c m u (b + k) outcome) := by
  have hnext : Likens b e (t.update ({ · with identifyTask := none }))
      (u.update ({ · with identifyTask := none })) :=
    h.update { h.alike with }
  have htime : u.session.connection = some (b + k) ∧ u.session.Unshaken ↔
      t.session.connection = some k ∧ t.session.Unshaken := by
    simp [h.alike.heard_iff, Unshaken, h.alike.phase, h.alike.handshakeSent]
  rw [onAdmitted_eq, onAdmitted_eq]
  simp only [htime]
  split
  · cases outcome with
    | error failure => exact hnext.scheduleReconnect _
    | ok _ => exact hnext.sendIdentify
  · exact hnext

theorem Likens.command (h : Likens b e t u) (op : Nat) (data : Json) :
    Likens b e (command m t op data) (command m u op data) := by
  have hrefusal : commandRefusal? u.session op = commandRefusal? t.session op := by
    simp [commandRefusal?, h.alike.phase, h.alike.shard]
  have hnext (w : Window) : Likens b e (t.update ({ · with commands := w }))
      (u.update ({ · with commands := w })) :=
    h.update { h.alike with commands := rfl }
  simp only [Turn.command, hrefusal, h.alike.commands, session_update, h.alike.current]
  split
  · exact h.emit (.reply _)
  · split
    · exact (hnext _).emit (.reply _)
    · cases m.sending with
      | error failure => exact (hnext _).emit (.reply _)
      | ok _ =>
        cases t.session.link.current with
        | none => exact (hnext _).emit (.reply _)
        | some k => exact ((hnext _).emit (.send k _)).emit (.reply _)

theorem Likens.handle (h : Likens b e t u) (i : Input) :
    Likens b e (handle c m t i) (handle c m u (i.shift b e)) := by
  cases i with
  | start =>
    simp only [Turn.handle, Input.shift, h.alike.phase]
    split
    · exact h.connect
    · exact h
  | restart => exact h.restart
  | shutdown => exact h.shutdown
  | stop => exact h.stop
  | command op data => exact h.command op data
  | inbound k event =>
    simp only [Turn.handle, Input.shift, h.alike.heard_iff]
    split
    case isTrue hk => exact h.onLinkEvent hk event
    case isFalse => exact h
  | heartbeatDue k =>
    simp only [Turn.handle, Input.shift, h.alike.heard_iff]
    split
    · exact h.onHeartbeatDue
    · exact h
  | admitted k outcome => exact h.onAdmitted k outcome
  | reconnectDue n =>
    simp only [Turn.handle, Input.shift, h.alike.phase, h.alike.epoch, Nat.add_left_cancel_iff]
    split
    · exact h.connect
    · exact h

end Turn

/-- Sessions that are alike take steps that match. -/
theorem Alike.step (h : Alike b e s t) (m : Moment) (i : Input) :
    Matches b e (step c s m i) (step c t m (i.shift b e)) :=
  have hturn := Turn.Likens.handle (c := c) (m := m) (t := ⟨s, []⟩) (u := ⟨t, []⟩) ⟨h, rfl⟩ i
  ⟨hturn.alike, hturn.seen⟩

end Session

end Switchboard
