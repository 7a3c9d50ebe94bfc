import Switchboard.Proofs.Session.Acts

/-!
# What a step can be

Every step of a session is one of a few: `Session.happens_step`. Each comes with the circumstances
under which it is the one, and with the session and the effects in closed form. What is preserved by
steps is proved by cases on this.

## Main definitions

* `Session.Meets`: what a message of the server comes to.
* `Session.Happens`: what an input comes to.
-/
namespace Switchboard.Session

open Turn

/-- The session is in the handshake and has not sent one. -/
def Unshaken (s : Session) : Prop := s.phase = .identifying ∧ s.handshakeSent = false

instance (s : Session) : Decidable s.Unshaken := inferInstanceAs (Decidable (_ ∧ _))

/-- What a message comes to that arrives on the connection `k`. -/
inductive Meets (c : Config) (m : Moment) (s : Session) (k : Nat) :
    Message → Session × List Effect → Prop where
  /-- The greeting, with no handshake to begin. -/
  | greet (ms : Nat) (h : ¬ s.Unshaken) :
    Meets c m s k (.hello ms) (s.beating (Span.ofMillis ms), s.beat k (Span.ofMillis ms))
  /-- The greeting of a connection that takes up the session. -/
  | resume (ms : Nat) (h : s.Unshaken) {id : String} {q : Nat} (hid : s.sessionId = some id)
      (hq : s.sequence = some q) :
    Meets c m s k (.hello ms)
      (following (s.beat k (Span.ofMillis ms))
        (deliver c m { s.beating (Span.ofMillis ms) with handshakeSent := true }
          (Payload.resume c.bareToken id q)))
  /-- The greeting of a connection that needs an admission. -/
  | ask (ms : Nat) (h : s.Unshaken) (hr : s.canResume = false) :
    Meets c m s k (.hello ms)
      (following (s.beat k (Span.ofMillis ms)) ((s.beating (Span.ofMillis ms)).await k))
  /-- The server wants a heartbeat. -/
  | pulse : Meets c m s k .heartbeat ((s.pulsed m).deliver c m (Payload.heartbeat s.sequence))
  | ack : Meets c m s k .heartbeatAck (s.acked m, [])
  /-- The server wants another connection. -/
  | leave : Meets c m s k .reconnect (s.leave c m "server requested reconnect")
  /-- The server does not accept the session now. -/
  | redial (h : s.canResume = true) :
    Meets c m s k (.invalidSession true) (s.redial c "resumable invalid session")
  /-- The server does not accept the session at all. -/
  | reject (resumable : Bool) (h : (resumable && s.canResume) = false) :
    Meets c m s k (.invalidSession resumable) (s.rejected.await k)
  | accept (kind : String) (q : Nat) (data : Json) (h : s.accepts q = true) :
    Meets c m s k (.dispatch kind q data) (s.accept kind q data)
  /-- An event that is not accepted. -/
  | skip (kind : String) (q : Nat) (data : Json) (h : s.accepts q = false) :
    Meets c m s k (.dispatch kind q data) (s, [])
  | unknown (op : Nat) : Meets c m s k (.unknown op) (s, [])

/-- What an input comes to. -/
inductive Happens (c : Config) (m : Moment) (s : Session) :
    Input → Session × List Effect → Prop where
  | start (h : s.phase = .disconnected) : Happens c m s .start (s.dial c)
  /-- Something is connected or planned already. -/
  | unneeded (h : s.phase ≠ .disconnected) : Happens c m s .start (s, [])
  | restart :
    Happens c m s .restart (following (s.release normalCloseCode "restart") (s.renewed.dial c))
  | shutdown : Happens c m s .shutdown (s.shut, s.release normalCloseCode "shutdown")
  | stop : Happens c m s .stop (s.stopped, s.release normalCloseCode "shutdown")
  /-- A command that is not sent. -/
  | refuse (op : Nat) (data : Json) (w : Window) (failure : Failure) :
    Happens c m s (.command op data) ({ s with commands := w }, [.reply (.error failure)])
  /-- A command that is sent, if there is a connection to send it over. -/
  | command (op : Nat) (data : Json) (w : Window) (hop : Opcode.allowsApplication op = true)
      (hp : s.phase.isReady = true) (hm : m.sending = .ok ()) :
    Happens c m s (.command op data)
      ({ s with commands := w },
        s.link.current.toList.map (.send · (Payload.command op data)) ++ [.reply (.ok ())])
  /-- News of a connection that is not heard. -/
  | stale (k : Nat) (e : LinkEvent) (h : s.connection ≠ some k) :
    Happens c m s (.inbound k e) (s, [])
  | opened (k : Nat) (h : s.connection = some k) :
    Happens c m s (.inbound k .opened) ({ s with phase := .identifying }, [.announce .connected])
  /-- A text that is not a message. -/
  | mumble (k : Nat) (text : String) (h : s.connection = some k) (e : Message.Defect)
      (ht : Message.parse text = .error e) :
    Happens c m s (.inbound k (.received text)) (s.heard m, [])
  | message (k : Nat) (text : String) (h : s.connection = some k) {message : Message}
      (ht : Message.parse text = .ok message) {r : Session × List Effect}
      (hr : Meets c m (s.heard m) k message r) :
    Happens c m s (.inbound k (.received text)) r
  | close (k : Nat) (code : Option Nat) (reason : String) (h : s.connection = some k) :
    Happens c m s (.inbound k (.closed code reason)) (s.lose c m code reason)
  /-- The connection failed. -/
  | fail (k : Nat) (reason : String) (h : s.connection = some k) (hl : m.live = false) :
    Happens c m s (.inbound k (.failed reason)) (s.retreat c m reason)
  /-- A failure that the connection survived. -/
  | survive (k : Nat) (reason : String) (h : s.connection = some k) (hl : m.live = true) :
    Happens c m s (.inbound k (.failed reason)) (s, [])
  /-- A heartbeat of a connection that is not heard. -/
  | staleDue (k : Nat) (h : s.connection ≠ some k) : Happens c m s (.heartbeatDue k) (s, [])
  | due (k : Nat) (h : s.connection = some k) {b : Heartbeat} (hb : s.heartbeat.tick = (b, .send)) :
    Happens c m s (.heartbeatDue k)
      ((({ s with heartbeat := b } : Session).pulsed m).deliver c m (Payload.heartbeat s.sequence))
  /-- Too many heartbeats found no acknowledgement. -/
  | dead (k : Nat) (h : s.connection = some k) {b : Heartbeat} {missed : Nat}
      (hb : s.heartbeat.tick = (b, .dead missed)) :
    Happens c m s (.heartbeatDue k)
      (({ s with heartbeat := b } : Session).leave c m "heartbeat ack timeout")
  /-- An admission that comes too late. -/
  | late (k : Nat) (outcome : Except Failure Unit) (h : ¬ (s.connection = some k ∧ s.Unshaken)) :
    Happens c m s (.admitted k outcome) ({ s with identifyTask := none }, [])
  | denied (k : Nat) (failure : Failure) (h : s.connection = some k) (hu : s.Unshaken) :
    Happens c m s (.admitted k (.error failure))
      (({ s with identifyTask := none } : Session).retreat c m failure.message)
  | identify (k : Nat) (h : s.connection = some k) (hu : s.Unshaken) :
    Happens c m s (.admitted k (.ok ()))
      (({ s with identifyTask := none, handshakeSent := true } : Session).deliver c m
        (Payload.identify c.bareToken c.intents s.shard c.compression c.system))
  | reconnect (epoch : Nat) (h : epoch = s.epoch) (hp : s.phase = .reconnectPending) :
    Happens c m s (.reconnectDue epoch) (s.dial c)
  /-- A reconnect that is no longer planned. -/
  | void (epoch : Nat) (h : ¬ (epoch = s.epoch ∧ s.phase = .reconnectPending)) :
    Happens c m s (.reconnectDue epoch) (s, [])

variable {c : Config} {m : Moment} {s : Session}

/-- Without an identifier and a number at hand, nothing can be resumed. -/
theorem canResume_eq_true : s.canResume = true ↔
    ∃ id q, s.sessionId = some id ∧ s.sequence = some q := by
  cases hi : s.sessionId <;> cases hq : s.sequence <;> simp [canResume, hi, hq]

theorem meets_onMessage {k : Nat} (h : s.connection = some k) (es : List Effect)
    (message : Message) :
    ∃ r, Turn.onMessage c m ⟨s, es⟩ message = Turn.andThen ⟨s, es⟩ r ∧
      Meets c m s k message r := by
  cases message with
  | hello ms =>
    have hb := startHeartbeat_eq ⟨s, es⟩ (Span.ofMillis ms) h
    by_cases hu : s.Unshaken
    · by_cases hr : s.canResume = true
      · obtain ⟨id, q, hid, hq⟩ := canResume_eq_true.mp hr
        refine ⟨_, ?_, .resume ms hu hid hq⟩
        have hu' := hu
        simp_all [onMessage, onHello, sendResume, send_eq, update, Turn.andThen, Unshaken, beating,
          canResume]
      · refine ⟨_, ?_, .ask ms hu (by simpa using hr)⟩
        have hk : (s.beating (Span.ofMillis ms)).connection = some k := h
        have ha := requestIdentify_eq
          (Turn.andThen ⟨s, es⟩ (s.beating (Span.ofMillis ms), s.beat k (Span.ofMillis ms))) hk
        simp_all [onMessage, onHello, Turn.andThen, Unshaken, beating, canResume]
    · exact ⟨_, by simp_all [onMessage, onHello, Unshaken, beating], .greet ms hu⟩
  | heartbeat =>
    exact ⟨_, by simp [onMessage, sendHeartbeat, send_eq, update, pulsed, Turn.andThen], .pulse⟩
  | heartbeatAck =>
    refine ⟨_, ?_, .ack⟩
    by_cases hp : s.phase = .ready <;>
      simp [onMessage, onHeartbeatAck, update, enter, Turn.andThen, acked, hp]
  | reconnect => exact ⟨_, beginResume_eq .., .leave⟩
  | invalidSession resumable =>
    by_cases hr : (resumable && s.canResume) = true
    · obtain ⟨rfl, hs⟩ : resumable = true ∧ s.canResume = true := by simpa using hr
      refine ⟨_, ?_, .redial hs⟩
      simp [onMessage, onInvalidSession, hs, beginResume_eq, leave]
    · refine ⟨_, ?_, .reject resumable (by simpa using hr)⟩
      have ha := requestIdentify_eq ⟨s.rejected, es⟩ (k := k) h
      simp_all [onMessage, onInvalidSession, update, rejected, Turn.andThen]
  | dispatch kind q data =>
    by_cases ha : s.accepts q = true
    · exact ⟨_, by simp [onMessage, onDispatch_eq, ha], .accept kind q data ha⟩
    · exact ⟨_, by simp [onMessage, onDispatch_eq, ha, Turn.andThen],
        .skip kind q data (by simpa using ha)⟩
  | unknown op => exact ⟨_, by simp [onMessage, Turn.andThen], .unknown op⟩

/-- A turn that has no effects so far, as a result. -/
theorem happens_of_andThen {i : Input} {t : Turn} {r : Session × List Effect}
    (ht : t = Turn.andThen ⟨s, []⟩ r) (hr : Happens c m s i r) :
    Happens c m s i (t.session, t.effects) := by
  subst ht
  exact hr

/-- A command is let through only with an opcode of the application, and only at work. -/
theorem commandRefusal?_eq_none {op : Nat} (h : commandRefusal? s op = none) :
    Opcode.allowsApplication op = true ∧ s.phase.isReady = true := by
  cases hop : Opcode.allowsApplication op <;> cases hp : s.phase.isReady <;>
    simp [commandRefusal?, hop, hp] at h ⊢

theorem happens_command (op : Nat) (data : Json) :
    Happens c m s (.command op data) (step c s m (.command op data)) := by
  simp only [step, handle, Turn.command]
  split
  case h_1 failure hf => exact .refuse op data s.commands failure
  case h_2 hf =>
    obtain ⟨hop, hp⟩ := commandRefusal?_eq_none hf
    split
    case h_1 wait _ => exact .refuse op data _ _
    case h_2 _ =>
      split
      case h_1 id hm hl =>
        have h := Happens.command (c := c) op data (s.commands.tryAcquire m.now).1 hop hp hm
        simp only [session_update] at hl
        simpa [hl, update, emit] using h
      case h_2 hm hl =>
        have h := Happens.command (c := c) op data (s.commands.tryAcquire m.now).1 hop hp hm
        simp only [session_update] at hl
        simpa [hl, update, emit] using h
      case h_3 _ _ _ => exact .refuse op data _ _

theorem happens_heartbeatDue (k : Nat) :
    Happens c m s (.heartbeatDue k) (step c s m (.heartbeatDue k)) := by
  by_cases h : s.connection = some k
  · cases ht : s.heartbeat.tick with
    | mk b tick =>
      cases tick with
      | send =>
        refine happens_of_andThen ?_ (.due k h ht)
        simp [handle, h, onHeartbeatDue, ht, sendHeartbeat, send_eq, update, pulsed, Turn.andThen]
      | dead missed =>
        refine happens_of_andThen ?_ (.dead k h ht)
        simp [handle, h, onHeartbeatDue, ht, beginResume_eq, update, Turn.andThen]
  · simpa [step, handle, h] using Happens.staleDue k h

theorem happens_admitted (k : Nat) (outcome : Except Failure Unit) :
    Happens c m s (.admitted k outcome) (step c s m (.admitted k outcome)) := by
  by_cases h : s.connection = some k ∧ s.Unshaken
  · obtain ⟨hk, hp, hs⟩ := h
    cases outcome with
    | error failure =>
      refine happens_of_andThen ?_ (.denied k failure hk ⟨hp, hs⟩)
      simp [handle, onAdmitted, update, hk, hp, hs, scheduleReconnect_eq, Turn.andThen]
    | ok _ =>
      refine happens_of_andThen ?_ (.identify k hk ⟨hp, hs⟩)
      simp [handle, onAdmitted, update, hk, hp, hs, sendIdentify, send_eq, Turn.andThen]
  · refine happens_of_andThen ?_ (.late k outcome h)
    have hguard : s.connection = some k → s.phase = .identifying → s.handshakeSent = true := by
      intro hk hp
      simpa [hk, hp, Unshaken] using h
    by_cases hk : s.connection = some k <;> by_cases hp : s.phase = .identifying <;>
      simp_all [handle, onAdmitted, update, Turn.andThen]

theorem happens_inbound (k : Nat) (e : LinkEvent) :
    Happens c m s (.inbound k e) (step c s m (.inbound k e)) := by
  by_cases h : s.connection = some k
  · have hstep : step c s m (.inbound k e) =
        ((onLinkEvent c m ⟨s, []⟩ e).session, (onLinkEvent c m ⟨s, []⟩ e).effects) := by
      simp [step, handle, h]
    rw [hstep]
    cases e with
    | opened => exact happens_of_andThen rfl (.opened k h)
    | received text =>
      cases ht : Message.parse text with
      | error e =>
        refine happens_of_andThen ?_ (.mumble k text h e ht)
        simp [onLinkEvent, ht, update, Turn.andThen, heard]
      | ok message =>
        obtain ⟨r, hr, hm⟩ := meets_onMessage (c := c) (m := m) (s := s.heard m) (k := k) h []
          message
        refine happens_of_andThen ?_ (.message k text h ht hm)
        simpa [onLinkEvent, ht, update, heard, Turn.andThen] using hr
    | closed code reason =>
      exact happens_of_andThen (onClosed_eq ..) (.close k code reason h)
    | failed reason =>
      by_cases hl : m.live = true
      · refine happens_of_andThen ?_ (.survive k reason h hl)
        simp [onLinkEvent, hl, Turn.andThen]
      · refine happens_of_andThen ?_ (.fail k reason h (by simpa using hl))
        simp [onLinkEvent, hl, scheduleReconnect_eq]
  · simpa [step, handle, h] using Happens.stale k e h

/-- Every step is one of those that can happen. -/
theorem happens_step (c : Config) (s : Session) (m : Moment) (i : Input) :
    Happens c m s i (step c s m i) := by
  cases i with
  | start =>
    by_cases h : s.phase = .disconnected
    · exact happens_of_andThen (by simp [handle, h, connect_eq]) (.start h)
    · simpa [step, handle, h] using Happens.unneeded h
  | restart => exact happens_of_andThen (restart_eq c _) .restart
  | shutdown => exact happens_of_andThen (shutdown_eq _) .shutdown
  | stop => exact happens_of_andThen (stop_eq _) .stop
  | command op data => exact happens_command op data
  | inbound k e => exact happens_inbound k e
  | heartbeatDue k => exact happens_heartbeatDue k
  | admitted k outcome => exact happens_admitted k outcome
  | reconnectDue epoch =>
    by_cases h : epoch = s.epoch ∧ s.phase = .reconnectPending
    · exact happens_of_andThen (by simp [handle, h, connect_eq]) (.reconnect epoch h.1 h.2)
    · simpa [step, handle, h] using Happens.void epoch h

/-- An event of the connection that is heard is accepted or passed over. -/
theorem step_dispatch {k : Nat} {text kind : String} {q : Nat} {data : Json}
    (hk : s.connection = some k) (ht : Message.parse text = .ok (.dispatch kind q data)) :
    step c s m (.inbound k (.received text)) =
      if s.accepts q then (s.heard m).accept kind q data else (s.heard m, []) := by
  have hheard : (s.heard m).accepts q = s.accepts q := rfl
  have ht' : ∀ t : Turn, t = ⟨s.heard m, []⟩ → step c s m (.inbound k (.received text)) =
      ((t.onDispatch kind q data).session, (t.onDispatch kind q data).effects) := by
    rintro t rfl
    simp [step, handle, hk, onLinkEvent, ht, onMessage, update, heard]
  rw [ht' _ rfl, onDispatch_eq, hheard]
  split <;> rfl

/-- An admission in time is answered with a fresh handshake. -/
theorem step_admitted {k l : Nat} (hk : s.connection = some k) (hu : s.Unshaken)
    (hl : s.link.current = some l) (hm : m.sending = .ok ()) :
    step c s m (.admitted k (.ok ())) =
      ({ s with identifyTask := none, handshakeSent := true },
        [.send l (Payload.identify c.bareToken c.intents s.shard c.compression c.system)]) := by
  obtain ⟨hp, hs⟩ := hu
  simp [step, handle, onAdmitted, sendIdentify, send, update, emit, hk, hp, hs, hl, hm]

/-! ## Runs -/

/-- A run goes on with one more step. -/
theorem run_concat (c : Config) (s : Session) (inputs : List (Moment × Input))
    (x : Moment × Input) :
    run c s (inputs ++ [x]) =
      ((step c (run c s inputs).1 x.1 x.2).1,
        (run c s inputs).2 ++ [(step c (run c s inputs).1 x.1 x.2).2]) := by
  induction inputs generalizing s with
  | nil => rfl
  | cons y rest ih => simp only [List.cons_append, run, ih]

/-- What every step of certain inputs preserves of a session and the effects so far holds after a
run of such inputs. -/
theorem run_preserves {p : Input → Prop} {P : Session → List Effect → Prop}
    (hstep : ∀ s es m i r, p i → Happens c m s i r → P s es → P r.1 (es ++ r.2))
    (inputs : List (Moment × Input)) (hp : ∀ x ∈ inputs, p x.2) :
    ∀ s es, P s es → P (run c s inputs).1 (es ++ (run c s inputs).2.flatten) := by
  induction inputs with
  | nil =>
    intro s es h
    simpa [run] using h
  | cons x rest ih =>
    intro s es h
    obtain ⟨m, i⟩ := x
    have hi : p i := hp (m, i) (by simp)
    have hnext := hstep s es m i _ hi (happens_step c s m i) h
    have hrest := ih (fun y hy => hp y (by simp [hy])) _ _ hnext
    simpa [run, List.append_assoc] using hrest

end Switchboard.Session
