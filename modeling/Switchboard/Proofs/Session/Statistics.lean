import Switchboard.Proofs.Session.Announcements
import Switchboard.Proofs.Session.Counters

/-!
# Statistics and the run

What an observer gets is drawn from counters that the session keeps from its beginning to its end. So
it has to agree with all that the session went through, over every connection, restart and stop. What
a step counts is settled by the step alone (`Session.Accounts`), but for acknowledgements: they count
when they answer a heartbeat, and whether one is outstanding is a matter of what was sent on the
connection before.

## Main definitions

* `Session.Awaits`: what a step does to the heartbeat that is outstanding.
* `Record.Outstanding`: a heartbeat was sent over a connection and not answered.
* `Record.Tallied`: the statistics agree with the records.

## Main results

* `Session.awaits_happens`: every step is one of four as far as that heartbeat goes.
* `Record.Chain.tallied`: the statistics of a session agree with its records.
* `Desk.statistics_of_run`: so they do for every schedule.
-/
namespace Switchboard

namespace Session

/-! ## The heartbeat that is outstanding -/

/-- What a step does to the heartbeat that is outstanding. -/
inductive Awaits (m : Moment) (s : Session) (i : Input) (r : Session × List Effect) : Prop where
  /-- The connection is left. -/
  | left (hc : r.1.connection = none ∨ r.1.connection = some (s.link.begun + 1))
      (ha : r.1.heartbeat.awaiting = false) (hes : Still r.2)
  /-- The server greets the session, or acknowledges heartbeats. -/
  | settled (hi : s.isGreeted i = true ∨ s.isAcked i = true) (hc : r.1.connection = s.connection)
      (ha : r.1.heartbeat.awaiting = false) (hes : Still r.2)
  | keep (hi : s.isGreeted i = false ∧ s.isAcked i = false) (hc : r.1.connection = s.connection)
      (hh : r.1.heartbeat = s.heartbeat) (hes : Still r.2)
  /-- A heartbeat is sent. -/
  | beat (k : Nat) (hk : s.connection = some k) (hc : r.1.connection = some k)
      (hh : r.1.heartbeat.awaiting = true ∧ r.1.heartbeat.lastSent = some m.now)
      (hes : ∃ p, .send k p ∈ r.2 ∧ Payload.opcode p = Opcode.heartbeat.toNat)

variable {c : Config} {m : Moment} {s t : Session} {i : Input} {r : Session × List Effect}

/-- The connection is left, after a change to the session that leaves the count of connections. -/
theorem awaits_of_leaves (h : Leaves t r) (hq : Mute r.2) (ha : r.1.heartbeat.awaiting = false)
    (hl : t.link.begun = s.link.begun) {before : List Effect} (hb : Mute before) :
    Awaits m s i (following before r) := by
  refine .left ?_ ha (still_of_mute (by simp [hb, hq]))
  rw [← hl]
  exact h.connection.imp And.left And.left

theorem awaits_retreat (hl : t.link.begun = s.link.begun) {before : List Effect}
    (hb : Mute before) {reason : String} :
    Awaits m s i (following before (t.retreat c m reason)) := by
  refine awaits_of_leaves leaves_retreat quiet_retreat.mute ?_ hl hb
  unfold retreat
  split <;> rfl

theorem awaits_leave (hl : t.link.begun = s.link.begun) {reason : String} :
    Awaits m s i (t.leave c m reason) := by
  unfold leave
  split
  · exact awaits_of_leaves leaves_redial quiet_redial.mute rfl hl mute_nil
  · exact awaits_retreat hl mute_nil

theorem awaits_lose {code : Option Nat} {reason : String} :
    Awaits m s i (s.lose c m code reason) := by
  have hb : Mute (s.taskEnds ++ [.announce (.disconnected code reason)]) := by
    simp [Effect.isMute]
  unfold lose
  cases CloseAction.ofCode code with
  | authenticationFailed =>
    exact awaits_of_leaves (s := s) (t := s.lost code) leaves_fail quiet_fail.mute rfl rfl hb
  | fatal =>
    exact awaits_of_leaves (s := s) (t := s.lost code) leaves_fail quiet_fail.mute rfl rfl hb
  | reidentify => exact awaits_retreat (s := s) (t := (s.lost code).forget) rfl hb
  | resume => exact awaits_retreat (s := s) (t := s.lost code) rfl hb

/-- A payload that is no heartbeat is handed over, or the connection is given up. -/
theorem awaits_deliver {p : String} (hp : Payload.opcode p ≠ Opcode.heartbeat.toNat)
    (hl : t.link.begun = s.link.begun) {before : List Effect} (hb : Mute before)
    (hstay : ∀ es, Still es → Awaits m s i (t, es)) :
    Awaits m s i (following before (t.deliver c m p)) := by
  unfold deliver
  split
  · refine hstay _ ?_
    simpa using still_send hp t.link.current hb mute_nil
  · exact awaits_retreat hl hb

/-- A heartbeat is handed over to the connection that is heard, or that is given up. -/
theorem awaits_pulsed (hs : s.Coupled) {k : Nat} (hk : s.connection = some k)
    (hc : t.connection = s.connection) (hl : t.link = s.link) {q : Option Nat} :
    Awaits m s i ((t.pulsed m).deliver c m (Payload.heartbeat q)) := by
  have hcurrent : (t.pulsed m).link.current = some k := by
    rw [← hk, hs.link, ← hl]
    rfl
  unfold deliver
  split
  · refine .beat k hk (hc.trans hk) ⟨rfl, rfl⟩ ⟨Payload.heartbeat q, ?_, by simp⟩
    simp [hcurrent]
  · refine awaits_retreat ?_ mute_nil
    rw [← hl]
    rfl

theorem awaits_meets (hs : s.Coupled) {k : Nat} {text : String} (hk : s.connection = some k)
    {message : Message} (ht : Message.parse text = .ok message)
    (h : Meets c m (s.heard m) k message r) : Awaits m s (.inbound k (.received text)) r := by
  have hmessage : s.message? (.inbound k (.received text)) = some message := by
    simp [message?, hk, ht, Except.toOption]
  cases h with
  | greet ms _ =>
    exact .settled (.inl (by simp [isGreeted, hmessage])) rfl rfl (still_of_mute (by simp))
  | resume ms _ _ _ =>
    refine awaits_deliver (s := s)
      (t := { (s.heard m).beating (Span.ofMillis ms) with handshakeSent := true }) ?_ rfl ?_
      fun es hes => ?_
    · simp [Opcode.toNat]
    · simp
    · exact .settled (.inl (by simp [isGreeted, hmessage])) rfl rfl hes
  | ask ms _ _ =>
    refine .settled (.inl (by simp [isGreeted, hmessage])) rfl rfl (still_of_mute ?_)
    simp [quiet_await.mute]
  | pulse => exact awaits_pulsed (t := s.heard m) hs hk rfl rfl
  | ack => exact .settled (.inr (by simp [isAcked, hmessage])) rfl rfl rfl
  | leave => exact awaits_leave (s := s) (t := s.heard m) rfl
  | redial _ =>
    exact .left (.inr rfl) rfl (still_of_mute quiet_redial.mute)
  | reject _ _ =>
    refine .keep ⟨?_, ?_⟩ rfl rfl (still_of_mute quiet_await.mute) <;>
      simp [isGreeted, isAcked, hmessage]
  | accept kind q data _ =>
    obtain ⟨hh, hc⟩ := heartbeat_accept (s := s.heard m) kind q data
    refine .keep ⟨?_, ?_⟩ hc hh (still_accept kind q data) <;> simp [isGreeted, isAcked, hmessage]
  | skip _ _ _ _ => refine .keep ⟨?_, ?_⟩ rfl rfl rfl <;> simp [isGreeted, isAcked, hmessage]
  | unknown _ => refine .keep ⟨?_, ?_⟩ rfl rfl rfl <;> simp [isGreeted, isAcked, hmessage]

/-- Every step leaves the connection, clears what is outstanding on it, keeps it or sends a
heartbeat. -/
theorem awaits_happens (hs : s.Coupled) (hi : i ≠ .stop) (h : Happens c m s i r) :
    Awaits m s i r := by
  cases h with
  | start _ => exact .left (.inr rfl) rfl (still_of_mute quiet_dial.mute)
  | restart => exact .left (.inr rfl) rfl (still_of_mute (by simp [quiet_dial.mute]))
  | reconnect _ _ _ => exact .left (.inr rfl) rfl (still_of_mute quiet_dial.mute)
  | shutdown => exact .left (.inl rfl) rfl (still_of_mute (by simp))
  | stop => exact absurd rfl hi
  | refuse _ _ _ _ => exact .keep ⟨rfl, rfl⟩ rfl rfl rfl
  | command op data w hop _ _ =>
    have hother : Payload.opcode (Payload.command op data) ≠ Opcode.heartbeat.toNat := by
      rw [Payload.opcode_command]
      rintro rfl
      exact absurd hop (by decide)
    have hreply : Mute [.reply (.ok ())] := by simp [Effect.isMute]
    refine .keep ⟨rfl, rfl⟩ rfl rfl ?_
    simpa using still_send hother s.link.current mute_nil hreply
  | opened _ _ => exact .keep ⟨rfl, rfl⟩ rfl rfl rfl
  | mumble k text hk _ ht =>
    have hmessage : s.message? (.inbound k (.received text)) = none := by
      simp [message?, ht, Except.toOption]
    refine .keep ⟨?_, ?_⟩ rfl rfl rfl <;> simp [isGreeted, isAcked, hmessage]
  | message _ _ hk ht hr => exact awaits_meets hs hk ht hr
  | close _ _ _ _ => exact awaits_lose
  | fail _ _ _ _ => exact awaits_retreat (t := s) rfl mute_nil
  | stale k e hk =>
    have hmessage : s.message? (.inbound k e) = none := by
      cases e <;> simp [message?, hk]
    refine .keep ⟨?_, ?_⟩ rfl rfl rfl <;> simp [isGreeted, isAcked, hmessage]
  | @due k hk b hb => exact awaits_pulsed (t := { s with heartbeat := b }) hs hk rfl rfl
  | @dead k hk b _ hb => exact awaits_leave (s := s) (t := { s with heartbeat := b }) rfl
  | denied _ _ _ _ =>
    exact awaits_retreat (s := s) (t := { s with identifyTask := none }) rfl mute_nil
  | identify _ _ _ =>
    refine awaits_deliver (s := s) (t := { s with identifyTask := none, handshakeSent := true })
      ?_ rfl mute_nil fun es hes => .keep ⟨rfl, rfl⟩ rfl rfl hes
    simp [Opcode.toNat]
  | _ => exact .keep ⟨rfl, rfl⟩ rfl rfl rfl

/-- An acknowledgement has taken some time if a heartbeat is outstanding, which has been sent then. -/
theorem isSome_latency? (ht : s.heartbeat.awaiting = true → s.heartbeat.lastSent.isSome = true) :
    (s.latency? m i).isSome = (s.isAcked i && s.heartbeat.awaiting) := by
  cases hi : s.isAcked i with
  | false => simp [latency?, hi]
  | true =>
    cases ha : s.heartbeat.awaiting with
    | false => simp [latency?, hi, Heartbeat.acked, ha]
    | true => simp [latency?, hi, Heartbeat.acked, ha, ht ha]

end Session

/-! ## What was sent over a connection -/

namespace Record

/-- A heartbeat is sent over the connection. -/
def SendsBeat (c : Config) (k : Nat) (r : Record) : Prop :=
  ∃ p, .send k p ∈ (Session.step c r.session r.moment r.input).2 ∧
    Payload.opcode p = Opcode.heartbeat.toNat

/-- The server greets the session, or acknowledges heartbeats. -/
def settles (r : Record) : Bool := r.session.isGreeted r.input || r.session.isAcked r.input

/-- A heartbeat was sent over a connection, and since then the server has neither greeted the session
nor acknowledged heartbeats. -/
def Outstanding (c : Config) (k : Nat) (log : List Record) : Prop :=
  ∃ before r after, log = before ++ r :: after ∧ r.SendsBeat c k ∧ ∀ x ∈ after, x.settles = false

variable {c : Config} {s : Session} {log : List Record} {r : Record} {k : Nat}

theorem outstanding_concat : Outstanding c k (log ++ [r]) ↔
    r.SendsBeat c k ∨ Outstanding c k log ∧ r.settles = false := by
  constructor
  · rintro ⟨before, x, after, hsplit, hsends, hafter⟩
    rcases List.eq_nil_or_concat after with rfl | ⟨after, last, rfl⟩
    · obtain ⟨-, hlast⟩ := List.append_inj' hsplit rfl
      obtain rfl : r = x := by simpa using hlast
      exact .inl hsends
    · have hsplit' : log ++ [r] = (before ++ x :: after) ++ [last] := by simpa using hsplit
      obtain ⟨hlog, hlast⟩ := List.append_inj' hsplit' rfl
      obtain rfl : r = last := by simpa using hlast
      exact .inr ⟨⟨before, x, after, hlog, hsends, fun y hy => hafter y (by simp [hy])⟩,
        hafter r (by simp)⟩
  · rintro (hsends | ⟨⟨before, x, after, rfl, hsends, hafter⟩, hsettles⟩)
    · exact ⟨log, r, [], rfl, hsends, by simp⟩
    · refine ⟨before, x, after ++ [r], by simp, hsends, fun y hy => ?_⟩
      rcases List.mem_append.mp hy with hy | hy
      · exact hafter y hy
      · rwa [List.mem_singleton.mp hy]

/-- Without a heartbeat among what is sent, none is sent over any connection. -/
theorem not_sendsBeat_of_still
    (h : Session.Still (Session.step c r.session r.moment r.input).2) : ¬ r.SendsBeat c k := by
  rintro ⟨p, hp, hop⟩
  have hno := List.filter_eq_nil_iff.mp h _ hp
  simp [Session.Effect.isHeartbeat, hop] at hno

/-- What is sent goes over the connection that is heard. -/
theorem connection_of_sendsBeat (hs : r.session.Coupled) (h : r.SendsBeat c k) :
    r.session.connection = some k := by
  obtain ⟨p, hp, -⟩ := h
  have hstep := Session.happens_step c r.session r.moment r.input
  rw [hs.link]
  exact (Session.speech_of_recalls (Session.recalls_happens hstep) hp).1

/-- What holds of the heartbeats of a session after its records. -/
structure Watched (c : Config) (log : List Record) (s : Session) : Prop where
  coupled : s.Coupled
  known : s.Numbered
  /-- Heartbeats were sent over connections that were begun. -/
  sent : ∀ r ∈ log, ∀ k, r.SendsBeat c k → k ≤ s.link.begun
  /-- A heartbeat is outstanding if one was sent over the connection that is heard, and nothing has
  settled it. -/
  awaiting : s.heartbeat.awaiting = true ↔ ∃ k, s.connection = some k ∧ Outstanding c k log
  timed : s.heartbeat.awaiting = true → s.heartbeat.lastSent.isSome = true

theorem watched_new (c : Config) (shard : Shard) (now : Instant) :
    Watched c [] (.new c shard now) where
  coupled := Session.coupled_new c shard now
  known := Session.numbered_new c shard now
  sent := by simp
  awaiting := by simp [Session.new, Heartbeat.new]
  timed := by simp [Session.new, Heartbeat.new]

/-- Nothing was sent over a connection that was not begun. -/
theorem Watched.not_outstanding (h : Watched c log s) (hk : s.link.begun < k) :
    ¬ Outstanding c k log := by
  rintro ⟨before, r, after, rfl, hsends, -⟩
  exact absurd (h.sent r (by simp) k hsends) (Nat.not_le_of_lt hk)

/-- Where no heartbeat is sent, and the connection is left or settled, none is outstanding. -/
theorem Watched.settled (h : Watched c log r.session)
    (hes : Session.Still (Session.step c r.session r.moment r.input).2)
    (hgone : (r.next c).connection = none ∨
      (r.next c).connection = some (r.session.link.begun + 1) ∨ r.settles = true) :
    ¬ ∃ k, (r.next c).connection = some k ∧ Outstanding c k (log ++ [r]) := by
  rintro ⟨k, hk, hout⟩
  obtain ⟨hbefore, hsettles⟩ :=
    (outstanding_concat.mp hout).resolve_left (not_sendsBeat_of_still hes)
  rcases hgone with hgone | hgone | hgone
  · exact absurd (hgone.symm.trans hk) (by simp)
  · -- Nothing was sent yet over a connection that begins here.
    obtain rfl : r.session.link.begun + 1 = k := Option.some.inj (hgone.symm.trans hk)
    exact h.not_outstanding (Nat.lt_succ_self _) hbefore
  · exact absurd (hgone.symm.trans hsettles) (by simp)

/-- Whether a heartbeat is outstanding after one record more. -/
theorem Watched.awaits (h : Watched c log r.session) (hstop : r.input ≠ .stop) :
    ((r.next c).heartbeat.awaiting = true ↔
      ∃ k, (r.next c).connection = some k ∧ Outstanding c k (log ++ [r])) ∧
    ((r.next c).heartbeat.awaiting = true → (r.next c).heartbeat.lastSent.isSome = true) := by
  have hstep := Session.happens_step c r.session r.moment r.input
  cases Session.awaits_happens h.coupled hstop hstep with
  | left hc ha hes =>
    have hnone : (r.next c).heartbeat.awaiting = false := ha
    have hgone := h.settled hes (hc.imp_right .inl)
    exact ⟨iff_of_false (by simp [hnone]) hgone, by simp [hnone]⟩
  | settled hi _ ha hes =>
    have hnone : (r.next c).heartbeat.awaiting = false := ha
    have hsettles : r.settles = true := by simpa [settles] using hi
    have hgone := h.settled hes (.inr (.inr hsettles))
    exact ⟨iff_of_false (by simp [hnone]) hgone, by simp [hnone]⟩
  | keep hi hc hh hes =>
    have hheartbeat : (r.next c).heartbeat = r.session.heartbeat := hh
    have hconnection : (r.next c).connection = r.session.connection := hc
    have hsettles : r.settles = false := by simp [settles, hi.1, hi.2]
    have hsame : ∀ k, Outstanding c k (log ++ [r]) ↔ Outstanding c k log := fun k => by
      simp [outstanding_concat, hsettles, not_sendsBeat_of_still hes]
    simp only [hheartbeat, hconnection, hsame]
    exact ⟨h.awaiting, h.timed⟩
  | beat k _ hc hh hes =>
    have hlast : (r.next c).heartbeat.lastSent = some r.moment.now := hh.2
    exact ⟨iff_of_true hh.1 ⟨k, hc, outstanding_concat.mpr (.inl hes)⟩, by simp [hlast]⟩

/-- One record more. -/
theorem Watched.next (h : Watched c log r.session) (hstop : r.input ≠ .stop) :
    Watched c (log ++ [r]) (r.next c) := by
  have hstep := Session.happens_step c r.session r.moment r.input
  have hbegun : r.session.link.begun ≤ (r.next c).link.begun :=
    (Link.begun_follow (Session.follow_happens hstep)).1
  refine ⟨Session.coupled_happens hstop hstep h.coupled,
    h.known.of_moves (Session.moves_happens h.coupled.resumable hstep), fun x hx k hsends => ?_,
    (h.awaits hstop).1, (h.awaits hstop).2⟩
  rcases List.mem_append.mp hx with hx | hx
  · exact Nat.le_trans (h.sent x hx k hsends) hbegun
  · obtain rfl := List.mem_singleton.mp hx
    exact Nat.le_trans (h.known k (connection_of_sendsBeat h.coupled hsends)) hbegun

theorem Chain.watched {shard : Shard} {begun : Instant} (h : Chain c (.new c shard begun) log s)
    (hstop : ∀ r ∈ log, r.input ≠ .stop) : Watched c log s :=
  h.invariant hstop (watched_new c shard begun) fun _ _ hi hwatched => hwatched.next hi

/-! ## What was counted -/

/-- A text arrived on the connection that was heard. -/
def isText (r : Record) : Bool := r.session.isText r.input

/-- The code of a close of the connection that was heard. -/
def close? (r : Record) : Option (Option Nat) := r.session.close? r.input

/-- The server acknowledged a heartbeat that was outstanding. -/
def isAnswer (r : Record) : Bool := r.session.isAcked r.input && r.session.heartbeat.awaiting

/-- The connection that was heard was left for one that was begun at once, to take the session up. -/
def isResume (r : Record) : Bool := r.session.resumes r.input

/-- The connections that were begun. -/
def begun (c : Config) (r : Record) : List Nat :=
  (Session.step c r.session r.moment r.input).2.filterMap Session.Effect.begun?

/-- The counters are those of the records. -/
structure Balanced (c : Config) (log : List Record) (h : Health) : Prop where
  messages : h.messages = log.countP isText
  reconnects : h.reconnects =
    (log.flatMap (notices c)).countP Happening.isPlan + log.countP isResume
  capacity : h.closes.capacity = rememberedCloses
  closes : h.closes.Holds (log.filterMap close?)
  samples : h.latencies.total = log.countP isAnswer

theorem balanced_new (c : Config) (now : Instant) : Balanced c [] (.new now) where
  messages := rfl
  reconnects := rfl
  capacity := rfl
  closes := Recent.holds_empty _
  samples := rfl

/-- One record more. -/
theorem Balanced.next (h : Balanced c log r.session.health)
    (ht : r.session.heartbeat.awaiting = true → r.session.heartbeat.lastSent.isSome = true) :
    Balanced c (log ++ [r]) (r.next c).health := by
  have hcounts := Session.counts_happens (Session.happens_step c r.session r.moment r.input)
  have hcloses : (r.next c).health.closes =
      r.close?.elim r.session.health.closes r.session.health.closes.push := hcounts.closes
  refine ⟨?_, ?_, ?_, ?_, ?_⟩
  · rw [Record.next, hcounts.messages, h.messages, List.countP_append, List.countP_singleton]
    rfl
  · rw [Record.next, hcounts.reconnects, h.reconnects, List.flatMap_append, List.countP_append,
      List.countP_append, List.flatMap_singleton, List.countP_singleton, notices, isResume]
    omega
  · rw [hcloses]
    cases r.close? with
    | none => exact h.capacity
    | some code => exact h.capacity
  · rw [hcloses, List.filterMap_append]
    cases hclose : r.close? with
    | none => simpa [hclose] using h.closes
    | some code => simpa [hclose] using h.closes.push code
  · rw [Record.next, hcounts.samples, h.samples, List.countP_append, List.countP_singleton,
      Session.isSome_latency? ht]
    rfl

theorem Chain.balanced {shard : Shard} {begun : Instant} (h : Chain c (.new c shard begun) log s)
    (hstop : ∀ r ∈ log, r.input ≠ .stop) : Balanced c log s.health := by
  -- How long an acknowledgement took is known of heartbeats that were sent.
  have hboth : Watched c log s ∧ Balanced c log s.health := by
    refine h.invariant (P := fun log s => Watched c log s ∧ Balanced c log s.health) hstop ?_ ?_
    · exact ⟨watched_new c shard begun, balanced_new c begun⟩
    · rintro log r hi ⟨hwatched, hbalanced⟩
      exact ⟨hwatched.next hi, hbalanced.next hwatched.timed⟩
  exact hboth.2

/-! ## Statistics -/

/-- The statistics of a session agree with the records that it has come through. -/
structure Tallied (c : Config) (log : List Record) (s : Session) (stats : Stats) : Prop where
  phase : stats.phase = s.phase
  sequence : stats.sequence = s.sequence
  /-- Texts on connections that were heard, whether or not they were messages. -/
  messages : stats.messages = log.countP isText
  /-- Reconnects that were told, and connections that were begun at once. -/
  reconnects : stats.reconnects =
    (log.flatMap (notices c)).countP Happening.isPlan + log.countP isResume
  /-- The codes of the last closes, oldest first. -/
  recentCloseCodes : stats.recentCloseCodes = (log.filterMap close?).rtake 32
  remembered : stats.recentCloseCodes.length = min 32 (log.filterMap close?).length
  samples : stats.samples = log.countP isAnswer
  /-- An acknowledgement answers if a heartbeat was sent over the connection before and is not
  settled. -/
  answer : ∀ before r after, log = before ++ r :: after →
    (r.isAnswer = true ↔ r.session.isAcked r.input = true ∧
      ∃ k, r.session.connection = some k ∧ Outstanding c k before)
  /-- To take the session up at once is to begin a connection. -/
  resume : ∀ r ∈ log, r.isResume = true → r.begun c = [r.session.link.begun + 1]
  /-- Other connections are those that the owner wants, or that were planned. -/
  plain : ∀ r ∈ log, r.isResume = false → r.begun c ≠ [] →
    r.input = .start ∨ r.input = .restart ∨ r.session.phase = .reconnectPending
  /-- A restart or a shutdown leaves the counters as they are. -/
  orders : ∀ r ∈ log, r.input = .restart ∨ r.input = .shutdown →
    (r.next c).health = r.session.health
  /-- A step that stops the session for good counts what arrived. -/
  fatal : ∀ r ∈ log, (r.next c).phase = .fatal →
    (r.next c).health = r.session.arrived r.moment r.input

theorem begun_of_isResume (h : r.isResume = true) : r.begun c = [r.session.link.begun + 1] := by
  have hstep := Session.happens_step c r.session r.moment r.input
  have hresumes : r.session.resumes r.input = true := h
  have hbegun := (Link.begun_follow (Session.follow_happens hstep)).2
  cases Session.opens_happens hstep with
  | none hi _ => simp [hresumes] at hi
  | plain hi _ _ _ => simp [hresumes] at hi
  | resume _ hl _ =>
    rw [begun, hbegun, hl, Nat.add_sub_cancel_left]
    rfl

theorem cause_of_begun (h : r.isResume = false) (hbegun : r.begun c ≠ []) :
    r.input = .start ∨ r.input = .restart ∨ r.session.phase = .reconnectPending := by
  have hstep := Session.happens_step c r.session r.moment r.input
  have hresumes : r.session.resumes r.input = false := h
  cases Session.opens_happens hstep with
  | none _ hl =>
    rw [begun, (Link.begun_follow (Session.follow_happens hstep)).2, hl, Nat.sub_self] at hbegun
    exact absurd rfl hbegun
  | plain _ _ _ hown => exact hown
  | resume hi _ _ => simp [hresumes] at hi

theorem Chain.tallied {shard : Shard} {begun : Instant} (h : Chain c (.new c shard begun) log s)
    (hstop : ∀ r ∈ log, r.input ≠ .stop) (now : Instant) : Tallied c log s (s.stats now) := by
  have hbalanced := h.balanced hstop
  have hcapacity := hbalanced.capacity
  have hcloses := hbalanced.closes
  have hlength := hcloses.length_items
  rw [hcapacity] at hlength
  rw [Recent.Holds, hcapacity] at hcloses
  refine ⟨rfl, rfl, hbalanced.messages, hbalanced.reconnects, hcloses, hlength, hbalanced.samples,
    ?_, fun r _ hi => begun_of_isResume hi, fun r _ hi hbegun => cause_of_begun hi hbegun,
    fun r _ hi => Session.health_of_order (Session.happens_step ..) hi,
    fun r _ hphase => Session.health_of_fatal (Session.happens_step ..) hphase⟩
  rintro before r after rfl
  obtain ⟨u, hbefore, hr, -⟩ := chain_append.mp h
  obtain rfl : r.session = u := hr
  have hwatched := hbefore.watched fun x hx => hstop x (List.mem_append_left _ hx)
  rw [isAnswer, Bool.and_eq_true, hwatched.awaiting]

end Record

namespace Desk

open Record

/-- **Statistics agree with the run.** Whatever comes to a session, and in whatever order, what an
observer gets at any time is the tally of what the session came through since it began. So it is for
every schedule of the tasks around it. -/
theorem statistics_of_run (c : Config) (shard : Shard) (begun : Instant) :
    (∀ log s, Chain c (.new c shard begun) log s → (∀ r ∈ log, r.input ≠ .stop) →
      ∀ now, Tallied c log s (s.stats now)) ∧
    ∀ moves d, (begin c shard begun).run c moves = some d →
      Chain c (.new c shard begun) d.log d.session ∧ (∀ r ∈ d.log, r.input ≠ .stop) ∧
        ∀ now, Tallied c d.log d.session (d.session.stats now) := by
  have hall : ∀ log s, Chain c (.new c shard begun) log s → (∀ r ∈ log, r.input ≠ .stop) →
      ∀ now, Tallied c log s (s.stats now) := fun log s h hstop now => h.tallied hstop now
  refine ⟨hall, fun moves d hr => ?_⟩
  have hchain : Chain c (.new c shard begun) d.log d.session :=
    chain_run (d := begin c shard begun) rfl hr
  have hstop : ∀ r ∈ d.log, r.input ≠ .stop := fun r hmem =>
    ((sound_run (sound_begin c shard begun) hr).log r hmem).2
  exact ⟨hchain, hstop, hall d.log d.session hchain hstop⟩

/-- The server acknowledges heartbeats. -/
def acknowledgement : String := "\x7b\"op\":11,\"d\":null\x7d"

/-- Three connections. On the first the session is greeted and accepted, a text is no message, a
heartbeat is acknowledged twice, and the server sends the session away. It closes the second, before
a restart, and the third for good, before a shutdown. -/
def eventful : List Move :=
  [.post .start, .handle 0 0, .connect 1, .pass, .handle 0 0,
    .read 1 (.frame (.ofString Story.greeting)), .pass, .handle 0 0,
    .read 1 (.frame (.ofString welcome)), .pass, .handle 0 0,
    .read 1 (.frame (.ofString "?")), .pass, .handle 0 0,
    .post (.heartbeatDue 1), .handle 10 0,
    .read 1 (.frame (.ofString acknowledgement)), .pass, .handle 20 0,
    .read 1 (.frame (.ofString acknowledgement)), .pass, .handle 30 0,
    .read 1 (.frame (.ofString Spell.farther)), .pass, .handle 40 0,
    .connect 2, .pass, .handle 50 0,
    .read 2 (.frame (.closing 4000 "again")), .report 2, .pass, .handle 60 0,
    .post .restart, .handle 70 0, .connect 3, .pass, .handle 70 0,
    .read 3 (.frame (.closing 4004 "token")), .report 3, .pass, .handle 80 0,
    .post .shutdown, .handle 90 0]

/-- Six texts, one connection begun at once and one reconnect planned, two closes, and one heartbeat
that was answered. -/
theorem statistics_of_run_eventful :
    ∃ d, (begin {} ⟨0, 1⟩ 0).run {} eventful = some d ∧ (∀ r ∈ d.log, r.input ≠ .stop) ∧
      Tallied {} d.log d.session (d.session.stats 100) ∧ (d.session.stats 100).messages = 6 ∧
      (d.session.stats 100).reconnects = 2 ∧
      (d.session.stats 100).recentCloseCodes = [some 4000, some 4004] ∧
      (d.session.stats 100).samples = 1 := by
  obtain ⟨d, hd, hall⟩ := Option.map_eq_some_iff.mp (show
    ((begin {} ⟨0, 1⟩ 0).run {} eventful).map (fun d =>
      (d.log.countP isText, (d.log.flatMap (notices {})).countP Happening.isPlan,
        d.log.countP isResume, d.log.filterMap Record.close?, d.log.countP isAnswer)) =
      some (6, 1, 1, [some 4000, some 4004], 1) by decide +kernel)
  obtain ⟨htexts, hplans, hresumed, hcloses, hanswers⟩ : d.log.countP isText = 6 ∧
      (d.log.flatMap (notices {})).countP Happening.isPlan = 1 ∧
      d.log.countP isResume = 1 ∧
      d.log.filterMap Record.close? = [some 4000, some 4004] ∧ d.log.countP isAnswer = 1 := by
    simpa using hall
  obtain ⟨htallies, hruns⟩ := statistics_of_run {} ⟨0, 1⟩ 0
  obtain ⟨hchain, hstop, -⟩ := hruns eventful d hd
  have htallied := htallies d.log d.session hchain hstop 100
  refine ⟨d, hd, hstop, htallied, htallied.messages.trans htexts, ?_, ?_,
    htallied.samples.trans hanswers⟩
  · rw [htallied.reconnects, hplans, hresumed]
  · rw [htallied.recentCloseCodes, hcloses]
    rfl

end Desk

end Switchboard
