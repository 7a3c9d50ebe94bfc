import Switchboard.Proofs.Pacing.Missed
import Switchboard.Proofs.Session.Announcements
import Switchboard.Proofs.Session.Heartbeats

/-!
# The heartbeats of a session

A session does to its tracker what a history tells: on a tick of the connection that it hears it
sends a heartbeat, if the tracker asks for one, and gives the connection up if the tracker finds it
dead. As long as the server wants no heartbeat for itself, that is the discipline under which the
ticks of a round can be counted.

## Main definitions

* `Session.Sheds`: changes that are no ticks and send nothing.
* `Session.Beats`: what a step does to the tracker.

## Main results

* `Session.beats_happens`: every step is one of four as far as the tracker goes.
* `Record.Chain.exists_history`: the tracker of a session has a history, with its ticks.
* `Record.heartbeats_of_history`: the answers of a tracker, and of a session that has one.
-/
namespace Switchboard

open Heartbeat (Mark)

namespace Session

/-- The tracker changes, but not by a tick or a heartbeat. -/
def Sheds (b b' : Heartbeat) : Prop :=
  ∃ marks : List Mark, (∀ x ∈ marks, x.isTick = false ∧ x.sent? = none) ∧
    b' = marks.foldl Heartbeat.mark b

/-- What a step does to the tracker. -/
inductive Beats (m : Moment) (s : Session) (i : Input) (b : Heartbeat) : Prop where
  | aside (ht : s.ticks i = false) (h : Sheds s.heartbeat b)
  /-- The server wants a heartbeat. -/
  | wanted (ht : s.ticks i = false) (hi : s.message? i = some .heartbeat)
      (h : Sheds (s.heartbeat.sent m.now) b)
  /-- A tick asks for a heartbeat, and that is sent. -/
  | due (ht : s.ticks i = true) (hs : s.heartbeat.tick.2 = .send)
      (h : Sheds (s.heartbeat.tick.1.sent m.now) b)
  | dead (ht : s.ticks i = true) {missed : Nat} (hd : s.heartbeat.tick.2 = .dead missed)
      (h : Sheds s.heartbeat.tick.1 b)

variable {c : Config} {m : Moment} {s : Session} {b b' : Heartbeat}

theorem sheds_refl (b : Heartbeat) : Sheds b b := ⟨[], by simp, rfl⟩

theorem sheds_reset (b : Heartbeat) : Sheds b b.reset :=
  ⟨[.reset], by simp [Mark.isTick, Mark.sent?], rfl⟩

theorem sheds_acked (b : Heartbeat) (now : Instant) : Sheds b (b.acked now).1 :=
  ⟨[.acked now], by simp [Mark.isTick, Mark.sent?], rfl⟩

theorem sheds_setInterval (b : Heartbeat) (interval : Span) : Sheds b (b.setInterval interval) :=
  ⟨[.setInterval interval], by simp [Mark.isTick, Mark.sent?], rfl⟩

theorem Sheds.trans {b'' : Heartbeat} (h : Sheds b b') (h' : Sheds b' b'') : Sheds b b'' := by
  obtain ⟨marks, hmarks, rfl⟩ := h
  obtain ⟨more, hmore, rfl⟩ := h'
  refine ⟨marks ++ more, fun x hx => ?_, by simp⟩
  rcases List.mem_append.mp hx with hx | hx
  · exact hmarks x hx
  · exact hmore x hx

/-! ## Acts -/

theorem sheds_retreat {reason : String} : Sheds s.heartbeat (s.retreat c m reason).1.heartbeat := by
  unfold retreat
  split <;> exact sheds_reset _

theorem sheds_leave {reason : String} : Sheds s.heartbeat (s.leave c m reason).1.heartbeat := by
  unfold leave
  split
  · exact sheds_reset _
  · exact sheds_retreat

theorem sheds_lose {code : Option Nat} {reason : String} :
    Sheds s.heartbeat (s.lose c m code reason).1.heartbeat := by
  have hlost : Sheds s.heartbeat (s.lost code).heartbeat := sheds_reset _
  rw [lose, fst_following]
  cases CloseAction.ofCode code with
  | authenticationFailed => exact hlost.trans (sheds_reset _)
  | fatal => exact hlost.trans (sheds_reset _)
  | reidentify => exact hlost.trans (sheds_retreat (s := (s.lost code).forget))
  | resume => exact hlost.trans sheds_retreat

theorem sheds_deliver {p : String} : Sheds s.heartbeat (s.deliver c m p).1.heartbeat := by
  unfold deliver
  split
  · exact sheds_refl _
  · exact sheds_retreat

theorem sheds_beating (s : Session) (interval : Span) :
    Sheds s.heartbeat (s.beating interval).heartbeat :=
  (sheds_reset _).trans (sheds_setInterval _ interval)

/-! ## Steps -/

theorem beats_meets {k : Nat} {text : String} (hk : s.connection = some k) {message : Message}
    (ht : Message.parse text = .ok message) {r : Session × List Effect}
    (h : Meets c m (s.heard m) k message r) :
    Beats m s (.inbound k (.received text)) r.1.heartbeat := by
  cases h with
  | greet ms _ => exact .aside rfl (sheds_beating s _)
  | resume ms _ _ _ => exact .aside rfl ((sheds_beating s _).trans sheds_deliver)
  | ask ms _ _ => exact .aside rfl (sheds_beating s _)
  | pulse =>
    refine .wanted rfl (by simp [message?, hk, ht, Except.toOption]) ?_
    exact sheds_deliver (s := (s.heard m).pulsed m)
  | ack => exact .aside rfl (sheds_acked _ _)
  | leave => exact .aside rfl (sheds_leave (s := s.heard m))
  | redial _ => exact .aside rfl (sheds_reset _)
  | accept kind q data _ =>
    rw [(heartbeat_accept (s := s.heard m) kind q data).1]
    exact .aside rfl (sheds_refl _)
  | _ => exact .aside rfl (sheds_refl _)

/-- Every step is a tick, sends a heartbeat that the server wants, or is neither. -/
theorem beats_happens {i : Input} {r : Session × List Effect} (h : Happens c m s i r) :
    Beats m s i r.1.heartbeat := by
  cases h with
  | start _ => exact .aside rfl (sheds_reset _)
  | restart => exact .aside rfl ((sheds_reset _).trans (sheds_reset _))
  | shutdown => exact .aside rfl (sheds_reset _)
  | stop => exact .aside rfl (sheds_reset _)
  | message _ _ hk ht hr => exact beats_meets hk ht hr
  | close _ _ _ _ => exact .aside rfl sheds_lose
  | fail _ _ _ _ => exact .aside rfl sheds_retreat
  | staleDue k hk => exact .aside (by simp [Session.ticks, hk]) (sheds_refl _)
  | @due k hk b hb =>
    refine .due (by simp [Session.ticks, hk]) (by rw [hb]) ?_
    rw [hb]
    exact sheds_deliver (s := ({ s with heartbeat := b } : Session).pulsed m)
  | @dead k hk b _ hb =>
    refine .dead (by simp [Session.ticks, hk]) (by rw [hb]) ?_
    rw [hb]
    exact sheds_leave (s := { s with heartbeat := b })
  | denied _ _ _ _ => exact .aside rfl (sheds_retreat (s := { s with identifyTask := none }))
  | identify _ _ _ =>
    exact .aside rfl
      (sheds_deliver (s := { s with identifyTask := none, handshakeSent := true }))
  | reconnect _ _ _ => exact .aside rfl (sheds_reset _)
  | _ => exact .aside rfl (sheds_refl _)

/-- What sheds a tracker that has a history prolongs the history. -/
theorem Sheds.exists_history {grace : Nat} {history : List Mark}
    (h : Sheds (Heartbeat.after grace history) b) :
    ∃ more, b = Heartbeat.after grace (history ++ more) ∧
      (history ++ more).countP Mark.isTick = history.countP Mark.isTick ∧
      (Heartbeat.Disciplined grace history → Heartbeat.Disciplined grace (history ++ more)) := by
  obtain ⟨marks, hmarks, rfl⟩ := h
  refine ⟨marks, by simp [Heartbeat.after], ?_, fun hd => ?_⟩
  · have hnone : marks.countP Mark.isTick = 0 :=
      List.countP_eq_zero.mpr fun x hx => by simp [(hmarks x hx).1]
    rw [List.countP_append, hnone, Nat.add_zero]
  · induction marks using List.reverseRecOn with
    | nil => simpa using hd
    | append_singleton marks x ih =>
      obtain ⟨htick, hsent⟩ := hmarks x (by simp)
      rw [← List.append_assoc]
      exact .other (ih fun y hy => hmarks y (List.mem_append_left _ hy)) htick hsent

/-- **One step** prolongs the history of a tracker, by a tick if it is one; if the server wants no
heartbeat, it keeps discipline. -/
theorem Beats.exists_history {i : Input} {grace : Nat} {history : List Mark} (h : Beats m s i b)
    (hs : s.heartbeat = Heartbeat.after grace history) :
    ∃ more, b = Heartbeat.after grace (history ++ more) ∧
      (history ++ more).countP Mark.isTick =
        history.countP Mark.isTick + (if s.ticks i then 1 else 0) ∧
      (s.message? i ≠ some .heartbeat → Heartbeat.Disciplined grace history →
        Heartbeat.Disciplined grace (history ++ more)) := by
  cases h with
  | aside ht h =>
    rw [hs] at h
    obtain ⟨more, hb, hcount, hd⟩ := h.exists_history
    exact ⟨more, hb, by simp [hcount, ht], fun _ => hd⟩
  | wanted ht hi h =>
    have hsent : s.heartbeat.sent m.now = Heartbeat.after grace (history ++ [.sent m.now]) := by
      simp [Heartbeat.after, hs, Heartbeat.mark]
    rw [hsent] at h
    obtain ⟨more, hb, hcount, -⟩ := h.exists_history
    -- A heartbeat that no tick asked for: from here on the history has no discipline.
    refine ⟨.sent m.now :: more, by simpa using hb, ?_, fun hno => absurd hi hno⟩
    simpa [ht, Mark.isTick, List.countP_append] using hcount
  | due ht hsend h =>
    have hsent : s.heartbeat.tick.1.sent m.now =
        Heartbeat.after grace (history ++ [.tick, .sent m.now]) := by
      simp [Heartbeat.after, hs, Heartbeat.mark]
    rw [hsent] at h
    obtain ⟨more, hb, hcount, hd⟩ := h.exists_history
    refine ⟨.tick :: .sent m.now :: more, by simpa using hb, ?_, fun _ hbefore => ?_⟩
    · simpa [ht, Mark.isTick, List.countP_append, List.countP_cons] using hcount
    · simpa using hd (.beat hbefore (hs ▸ hsend) m.now)
  | @dead ht missed hdead h =>
    have htick : s.heartbeat.tick.1 = Heartbeat.after grace (history ++ [.tick]) := by
      simp [Heartbeat.after, hs, Heartbeat.mark]
    rw [htick] at h
    obtain ⟨more, hb, hcount, hd⟩ := h.exists_history
    refine ⟨.tick :: more, by simpa using hb, ?_, fun _ hbefore => ?_⟩
    · simpa [ht, Mark.isTick, List.countP_append] using hcount
    · simpa using hd (.dead hbefore (hs ▸ hdead))

/-- **A tick under discipline**: a heartbeat is handed over, or the connection is given up if as
many ticks went before in the round as the grace has. -/
theorem step_heartbeatDue {grace k : Nat} {history : List Mark} (hk : s.connection = some k)
    (hs : s.heartbeat = Heartbeat.after grace history) (hd : Heartbeat.Disciplined grace history)
    (hfew : Heartbeat.beats history ≤ Heartbeat.mostMissed) :
    step c s m (.heartbeatDue k) =
      let ticked : Session := { s with heartbeat := s.heartbeat.tick.1 }
      if Heartbeat.beats history < max grace 1 then
        (ticked.pulsed m).deliver c m (Payload.heartbeat s.sequence)
      else ticked.leave c m "heartbeat ack timeout" := by
  have hstep := happens_step c s m (.heartbeatDue k)
  have htick := hd.tick hfew
  rw [← hs] at htick
  generalize step c s m (.heartbeatDue k) = r at hstep
  cases hstep with
  | staleDue _ hno => exact absurd hk hno
  | @due _ _ b hb =>
    rw [hb] at htick ⊢
    split at htick
    case isTrue hlt => rw [if_pos hlt]
    case isFalse => cases htick
  | @dead _ _ b _ hb =>
    rw [hb] at htick ⊢
    split at htick
    case isTrue => cases htick
    case isFalse hge => rw [if_neg hge]

end Session

namespace Record

open Heartbeat

variable {c : Config} {log : List Record} {s : Session}

/-- **The tracker of a session** has a history, with the ticks of the connections that it heard. -/
theorem Chain.exists_history {shard : Shard} {begun : Instant}
    (h : Chain c (.new c shard begun) log s) :
    ∃ history, s.heartbeat = after c.heartbeatAckGrace history ∧
      history.countP Mark.isTick = log.countP (fun r => r.session.ticks r.input) ∧
      ((∀ r ∈ log, r.session.message? r.input ≠ some .heartbeat) →
        Disciplined c.heartbeatAckGrace history) := by
  induction log using List.reverseRecOn generalizing s with
  | nil =>
    obtain rfl : Session.new c shard begun = s := h
    exact ⟨[], rfl, rfl, fun _ => .nil⟩
  | append_singleton log r ih =>
    obtain ⟨u, hbefore, hr, hnext⟩ := chain_append.mp h
    obtain rfl : r.session = u := hr
    obtain rfl : r.next c = s := hnext
    obtain ⟨history, hheartbeat, hcount, hd⟩ := ih hbefore
    obtain ⟨more, hb, hmore, hdmore⟩ := (Session.beats_happens
      (Session.happens_step c r.session r.moment r.input)).exists_history hheartbeat
    refine ⟨history ++ more, hb, ?_, fun hno => ?_⟩
    · rw [hmore, hcount, List.countP_append]
      simp [List.countP_cons]
    · exact hdmore (hno r (by simp)) (hd fun x hx => hno x (List.mem_append_left _ hx))

/-- **Heartbeats.** A tracker answers what its history comes to, as long as the ticks of the history
can be counted. The tracker of a session has a history, with the ticks of the connections that it
heard. As long as the server wants no heartbeat for itself, that is disciplined: so a tick hands
over a heartbeat, or gives the connection up if as many ticks went before in the round as the grace
has. -/
theorem heartbeats_of_history :
    (∀ grace history, history.countP Mark.isTick ≤ mostMissed → Answers grace history) ∧
    ∀ (c : Config) (shard : Shard) (begun : Instant) (log : List Record) (s : Session),
      Chain c (.new c shard begun) log s →
      (∀ r ∈ log, r.session.message? r.input ≠ some .heartbeat) →
      log.countP (fun r => r.session.ticks r.input) ≤ mostMissed →
      ∃ history, s.heartbeat = after c.heartbeatAckGrace history ∧
        history.countP Mark.isTick = log.countP (fun r => r.session.ticks r.input) ∧
        Disciplined c.heartbeatAckGrace history ∧
        ∀ k m, s.connection = some k →
          Session.step c s m (.heartbeatDue k) =
            let ticked : Session := { s with heartbeat := s.heartbeat.tick.1 }
            if beats history < max c.heartbeatAckGrace 1 then
              (ticked.pulsed m).deliver c m (Payload.heartbeat s.sequence)
            else ticked.leave c m "heartbeat ack timeout" := by
  refine ⟨fun grace history hfew => answers_of_countP_le grace hfew, ?_⟩
  intro c shard begun log s h hno hfew
  obtain ⟨history, hheartbeat, hcount, hd⟩ := h.exists_history
  refine ⟨history, hheartbeat, hcount, hd hno, fun k m hk => ?_⟩
  have hbeats : beats history ≤ mostMissed :=
    Nat.le_trans (beats_le_countP history) (hcount ▸ hfew)
  exact Session.step_heartbeatDue hk hheartbeat (hd hno) hbeats

/-- A connection that is opened, and two of its ticks, a second and two after the beginning. -/
def twoTicks : List Desk.Move :=
  [.post .start, .handle 0 0, .connect 1, .pass, .handle 0 0, .post (.heartbeatDue 1),
    .handle (Span.ofSecs 1) 0, .post (.heartbeatDue 1), .handle (Span.ofSecs 2) 0]

/-- Of three ticks of a tracker with a grace of two, the third finds the connection dead; a session
with two ticks has a history of two. -/
theorem heartbeats_of_history_unanswered :
    (after 2 [.tick, .sent 1, .tick, .sent 2]).tick.2 = .dead 2 ∧
      ((after 2 [.tick, .sent 1, .tick, .sent 2, .tick]).acked 7).2 = some 5 ∧
      ∃ d history, (Desk.begin {} ⟨0, 1⟩ 0).run {} twoTicks = some d ∧
        d.session.heartbeat = after 2 history ∧ history.countP Mark.isTick = 2 ∧
        Disciplined 2 history := by
  obtain ⟨htracker, hsession⟩ := heartbeats_of_history
  have hanswers := htracker 2 [.tick, .sent 1, .tick, .sent 2, .tick] (by decide)
  obtain ⟨d, hd, hall⟩ := Option.map_eq_some_iff.mp (show
    ((Desk.begin {} ⟨0, 1⟩ 0).run {} twoTicks).map (fun d =>
      (d.log.countP (fun r => r.session.ticks r.input),
        d.log.all fun r => (r.session.message? r.input).isNone)) = some (2, true) by decide +kernel)
  obtain ⟨hcount, hnone⟩ : d.log.countP (fun r => r.session.ticks r.input) = 2 ∧
      (d.log.all fun r => (r.session.message? r.input).isNone) = true := by simpa using hall
  have hno : ∀ r ∈ d.log, r.session.message? r.input ≠ some .heartbeat := by
    intro r hr heq
    simpa [heq] using List.all_eq_true.mp hnone r hr
  have hchain : Chain {} (.new {} ⟨0, 1⟩ 0) d.log d.session :=
    Desk.chain_run (d := Desk.begin {} ⟨0, 1⟩ 0) rfl hd
  obtain ⟨history, hheartbeat, hticks, hdisciplined, -⟩ :=
    hsession {} ⟨0, 1⟩ 0 d.log d.session hchain hno (by rw [hcount]; decide)
  refine ⟨(hanswers.tick [.tick, .sent 1, .tick, .sent 2] rfl).trans (by decide),
    (hanswers.acked 7).trans (by decide), d, history, hd, hheartbeat, ?_, hdisciplined⟩
  rw [hticks, hcount]

end Record

end Switchboard
