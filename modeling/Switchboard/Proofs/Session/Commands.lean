import Switchboard.Proofs.Pacing.Grants
import Switchboard.Proofs.Session.Announcements
import Switchboard.Proofs.Session.Handshakes

/-!
# Commands of the application

A command is looked at three times before it is handed over: its opcode may belong to the session,
the session may not be at work, and there may be no place left in the minute. A command that is
refused leaves no trace. One that is admitted takes a place of its connection, and nothing else
does.

## Main definitions

* `Session.ruling`: what a command is told.
* `Record.admitted`: when commands were admitted on a connection.
* `Record.Ruled`: what holds of the commands of a run.

## Main results

* `Session.step_of_refused`, `Session.step_of_admitted`: what a command comes to.
* `Session.budgets_happens`: what all else does to the places that are left.
* `Desk.commands_of_run`: the commands of all runs.
-/
namespace Switchboard

theorem Phase.isConnected_of_isReady {p : Phase} (h : p.isReady = true) :
    p.isConnected = true := by
  cases p <;> simp_all [isReady, isConnected]

namespace Session

/-! ## One command -/

/-- What a command is told: its opcode decides first, then the phase, and then the rate. -/
def ruling (s : Session) (now : Instant) (op : Nat) : Except Failure Unit :=
  match Turn.commandRefusal? s op with
  | some failure => .error failure
  | none =>
    match (s.commands.tryAcquire now).2 with
    | .error wait => .error (s.commands.refusal wait)
    | .ok () => .ok ()

/-- A payload goes over the current connection, and the sender learns what came of it. -/
def handOver (m : Moment) (s : Session) (p : String) : List Effect :=
  match m.sending with
  | .ok () => s.link.current.toList.map (.send · p) ++ [.reply (.ok ())]
  | .error failure => [.reply (.error failure)]

variable {c : Config} {m : Moment} {s : Session} {op : Nat} {data : Json}

theorem ruling_eq_ok {now : Instant} : s.ruling now op = .ok () ↔
    Opcode.allowsApplication op = true ∧ s.phase.isReady = true ∧
      (s.commands.tryAcquire now).2 = .ok () := by
  cases hop : Opcode.allowsApplication op <;> cases hp : s.phase.isReady <;>
    cases ha : (s.commands.tryAcquire now).2 <;> simp [ruling, Turn.commandRefusal?, hop, hp, ha]

/-- **A command that is refused** leaves the session as it was, and nothing is sent. -/
theorem step_of_refused {failure : Failure} (h : s.ruling m.now op = .error failure) :
    step c s m (.command op data) = (s, [.reply (.error failure)]) := by
  simp only [step, Turn.handle, Turn.command]
  cases hr : Turn.commandRefusal? s op with
  | some f =>
    obtain rfl : f = failure := by simpa [ruling, hr] using h
    rfl
  | none =>
    cases ha : (s.commands.tryAcquire m.now).2 with
    | ok _ => simp [ruling, hr, ha] at h
    | error wait =>
      obtain rfl : s.commands.refusal wait = failure := by simpa [ruling, hr, ha] using h
      have hsame := Window.tryAcquire_of_error ha
      simp [Turn.update, Turn.emit, hsame]

/-- **A command that is admitted** takes a place, and is handed over. -/
theorem step_of_admitted (h : s.ruling m.now op = .ok ()) :
    step c s m (.command op data) =
      ({ s with commands := (s.commands.tryAcquire m.now).1 },
        s.handOver m (Payload.command op data)) := by
  obtain ⟨hop, hp, ha⟩ := ruling_eq_ok.mp h
  have hr : Turn.commandRefusal? s op = none := by simp [Turn.commandRefusal?, hop, hp]
  cases hm : m.sending with
  | error failure =>
    simp [step, Turn.handle, Turn.command, hr, ha, hm, handOver, Turn.update, Turn.emit]
  | ok _ =>
    cases hl : s.link.current <;>
      simp [step, Turn.handle, Turn.command, hr, ha, hm, hl, handOver, Turn.update, Turn.emit]

/-! ## All else -/

/-- What a step that is no command does to the places that are left. -/
inductive Budgets (c : Config) (s r : Session) : Prop where
  | keep (hw : r.commands = s.commands) (hc : r.connection = s.connection ∨ r.connection = none)
      (hb : r.link.begun = s.link.begun)
  /-- A further connection begins, with all places. -/
  | renew (hw : r.commands = freshCommands c) (hc : r.connection = some (s.link.begun + 1))
      (hb : r.link.begun = s.link.begun + 1)

/-- The same after changes that leave what matters here. -/
theorem Budgets.trans {t r : Session} (h : Budgets c t r) (hw : t.commands = s.commands)
    (hc : t.connection = s.connection ∨ t.connection = none)
    (hb : t.link.begun = s.link.begun) : Budgets c s r := by
  cases h with
  | keep hw' hc' hb' =>
    refine .keep (hw'.trans hw) ?_ (hb'.trans hb)
    rcases hc' with hc' | hc'
    · rwa [hc']
    · exact .inr hc'
  | renew hw' hc' hb' => exact .renew hw' (hb ▸ hc') (hb ▸ hb')

theorem budgets_retreat {reason : String} : Budgets c s (s.retreat c m reason).1 := by
  unfold retreat
  split <;> exact .keep rfl (.inr rfl) rfl

theorem budgets_leave {reason : String} : Budgets c s (s.leave c m reason).1 := by
  unfold leave
  split
  · exact .renew rfl rfl rfl
  · exact budgets_retreat

theorem budgets_deliver {payload : String} : Budgets c s (s.deliver c m payload).1 := by
  unfold deliver
  split
  · exact .keep rfl (.inl rfl) rfl
  · exact budgets_retreat

theorem budgets_lose {code : Option Nat} {reason : String} :
    Budgets c s (s.lose c m code reason).1 := by
  rw [lose, fst_following]
  cases CloseAction.ofCode code with
  | authenticationFailed => exact .keep rfl (.inr rfl) rfl
  | fatal => exact .keep rfl (.inr rfl) rfl
  | reidentify =>
    exact (budgets_retreat (s := (s.lost code).forget)).trans rfl (.inr rfl) rfl
  | resume => exact (budgets_retreat (s := s.lost code)).trans rfl (.inr rfl) rfl

theorem budgets_accept {kind : String} {q : Nat} : Budgets c s (s.accept kind q data).1 := by
  obtain ⟨_, _, _, _, _, _, h⟩ := exists_accept s kind q data
  rw [h]
  exact .keep rfl (.inl rfl) rfl

theorem budgets_meets {k : Nat} {message : Message} {r : Session × List Effect}
    (h : Meets c m s k message r) : Budgets c s r.1 := by
  cases h with
  | resume _ _ _ _ => exact budgets_deliver.trans rfl (.inl rfl) rfl
  | pulse => exact budgets_deliver.trans rfl (.inl rfl) rfl
  | leave => exact budgets_leave
  | redial _ => exact .renew rfl rfl rfl
  | accept _ _ _ _ => exact budgets_accept
  | _ => exact .keep rfl (.inl rfl) rfl

/-- **All else** takes no place: the places that are left stay, or a further connection begins with
all of them. -/
theorem budgets_happens {i : Input} {r : Session × List Effect} (h : Happens c m s i r)
    (hi : ∀ op data, i ≠ .command op data) : Budgets c s r.1 := by
  cases h with
  | start _ => exact .renew rfl rfl rfl
  | restart => exact .renew rfl rfl rfl
  | shutdown => exact .keep rfl (.inr rfl) rfl
  | refuse op data _ _ => exact absurd rfl (hi op data)
  | command op data _ _ _ _ => exact absurd rfl (hi op data)
  | message _ _ _ _ hr => exact (budgets_meets hr).trans rfl (.inl rfl) rfl
  | close _ _ _ _ => exact budgets_lose
  | fail _ _ _ _ => exact budgets_retreat
  | due _ _ _ => exact budgets_deliver.trans rfl (.inl rfl) rfl
  | dead _ _ _ => exact budgets_leave.trans rfl (.inl rfl) rfl
  | denied _ _ _ _ => exact budgets_retreat.trans rfl (.inl rfl) rfl
  | identify _ _ _ => exact budgets_deliver.trans rfl (.inl rfl) rfl
  | reconnect _ _ _ => exact .renew rfl rfl rfl
  | _ => exact .keep rfl (.inl rfl) rfl

/-- What is sent on an input that is no command is a payload that belongs to the session. -/
theorem allowsApplication_of_speech {i : Input} {p : String} (h : Speech c s i p)
    (hi : ∀ op data, i ≠ .command op data) :
    Opcode.allowsApplication (Payload.opcode p) = false := by
  cases h with
  | command op data _ => exact absurd rfl (hi op data)
  | _ =>
    simp only [Payload.opcode_heartbeat, Payload.opcode_resume, Payload.opcode_identify]
    rfl

end Session

/-! ## Runs -/

namespace Record

/-- When the input is a command that is admitted. -/
def admission? (r : Record) : Option Instant :=
  match r.input with
  | .command op _ =>
    match r.session.ruling r.moment.now op with
    | .ok () => some r.moment.now
    | .error _ => none
  | _ => none

/-- When commands were admitted on a connection. -/
def admitted (k : Nat) (log : List Record) : List Instant :=
  log.filterMap fun r => if r.session.connection = some k then r.admission? else none

variable {c : Config} {log : List Record} {r : Record} {k : Nat}

theorem admitted_concat (k : Nat) (log : List Record) (r : Record) :
    admitted k (log ++ [r]) = admitted k log ++
      if r.session.connection = some k then r.admission?.toList else [] := by
  by_cases hk : r.session.connection = some k <;> cases hr : r.admission? <;>
    simp [admitted, hk, hr]

theorem admitted_of_none (h : r.admission? = none) (k : Nat) (log : List Record) :
    admitted k (log ++ [r]) = admitted k log := by
  simp [admitted_concat, h]

theorem exists_of_admission? {now : Instant} (h : r.admission? = some now) :
    ∃ op data, r.input = .command op data ∧ r.session.ruling r.moment.now op = .ok () ∧
      r.moment.now = now := by
  unfold admission? at h
  split at h
  case h_1 op data hi =>
    split at h
    case h_1 hruling => exact ⟨op, data, hi, hruling, Option.some.inj h⟩
    case h_2 => cases h
  case h_2 => cases h

theorem admitted_sublist (k : Nat) (log : List Record) :
    (admitted k log).Sublist (log.map (·.moment.now)) := by
  induction log with
  | nil => exact List.Sublist.refl _
  | cons r rest ih =>
    rw [admitted, List.filterMap_cons]
    split
    case h_1 _ => exact ih.cons _
    case h_2 now hr =>
      split at hr
      · obtain ⟨-, -, -, -, rfl⟩ := exists_of_admission? hr
        exact ih.cons_cons _
      · cases hr

theorem admission?_of_admitted {op : Nat} {data : Json} (hi : r.input = .command op data)
    (h : r.session.ruling r.moment.now op = .ok ()) : r.admission? = some r.moment.now := by
  simp [admission?, hi, h]

/-- What is not admitted takes no place. -/
theorem budgets_of_none (c : Config) (h : r.admission? = none) :
    Session.Budgets c r.session (r.next c) := by
  by_cases hi : ∃ op data, r.input = .command op data
  · obtain ⟨op, data, hi⟩ := hi
    cases hruling : r.session.ruling r.moment.now op with
    | ok _ => simp [admission?_of_admitted hi hruling] at h
    | error failure =>
      rw [next, hi, Session.step_of_refused hruling]
      exact .keep rfl (.inl rfl) rfl
  · exact Session.budgets_happens (Session.happens_step ..) fun op data heq => hi ⟨op, data, heq⟩

/-- What holds of the places of a session after its records. -/
structure Counted (c : Config) (log : List Record) (s : Session) : Prop where
  coupled : s.Coupled
  known : s.Numbered
  /-- Nothing was admitted on connections that were not begun. -/
  later : ∀ k, s.link.begun < k → admitted k log = []
  /-- What was admitted on a connection is what a limit of its own grants. -/
  granted : ∀ k, (Session.freshCommands c).granted (admitted k log) = admitted k log
  /-- What is left is what was not taken on the connection that is heard. -/
  left : ∀ k, s.connection = some k → s.commands = (Session.freshCommands c).asked (admitted k log)

theorem counted_new (c : Config) (shard : Shard) (now : Instant) :
    Counted c [] (.new c shard now) where
  coupled := Session.coupled_new c shard now
  known := Session.numbered_new c shard now
  later := fun _ _ => rfl
  granted := fun _ => rfl
  left := by simp [Session.new]

/-- A command that is admitted takes a place of the connection that is heard. -/
theorem Counted.takes (h : Counted c log r.session) {op : Nat} {data : Json}
    (hi : r.input = .command op data) (hruling : r.session.ruling r.moment.now op = .ok ()) :
    Counted c (log ++ [r]) (r.next c) := by
  obtain ⟨-, hp, ha⟩ := Session.ruling_eq_ok.mp hruling
  obtain ⟨k, hk⟩ : ∃ k, r.session.connection = some k :=
    Option.isSome_iff_exists.mp (h.coupled.connected.mpr (Phase.isConnected_of_isReady hp))
  have hnext : r.next c = { r.session with
      commands := (r.session.commands.tryAcquire r.moment.now).1 } := by
    rw [next, hi, Session.step_of_admitted hruling]
  have hother : ∀ j, j ≠ k → admitted j (log ++ [r]) = admitted j log := by
    intro j hj
    have hne : r.session.connection ≠ some j := fun heq => hj (Option.some.inj (heq.symm.trans hk))
    simp [admitted_concat, hne]
  have hsame : admitted k (log ++ [r]) = admitted k log ++ [r.moment.now] := by
    simp [admitted_concat, hk, admission?_of_admitted hi hruling]
  rw [hnext]
  refine ⟨?_, h.known, fun j hj => ?_, fun j => ?_, fun j hj => ?_⟩
  · exact ⟨h.coupled.connected, h.coupled.apart, h.coupled.settled, h.coupled.link,
      h.coupled.tasks, h.coupled.ready, h.coupled.resumable⟩
  · have hle := h.known k hk
    rw [hother j (Nat.ne_of_gt (Nat.lt_of_le_of_lt hle hj))]
    exact h.later j hj
  · by_cases hjk : j = k
    · subst hjk
      rw [hsame, Window.granted_concat, h.granted, ← h.left j hk, ha]
      rfl
    · rw [hother j hjk, h.granted]
  · obtain rfl : k = j := Option.some.inj (hk.symm.trans hj)
    rw [hsame, Window.asked_concat, ← h.left k hk]

/-- One record more. -/
theorem Counted.next (h : Counted c log r.session) (hstop : r.input ≠ .stop) :
    Counted c (log ++ [r]) (r.next c) := by
  have hstep := Session.happens_step c r.session r.moment r.input
  cases ha : r.admission? with
  | some now =>
    obtain ⟨op, data, hi, hruling, -⟩ := exists_of_admission? ha
    exact h.takes hi hruling
  | none =>
    have hsame := fun j => admitted_of_none ha j log
    have hcoupled : (r.next c).Coupled := Session.coupled_happens hstop hstep h.coupled
    have hknown : (r.next c).Numbered :=
      h.known.of_moves (Session.moves_happens h.coupled.resumable hstep)
    cases budgets_of_none c ha with
    | keep hw hc hb =>
      refine ⟨hcoupled, hknown, fun j hj => ?_, fun j => ?_, fun j hj => ?_⟩
      · rw [hsame]
        exact h.later j (hb ▸ hj)
      · rw [hsame, h.granted]
      · rcases hc with hc | hc
        · rw [hsame, hw, h.left j (hc ▸ hj)]
        · simp [hc] at hj
    | renew hw hc hb =>
      refine ⟨hcoupled, hknown, fun j hj => ?_, fun j => ?_, fun j hj => ?_⟩
      · rw [hsame]
        exact h.later j (by omega)
      · rw [hsame, h.granted]
      · -- Nothing was admitted yet on the connection that begins here.
        obtain rfl : r.session.link.begun + 1 = j := Option.some.inj (hc.symm.trans hj)
        rw [hsame, h.later _ (Nat.lt_succ_self _), hw]
        rfl

theorem Chain.counted {shard : Shard} {now : Instant} {s : Session}
    (h : Chain c (.new c shard now) log s) (hstop : ∀ r ∈ log, r.input ≠ .stop) :
    Counted c log s :=
  h.invariant hstop (counted_new c shard now) fun _ _ hi hcounted => hcounted.next hi

/-- What holds of the commands of a run that has come to a session. -/
structure Ruled (c : Config) (log : List Record) (s : Session) : Prop where
  /-- A payload that applications may send is a command that is admitted at work, on the connection
  that is heard; all others answer something else. -/
  frames : ∀ r ∈ log, ∀ k p,
    .send k p ∈ (Session.step c r.session r.moment r.input).2 →
      (∃ op data, r.input = .command op data ∧ p = Payload.command op data ∧
        Opcode.allowsApplication op = true ∧
        (r.session.phase = .ready ∨ r.session.phase = .heartbeating) ∧
        r.session.ruling r.moment.now op = .ok () ∧ r.session.connection = some k) ∨
      (∀ op data, r.input ≠ .command op data) ∧
        Opcode.allowsApplication (Payload.opcode p) = false
  /-- A command that is refused leaves no trace. -/
  refused : ∀ r ∈ log, ∀ op data failure, r.input = .command op data →
    r.session.ruling r.moment.now op = .error failure →
      Session.step c r.session r.moment r.input = (r.session, [.reply (.error failure)])
  /-- Those that are admitted on a connection fall into minutes. -/
  minutes : ∀ k, ∃ rounds, Window.grantsOf rounds = admitted k log ∧
    Window.Rounds c.gatewayCommandsPerMinute (Span.ofSecs 60) rounds
  /-- The places that are left are those that they have not taken. -/
  left : ∀ k, s.connection = some k →
    s.commands = (Session.freshCommands c).asked (admitted k log)
  /-- Nothing else takes a place. -/
  spared : ∀ r ∈ log, r.admission? = none →
    (r.next c).commands = r.session.commands ∨
      (r.next c).commands = Session.freshCommands c ∧
        (r.next c).connection = some (r.session.link.begun + 1)

/-- A payload is sent on a command that is admitted, or belongs to the session. -/
theorem frames_of_coupled (hs : r.session.Coupled) {p : String}
    (h : .send k p ∈ (Session.step c r.session r.moment r.input).2) :
    (∃ op data, r.input = .command op data ∧ p = Payload.command op data ∧
      Opcode.allowsApplication op = true ∧
      (r.session.phase = .ready ∨ r.session.phase = .heartbeating) ∧
      r.session.ruling r.moment.now op = .ok () ∧ r.session.connection = some k) ∨
    (∀ op data, r.input ≠ .command op data) ∧
      Opcode.allowsApplication (Payload.opcode p) = false := by
  have hstep := Session.happens_step c r.session r.moment r.input
  obtain ⟨hl, hspeech⟩ := Session.speech_of_recalls (Session.recalls_happens hstep) h
  by_cases hi : ∃ op data, r.input = .command op data
  · obtain ⟨op, data, hi⟩ := hi
    rw [hi] at h
    cases hruling : r.session.ruling r.moment.now op with
    | error failure => simp [Session.step_of_refused hruling] at h
    | ok _ =>
      obtain ⟨hop, hp, -⟩ := Session.ruling_eq_ok.mp hruling
      have hpayload : p = Payload.command op data := by
        rw [Session.step_of_admitted hruling, Session.handOver] at h
        cases hm : r.moment.sending <;> simp_all
      refine .inl ⟨op, data, hi, hpayload, hop, ?_, hruling, hs.link.trans hl⟩
      cases hphase : r.session.phase <;> simp_all [Phase.isReady]
  · have hnot : ∀ op data, r.input ≠ .command op data := fun op data heq => hi ⟨op, data, heq⟩
    exact .inr ⟨hnot, Session.allowsApplication_of_speech hspeech hnot⟩

theorem Chain.ruled {shard : Shard} {now : Instant} {s : Session}
    (h : Chain c (.new c shard now) log s) (hstop : ∀ r ∈ log, r.input ≠ .stop)
    (hsorted : (log.map (·.moment.now)).Pairwise (· ≤ ·)) : Ruled c log s := by
  have hcounted := h.counted hstop
  have hcoupled := h.coupled (Session.coupled_new c shard now) hstop
  refine ⟨fun r hr k p hp => frames_of_coupled (hcoupled r hr) hp, ?_, fun k => ?_, hcounted.left,
    fun r _ ha => ?_⟩
  · intro r _ op data failure hi hruling
    rw [hi]
    exact Session.step_of_refused hruling
  · obtain ⟨rounds, hrounds, hgrants⟩ := Window.exists_rounds "gateway_commands"
      c.gatewayCommandsPerMinute commandWindow (hsorted.sublist (admitted_sublist k log))
    exact ⟨rounds, hgrants.trans (hcounted.granted k), hrounds⟩
  · cases budgets_of_none c ha with
    | keep hw _ _ => exact .inl hw
    | renew hw hc _ => exact .inr ⟨hw, hc⟩

end Record

namespace Desk

open Record

variable {c : Config} {d d' : Desk} {a : Move}

/-- What the tasks around a session do apart from it is nothing to the session. -/
theorem session_of_aside (ha : d.move c a = some d') (hother : ∀ time draw, a ≠ .handle time draw) :
    d'.session = d.session ∧ d'.log = d.log := by
  cases a with
  | handle time draw => exact absurd rfl (hother time draw)
  | post i =>
    obtain ⟨-, rfl⟩ : i.isErrand = true ∧ { d with mail := d.mail ++ [i] } = d' := by
      simpa [move] using ha
    exact ⟨rfl, rfl⟩
  | pass =>
    cases hnews : d.news with
    | nil => simp [move, hnews] at ha
    | cons ke rest =>
      obtain rfl : { d with news := rest, mail := d.mail ++ [.inbound ke.1 ke.2] } = d' := by
        simpa [move, hnews] using ha
      exact ⟨rfl, rfl⟩
  | read k i =>
    obtain ⟨x, -, rfl⟩ := Option.map_eq_some_iff.mp ha
    cases i.last? <;> exact ⟨rfl, rfl⟩
  | write k broken =>
    obtain ⟨x, -, hw⟩ := Option.bind_eq_some_iff.mp ha
    obtain ⟨y, -, rfl⟩ := Option.map_eq_some_iff.mp hw
    exact ⟨rfl, rfl⟩
  | _ =>
    obtain ⟨x, -, rfl⟩ := Option.map_eq_some_iff.mp ha
    exact ⟨rfl, rfl⟩

/-- **Commands of the application.** Whatever comes to a session in the order of time, its commands
are ruled. So they are for every schedule of the tasks around it; what these do apart from it, as
answering a ping, leaves the session and its places alone. -/
theorem commands_of_run (c : Config) (shard : Shard) (now : Instant) :
    (∀ log s, Chain c (.new c shard now) log s → (∀ r ∈ log, r.input ≠ .stop) →
      (log.map (·.moment.now)).Pairwise (· ≤ ·) → Ruled c log s) ∧
    (∀ moves d, (begin c shard now).run c moves = some d →
      Chain c (.new c shard now) d.log d.session ∧ ∀ r ∈ d.log, r.input ≠ .stop) ∧
    ∀ (d d' : Desk) (a : Move), d.move c a = some d' → (∀ time draw, a ≠ .handle time draw) →
      d'.session = d.session ∧ d'.log = d.log := by
  refine ⟨fun log s h hstop hsorted => h.ruled hstop hsorted, fun moves d hr => ?_,
    fun d d' a ha hother => session_of_aside ha hother⟩
  have hsound := sound_run (sound_begin c shard now) hr
  exact ⟨chain_run (d := begin c shard now) rfl hr, fun r hmem => (hsound.log r hmem).2⟩

/-- A session at work with a place in each minute: of three commands, the first is admitted, the
second comes too early, and the third is not for applications to send. -/
def threeCommands : List Move :=
  [.post .start, .handle 0 0, .connect 1, .pass, .handle 0 0,
    .read 1 (.frame (.ofString welcome)), .pass, .handle 0 0,
    .post (.command 3 .null), .handle 10 0, .post (.command 3 .null), .handle 20 0,
    .post (.command 2 .null), .handle 30 0]

/-- One is admitted, and the session is as it was after it. -/
theorem commands_of_run_three :
    ∃ d, (begin { gatewayCommandsPerMinute := 1 } ⟨0, 1⟩ 0).run { gatewayCommandsPerMinute := 1 }
        threeCommands = some d ∧ (∀ r ∈ d.log, r.input ≠ .stop) ∧
      (d.log.map (·.moment.now)).Pairwise (· ≤ ·) ∧ admitted 1 d.log = [10] ∧
      Ruled { gatewayCommandsPerMinute := 1 } d.log d.session := by
  obtain ⟨d, hd, hall⟩ := Option.map_eq_some_iff.mp (show
    ((begin { gatewayCommandsPerMinute := 1 } ⟨0, 1⟩ 0).run { gatewayCommandsPerMinute := 1 }
        threeCommands).map (fun d => (d.log.map (·.moment.now), admitted 1 d.log)) =
      some ([0, 0, 0, 10, 20, 30], [10]) by decide +kernel)
  obtain ⟨htimes, hadmitted⟩ : d.log.map (·.moment.now) = _ ∧ admitted 1 d.log = _ := by
    simpa using hall
  obtain ⟨hruled, hruns, -⟩ := commands_of_run { gatewayCommandsPerMinute := 1 } ⟨0, 1⟩ 0
  obtain ⟨hchain, hstop⟩ := hruns threeCommands d hd
  have hsorted : (d.log.map (·.moment.now)).Pairwise (· ≤ ·) := by
    rw [htimes]
    decide
  exact ⟨d, hd, hstop, hsorted, hadmitted, hruled d.log d.session hchain hstop hsorted⟩

end Desk

end Switchboard
