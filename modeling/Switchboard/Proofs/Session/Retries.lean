import Mathlib.Data.List.Induction
import Switchboard.Proofs.Session.Coupling

/-!
# Counting reconnects

A session counts the reconnects that it plans, from one, until the server accepts it or it is
restarted, and gives up when there would be too many. Every planned reconnect has a number of its
own, and what is due under a number begins a connection once at most.

A diary is a run with what has to be known of the past: the notices about reconnects since the count
began, how often a reconnect was asked for at all, and the numbers of those that were planned and of
those that came about.

## Main definitions

* `Session.schedules`: the inputs on which a session plans a reconnect or gives up.
* `Session.Books`: what a step does to the count and to the plan.
* `Diary`: a session with what was booked; `Diary.Kept` is the invariant.

## Main results

* `Session.books_happens`: every step is one of five as far as reconnects go.
* `Diary.retries_of_run`: the count, the limit and the numbers, for all runs.
-/
namespace Switchboard

namespace Session

/-! ## What is booked -/

/-- The count of reconnects after a notice: one more for a reconnect, and none again when the server
accepted the session. -/
def Effect.tally (n : Nat) : Effect → Nat
  | .announce (.reconnectScheduled _ _) => n + 1
  | .announce (.ready _) => 0
  | .announce .resumed => 0
  | _ => n

/-- The number under which an effect plans a reconnect. -/
def Effect.planned? : Effect → Option Nat
  | .plan epoch _ => some epoch
  | _ => none

/-- The effect counts for reconnects. -/
def Effect.isBooked : Effect → Bool
  | .announce (.reconnectScheduled _ _) | .announce (.ready _) | .announce .resumed => true
  | .plan _ _ => true
  | _ => false

/-- The effects that count for reconnects. -/
abbrev booked (es : List Effect) : List Effect := select (Option.guard Effect.isBooked) es

instance : Effect.Ignores Effect.isChore (Option.guard Effect.isBooked) :=
  ⟨fun e he => by cases e <;> simp_all [Effect.isBooked, Effect.isChore, Option.guard]⟩

/-- The input begins the count anew. -/
def Input.isRestart : Input → Bool
  | .restart => true
  | _ => false

/-- The count of reconnects after a step. -/
def tally (n : Nat) (i : Input) (es : List Effect) : Nat :=
  es.foldl Effect.tally (if i.isRestart then 0 else n)

/-- The number of the reconnect that is due, once for every connection that was begun for it. -/
def Input.taken (es : List Effect) : Input → List Nat
  | .reconnectDue n => (es.filterMap Effect.begun?).map fun _ => n
  | _ => []

/-- The session plans a reconnect on the input, or gives up: its connection was closed or failed, a
payload of its own cannot be sent, the admission was denied, or it has to leave the connection and
there is nothing to take up. -/
def schedules (m : Moment) (s : Session) : Input → Bool
  | .inbound k (.closed code _) =>
    s.connection = some k &&
      (CloseAction.ofCode code = .resume || CloseAction.ofCode code = .reidentify)
  | .inbound k (.failed _) => s.connection = some k && !m.live
  | .inbound k (.received text) =>
    s.connection = some k &&
      match Message.parse text with
      | .ok (.hello _) => s.Unshaken && s.canResume && !m.sending.isOk
      | .ok .heartbeat => !m.sending.isOk
      | .ok .reconnect => !s.canResume
      | _ => false
  | .heartbeatDue k =>
    s.connection = some k &&
      match s.heartbeat.tick.2 with
      | .send => !m.sending.isOk
      | .dead _ => !s.canResume
  | .admitted k outcome =>
    s.connection = some k && s.Unshaken && !(outcome.isOk && m.sending.isOk)
  | _ => false

theorem mem_booked {es : List Effect} {e : Effect} (h : e.isBooked = true) :
    e ∈ booked es ↔ e ∈ es := by
  simp [select_guard, h]

theorem foldl_tally (es : List Effect) (n : Nat) :
    es.foldl Effect.tally n = (booked es).foldl Effect.tally n := by
  induction es generalizing n with
  | nil => rfl
  | cons e es ih =>
    cases hb : e.isBooked with
    | true => simp [hb, ih]
    | false =>
      have he : e.tally n = n := by
        cases e with
        | announce h => cases h <;> simp_all [Effect.tally, Effect.isBooked]
        | _ => rfl
      simp [hb, he, ih]

theorem filterMap_planned? (es : List Effect) :
    es.filterMap Effect.planned? = (booked es).filterMap Effect.planned? := by
  rw [booked, select_guard, List.filterMap_filter]
  congr 1
  funext e
  cases e with
  | plan epoch delay => rfl
  | _ => simp [Effect.planned?]

variable {c : Config} {m : Moment} {s : Session}

/-! ## What a step books -/

/-- What a step does to the count of reconnects and to the plan. -/
inductive Books (c : Config) (m : Moment) (s : Session) (i : Input) :
    Session × List Effect → Prop where
  /-- Nothing; a reconnect that is planned now was planned before. -/
  | nothing {r : Session × List Effect} (hs : s.schedules m i = false) (hi : i.isRestart = false)
      (ha : r.1.attempt = s.attempt) (he : s.epoch ≤ r.1.epoch)
      (hp : r.1.phase = .reconnectPending → s.phase = .reconnectPending ∧ r.1.epoch = s.epoch)
      (hb : booked r.2 = []) : Books c m s i r
  | restart {r : Session × List Effect} (hs : s.schedules m i = false) (hi : i.isRestart = true)
      (ha : r.1.attempt = 0) (he : s.epoch ≤ r.1.epoch) (hp : r.1.phase = .connecting)
      (hb : booked r.2 = []) : Books c m s i r
  /-- The server accepted the session. -/
  | accept {r : Session × List Effect} (hs : s.schedules m i = false) (hi : i.isRestart = false)
      (ha : r.1.attempt = 0) (he : r.1.epoch = s.epoch) (hp : r.1.phase = .ready)
      (e : Effect) (ht : ∀ n, e.tally n = 0) (hn : e.planned? = none)
      (hb : booked r.2 = [e]) : Books c m s i r
  /-- A reconnect is planned. -/
  | plan {r : Session × List Effect} (hs : s.schedules m i = true) (hi : i.isRestart = false)
      (hn : s.exceeded? c = none) (ha : r.1.attempt = s.nextAttempt) (he : r.1.epoch = s.epoch + 1)
      (hp : r.1.phase = .reconnectPending) (delay : Span)
      (hb : booked r.2 =
        [.announce (.reconnectScheduled s.nextAttempt delay), .plan (s.epoch + 1) delay]) :
      Books c m s i r
  /-- There were too many. -/
  | giveUp {r : Session × List Effect} (hs : s.schedules m i = true) (hi : i.isRestart = false)
      (most : Nat) (hn : s.exceeded? c = some most) (ha : r.1.attempt = s.nextAttempt)
      (he : r.1.epoch = s.epoch + 1) (hp : r.1.phase = .fatal) (reason : String)
      (hf : r.1.fatal = some (gaveUp most reason)) (hb : booked r.2 = []) : Books c m s i r

variable {i : Input}

/-- Nothing is booked, and the phase stays or is not that of a planned reconnect. -/
theorem Books.same {r : Session × List Effect} (hs : s.schedules m i = false)
    (hi : i.isRestart = false) (ha : r.1.attempt = s.attempt) (he : r.1.epoch = s.epoch)
    (hp : r.1.phase = s.phase ∨ r.1.phase ≠ .reconnectPending) (hb : booked r.2 = []) :
    Books c m s i r := by
  refine .nothing hs hi ha (Nat.le_of_eq he.symm) (fun h => ⟨?_, he⟩) hb
  rcases hp with hp | hp
  · exact hp ▸ h
  · exact absurd h hp

theorem books_retreat {t : Session} (before : List Effect) (hs : s.schedules m i = true)
    (hi : i.isRestart = false) (ha : t.attempt = s.attempt) (he : t.epoch = s.epoch)
    (hb : booked before = []) {reason : String} :
    Books c m s i (following before (t.retreat c m reason)) := by
  have hnext : t.nextAttempt = s.nextAttempt := by simp [nextAttempt, ha]
  have hex : t.exceeded? c = s.exceeded? c := by simp [exceeded?, hnext]
  cases hn : s.exceeded? c with
  | some most =>
    refine .giveUp hs hi most hn ?_ ?_ ?_ reason ?_ ?_ <;>
      simp [retreat, hex, hn, failed, released, idle, hnext, he, hb, Effect.isBooked]
  | none =>
    refine .plan hs hi hn ?_ ?_ ?_ (t.backoff.next m.draw).2 ?_ <;>
      simp [retreat, hex, hn, planned, released, idle, hnext, he, hb, Effect.isBooked]

theorem books_deliver {t : Session} (before : List Effect) {p : String}
    (hs : s.schedules m i = !m.sending.isOk) (hi : i.isRestart = false)
    (ha : t.attempt = s.attempt) (he : t.epoch = s.epoch) (hp : t.phase = s.phase)
    (hb : booked before = []) : Books c m s i (following before (t.deliver c m p)) := by
  unfold deliver
  split
  case h_1 hm =>
    refine .same (by simp [hs, hm, Except.isOk, Except.toBool]) hi ha he (.inl hp) ?_
    cases t.link.current <;> simp [hb, Effect.isBooked]
  case h_2 failure hm =>
    exact books_retreat before (by simp [hs, hm, Except.isOk, Except.toBool]) hi ha he hb

/-- Leaving the connection books a reconnect if there is nothing to take up. -/
theorem books_leave {t : Session} (hs : s.schedules m i = !s.canResume) (hi : i.isRestart = false)
    (hr : t.canResume = s.canResume) (ha : t.attempt = s.attempt) (he : t.epoch = s.epoch)
    {reason : String} : Books c m s i (t.leave c m reason) := by
  unfold leave
  split
  case isTrue h =>
    refine .same (by simp [hs, ← hr, h]) hi ha he (.inr (by simp [redial, dialed])) ?_
    simp [redial, Effect.isBooked]
  case isFalse h => exact books_retreat [] (by simp [hs, ← hr, h]) hi ha he rfl

theorem books_fail {t : Session} (before : List Effect) (hs : s.schedules m i = false)
    (hi : i.isRestart = false) (ha : t.attempt = s.attempt) (he : t.epoch = s.epoch)
    (hb : booked before = []) {cause : FatalCause} :
    Books c m s i (following before (t.fail cause)) := by
  refine .nothing hs hi ha ?_ (by simp [fail, failed]) ?_
  · simp [fail, failed, he]
  · simp [fail, hb, Effect.isBooked]

theorem books_lose {k : Nat} {code : Option Nat} {reason : String} (hk : s.connection = some k) :
    Books c m s (.inbound k (.closed code reason)) (s.lose c m code reason) := by
  have hb : booked (s.taskEnds ++ [.announce (.disconnected code reason)]) = [] := by
    simp [Effect.isBooked]
  have hs : s.schedules m (.inbound k (.closed code reason)) =
      (decide (CloseAction.ofCode code = .resume) ||
        decide (CloseAction.ofCode code = .reidentify)) := by
    simp [schedules, hk]
  unfold lose
  cases ha : CloseAction.ofCode code with
  | authenticationFailed =>
    rw [ha] at hs
    exact books_fail (t := s.lost code) _ hs rfl rfl rfl hb
  | fatal =>
    rw [ha] at hs
    exact books_fail (t := s.lost code) _ hs rfl rfl rfl hb
  | reidentify =>
    rw [ha] at hs
    exact books_retreat (t := (s.lost code).forget) _ hs rfl rfl rfl hb
  | resume =>
    rw [ha] at hs
    exact books_retreat (t := s.lost code) _ hs rfl rfl rfl hb

theorem books_accept (hs : s.schedules m i = false) (hi : i.isRestart = false) (kind : String)
    (q : Nat) (data : Json) : Books c m s i ((s.heard m).accept kind q data) := by
  cases hw : welcome? kind data with
  | some info =>
    rw [accept_welcome _ hw]
    exact .accept hs hi rfl rfl rfl (.announce (.ready info.sessionId)) (fun _ => rfl) rfl rfl
  | none =>
    by_cases hk : kind = "RESUMED"
    · subst hk
      rw [accept_resumed]
      exact .accept hs hi rfl rfl rfl (.announce .resumed) (fun _ => rfl) rfl rfl
    · rw [accept_other _ hw hk]
      exact .same hs hi rfl rfl (.inl rfl) rfl

theorem books_meets {k : Nat} {text : String} (hk : s.connection = some k) {message : Message}
    (ht : Message.parse text = .ok message) {r : Session × List Effect}
    (h : Meets c m (s.heard m) k message r) : Books c m s (.inbound k (.received text)) r := by
  cases h with
  | greet ms hu =>
    have hu' : ¬ s.Unshaken := hu
    exact .same (by simp [schedules, ht, hu']) rfl rfl rfl (.inl rfl) (by simp)
  | resume ms hu hid hq =>
    have hu' : s.Unshaken := hu
    have hr : s.canResume = true := canResume_eq_true.mpr ⟨_, _, hid, hq⟩
    exact books_deliver _ (by simp [schedules, hk, ht, hu', hr]) rfl rfl rfl rfl (by simp)
  | ask ms _ hr =>
    have hr' : s.canResume = false := hr
    exact .same (by simp [schedules, ht, hr']) rfl rfl rfl (.inl rfl)
      (by simp [Effect.isBooked])
  | pulse => exact books_deliver [] (by simp [schedules, hk, ht]) rfl rfl rfl rfl rfl
  | ack =>
    refine .same (by simp [schedules, ht]) rfl rfl rfl ?_ rfl
    by_cases hp : s.phase = .ready <;> simp [acked, heard, hp]
  | leave =>
    have hs : s.schedules m (.inbound k (.received text)) = !s.canResume := by
      simp [schedules, hk, ht]
    exact books_leave (t := s.heard m) hs rfl rfl rfl rfl
  | redial _ =>
    exact .same (by simp [schedules, ht]) rfl rfl rfl (.inr (by simp [redial, dialed]))
      (by simp [redial, Effect.isBooked])
  | reject _ _ =>
    exact .same (by simp [schedules, ht]) rfl rfl rfl
      (.inr (by simp [await, awaiting, rejected])) (by simp [Effect.isBooked])
  | accept kind q data _ => exact books_accept (by simp [schedules, ht]) rfl kind q data
  | skip _ _ _ _ => exact .same (by simp [schedules, ht]) rfl rfl rfl (.inl rfl) rfl
  | unknown _ => exact .same (by simp [schedules, ht]) rfl rfl rfl (.inl rfl) rfl

/-- Every step books nothing, begins the count anew, plans a reconnect or gives up. -/
theorem books_happens {r : Session × List Effect} (h : Happens c m s i r) : Books c m s i r := by
  have hdial : (s.dial c).1.phase ≠ .reconnectPending := by simp [dial, dialed]
  cases h with
  | start _ => exact .same rfl rfl rfl rfl (.inr hdial) (by simp [dial, Effect.isBooked])
  | restart =>
    exact .restart rfl rfl rfl (Nat.le_succ _) rfl (by simp [dial, Effect.isBooked])
  | shutdown =>
    exact .nothing rfl rfl rfl (Nat.le_succ _) (by simp [shut]) (by simp)
  | stop => exact .same rfl rfl rfl rfl (.inl rfl) (by simp)
  | refuse _ _ _ _ => exact .same rfl rfl rfl rfl (.inl rfl) (by simp [Effect.isBooked])
  | command _ _ _ _ _ _ =>
    refine .same rfl rfl rfl rfl (.inl rfl) ?_
    cases s.link.current <;> simp [Effect.isBooked]
  | opened _ _ =>
    exact .same rfl rfl rfl rfl (.inr (by simp)) (by simp [Effect.isBooked])
  | mumble _ _ _ _ ht =>
    exact .same (by simp [schedules, ht]) rfl rfl rfl (.inl rfl) rfl
  | message _ _ hk ht hr => exact books_meets hk ht hr
  | close _ _ _ hk => exact books_lose hk
  | fail _ _ hk hl => exact books_retreat [] (by simp [schedules, hk, hl]) rfl rfl rfl rfl
  | survive _ _ _ hl => exact .same (by simp [schedules, hl]) rfl rfl rfl (.inl rfl) rfl
  | due _ hk hb => exact books_deliver [] (by simp [schedules, hk, hb]) rfl rfl rfl rfl rfl
  | @dead k hk b _ hb =>
    have hs : s.schedules m (.heartbeatDue k) = !s.canResume := by simp [schedules, hk, hb]
    exact books_leave (t := { s with heartbeat := b }) hs rfl rfl rfl rfl
  | late k outcome hl =>
    refine .same ?_ rfl rfl rfl (.inl rfl) rfl
    by_cases hk : s.connection = some k <;> by_cases hu : s.Unshaken <;> simp_all [schedules]
  | denied k failure hk hu =>
    have hs : s.schedules m (.admitted k (.error failure)) = true := by
      simp [schedules, hk, hu, Except.isOk, Except.toBool]
    exact books_retreat (t := { s with identifyTask := none }) [] hs rfl rfl rfl rfl
  | identify k hk hu =>
    have hs : s.schedules m (.admitted k (.ok ())) = !m.sending.isOk := by
      simp [schedules, hk, hu, Except.isOk, Except.toBool]
    exact books_deliver [] hs rfl rfl rfl rfl rfl
  | reconnect _ _ _ =>
    exact .same rfl rfl rfl rfl (.inr hdial) (by simp [dial, Effect.isBooked])
  | stale _ e hk => exact .same (by cases e <;> simp [schedules, hk]) rfl rfl rfl (.inl rfl) rfl
  | staleDue _ hk => exact .same (by simp [schedules, hk]) rfl rfl rfl (.inl rfl) rfl
  | _ => exact .same rfl rfl rfl rfl (.inl rfl) rfl

/-- The numbers of planned reconnects go up, and what is planned is the last of them. -/
theorem Books.numbers {r : Session × List Effect} (h : Books c m s i r) :
    (r.2.filterMap Effect.planned? = [] ∧ s.epoch ≤ r.1.epoch ∧
      (r.1.phase = .reconnectPending → s.phase = .reconnectPending ∧ r.1.epoch = s.epoch)) ∨
    (r.2.filterMap Effect.planned? = [s.epoch + 1] ∧ r.1.epoch = s.epoch + 1 ∧
      r.1.phase = .reconnectPending) := by
  rw [filterMap_planned?]
  cases h with
  | nothing _ _ _ he hp hb => exact .inl ⟨by simp [hb], he, hp⟩
  | restart _ _ _ he hp hb => exact .inl ⟨by simp [hb], he, by simp [hp]⟩
  | accept _ _ _ he hp e _ hn hb =>
    exact .inl ⟨by simp [hb, hn], Nat.le_of_eq he.symm, by simp [hp]⟩
  | plan _ _ _ _ he hp delay hb => exact .inr ⟨by rw [hb]; rfl, he, hp⟩
  | giveUp _ _ most _ _ he hp _ _ hb => exact .inl ⟨by simp [hb], by omega, by simp [hp]⟩

theorem begun?_release (s : Session) (code : Nat) (reason : String) :
    (s.release code reason).filterMap Effect.begun? = [] := by
  cases hb : s.heartbeatTask <;> cases hi : s.identifyTask <;> cases hc : s.link.current <;>
    simp [release, taskEnds, farewell, hb, hi, hc, Effect.begun?]

/-- A connection is begun for a reconnect that is due only while it is planned, and once. -/
theorem taken_happens {r : Session × List Effect} (h : Happens c m s i r) :
    i.taken r.2 = [] ∨
      s.phase = .reconnectPending ∧ r.1.phase = .connecting ∧ i.taken r.2 = [s.epoch] := by
  cases h with
  | reconnect epoch he hp =>
    refine .inr ⟨hp, rfl, ?_⟩
    simp [Input.taken, dial, begun?_release, he, Effect.begun?]
  | _ => exact .inl rfl

end Session

open Session

/-- A session with what was booked so far. -/
structure Diary where
  session : Session
  /-- The notices about reconnects since the server accepted the session or it was restarted. -/
  retries : Nat := 0
  /-- The numbers of the reconnects that were planned. -/
  planned : List Nat := []
  /-- The numbers of those that were due and for which a connection was begun. -/
  taken : List Nat := []

namespace Diary

/-- A diary at its beginning. -/
def begin (c : Config) (shard : Shard) (now : Instant) : Diary := { session := .new c shard now }

/-- One more step. -/
def next (c : Config) (d : Diary) (m : Moment) (i : Input) : Diary where
  session := (step c d.session m i).1
  retries := tally d.retries i (step c d.session m i).2
  planned := d.planned ++ (step c d.session m i).2.filterMap Effect.planned?
  taken := d.taken ++ i.taken (step c d.session m i).2

/-- More steps. -/
def run (c : Config) (d : Diary) (inputs : List (Moment × Input)) : Diary :=
  inputs.foldl (fun d x => d.next c x.1 x.2) d

variable {c : Config} {d : Diary} {m : Moment} {i : Input}

theorem run_append (d : Diary) (inputs : List (Moment × Input)) (x : Moment × Input) :
    d.run c (inputs ++ [x]) = (d.run c inputs).next c x.1 x.2 := by
  simp [run]

/-- A count up to the limit on reconnects. -/
def limited (c : Config) (n : Nat) : Nat := c.maxReconnectAttempts.elim n (min n ·)

@[simp] theorem limited_zero (c : Config) : limited c 0 = 0 := by
  cases hmax : c.maxReconnectAttempts <;> simp [limited, hmax]

/-- The count of the session is that of the notices, up to the limit. -/
structure Counted (c : Config) (d : Diary) : Prop where
  retries : d.retries = limited c d.session.attempt
  planned : d.retries ≤ d.planned.length

/-- The numbers of reconnects go up, and those that came about were planned. -/
structure Ascending (d : Diary) : Prop where
  planned : d.planned.Pairwise (· < ·)
  past : ∀ n ∈ d.planned, n ≤ d.session.epoch
  /-- What is planned now has the last number. -/
  pending : d.session.phase = .reconnectPending → d.planned.getLast? = some d.session.epoch
  taken : d.taken.Pairwise (· < ·)
  taken_planned : ∀ n ∈ d.taken, n ∈ d.planned
  /-- What is planned now did not come about yet. -/
  unused : d.session.phase = .reconnectPending → d.session.epoch ∉ d.taken

theorem Ascending.taken_le (h : d.Ascending) {n : Nat} (hn : n ∈ d.taken) :
    n ≤ d.session.epoch := h.past n (h.taken_planned n hn)

theorem ascending_begin (c : Config) (shard : Shard) (now : Instant) :
    (begin c shard now).Ascending :=
  ⟨.nil, by simp [begin], by simp [begin, new], .nil, by simp [begin], by simp [begin]⟩

theorem Ascending.next (h : d.Ascending) (m : Moment) (i : Input) : (d.next c m i).Ascending := by
  have hstep := happens_step c d.session m i
  rcases (books_happens hstep).numbers with ⟨hnone, hle, hpending⟩ | ⟨hone, hepoch, hpending⟩
  · have hplanned : (d.next c m i).planned = d.planned := by simp [Diary.next, hnone]
    rcases taken_happens hstep with htaken | ⟨hphase, hphase', htaken⟩
    · have htaken : (d.next c m i).taken = d.taken := by simp [Diary.next, htaken]
      refine ⟨hplanned ▸ h.planned, ?_, ?_, htaken ▸ h.taken, ?_, ?_⟩
      · rw [hplanned]
        exact fun n hn => Nat.le_trans (h.past n hn) hle
      · intro hp
        obtain ⟨hp, he⟩ := hpending hp
        rw [hplanned]
        exact he ▸ h.pending hp
      · rw [hplanned, htaken]
        exact h.taken_planned
      · intro hp
        obtain ⟨hp, he⟩ := hpending hp
        rw [htaken]
        exact he ▸ h.unused hp
    · have htaken : (d.next c m i).taken = d.taken ++ [d.session.epoch] := by
        simp [Diary.next, htaken]
      have hconnecting : (d.next c m i).session.phase ≠ .reconnectPending := by
        simp [Diary.next, hphase']
      have hunused := h.unused hphase
      refine ⟨hplanned ▸ h.planned, ?_, (absurd · hconnecting), ?_, ?_, (absurd · hconnecting)⟩
      · rw [hplanned]
        exact fun n hn => Nat.le_trans (h.past n hn) hle
      · rw [htaken, List.pairwise_append]
        refine ⟨h.taken, List.pairwise_singleton .., fun n hn e he => ?_⟩
        obtain rfl := List.mem_singleton.mp he
        exact Nat.lt_of_le_of_ne (h.taken_le hn) fun heq => hunused (heq ▸ hn)
      · rw [hplanned, htaken]
        intro n hn
        rcases List.mem_append.mp hn with hn | hn
        · exact h.taken_planned n hn
        · exact List.mem_singleton.mp hn ▸ List.mem_of_getLast? (h.pending hphase)
  · have hplanned : (d.next c m i).planned = d.planned ++ [d.session.epoch + 1] := by
      simp [Diary.next, hone]
    have htaken : (d.next c m i).taken = d.taken := by
      rcases taken_happens hstep with htaken | ⟨-, hphase, -⟩
      · simp [Diary.next, htaken]
      · simp [hpending] at hphase
    have hsession : (d.next c m i).session.epoch = d.session.epoch + 1 := hepoch
    refine ⟨?_, ?_, ?_, htaken ▸ h.taken, ?_, ?_⟩
    · rw [hplanned, List.pairwise_append]
      refine ⟨h.planned, List.pairwise_singleton .., fun n hn e he => ?_⟩
      have hle := h.past n hn
      have he := List.mem_singleton.mp he
      omega
    · intro n hn
      rw [hplanned, List.mem_append, List.mem_singleton] at hn
      rw [hsession]
      rcases hn with hn | rfl
      · exact Nat.le_succ_of_le (h.past n hn)
      · exact Nat.le_refl _
    · intro _
      simp [hplanned, hsession]
    · rw [hplanned, htaken]
      exact fun n hn => List.mem_append_left _ (h.taken_planned n hn)
    · intro _ hn
      rw [htaken, hsession] at hn
      have hle := h.taken_le hn
      omega

theorem ascending_run (c : Config) (shard : Shard) (now : Instant)
    (inputs : List (Moment × Input)) : ((begin c shard now).run c inputs).Ascending := by
  induction inputs using List.reverseRecOn with
  | nil => exact ascending_begin c shard now
  | append_singleton inputs x ih =>
    rw [run_append]
    exact ih.next x.1 x.2

/-! ## The count -/

theorem counted_begin (c : Config) (shard : Shard) (now : Instant) :
    (begin c shard now).Counted c :=
  ⟨(limited_zero c).symm, Nat.zero_le _⟩

/-- With fewer than all numbers used up, the next attempt is one more than there were notices. -/
theorem Counted.nextAttempt (h : d.Counted c) (hn : d.session.exceeded? c = none)
    (hfew : d.planned.length + 1 ≤ mostAttempts) :
    d.session.nextAttempt = d.retries + 1 ∧ ∀ most, c.maxReconnectAttempts = some most →
      d.retries + 1 ≤ most := by
  have hle := h.planned
  have hretries := h.retries
  cases hmax : c.maxReconnectAttempts with
  | none =>
    simp only [limited, hmax, Option.elim_none] at hretries
    refine ⟨?_, by simp⟩
    rw [Session.nextAttempt]
    omega
  | some most =>
    simp only [limited, hmax, Option.elim_some] at hretries
    have hlimit : d.session.nextAttempt ≤ most := by simpa [exceeded?, hmax] using hn
    rw [Session.nextAttempt] at hlimit ⊢
    refine ⟨by omega, fun _ h => ?_⟩
    obtain rfl := Option.some.inj h
    omega

/-- The limit is exceeded only after as many notices as it allows. -/
theorem Counted.exceeded (h : d.Counted c) {most : Nat}
    (hn : d.session.exceeded? c = some most) :
    c.maxReconnectAttempts = some most ∧ d.retries = most ∧
      limited c d.session.nextAttempt = most := by
  obtain ⟨hmax, hlt⟩ : c.maxReconnectAttempts = some most ∧ most < d.session.nextAttempt := by
    simpa [exceeded?] using hn
  have hretries := h.retries
  simp only [limited, hmax, Option.elim_some] at hretries ⊢
  rw [Session.nextAttempt] at hlt ⊢
  exact ⟨trivial, by omega, by omega⟩

theorem limited_of_le {n : Nat} (h : ∀ most, c.maxReconnectAttempts = some most → n ≤ most) :
    limited c n = n := by
  cases hmax : c.maxReconnectAttempts with
  | none => simp [limited, hmax]
  | some most => simpa [limited, hmax] using Nat.min_eq_left (h most hmax)

theorem Counted.next (h : d.Counted c) (m : Moment) (i : Input)
    (hfew : (d.next c m i).planned.length ≤ mostAttempts) : (d.next c m i).Counted c := by
  obtain ⟨es, hes⟩ : ∃ es, booked (step c d.session m i).2 = es := ⟨_, rfl⟩
  have hretries : (d.next c m i).retries =
      es.foldl Effect.tally (if i.isRestart then 0 else d.retries) := by
    rw [← hes, ← foldl_tally]
    rfl
  have hplanned : (d.next c m i).planned = d.planned ++ es.filterMap Effect.planned? := by
    rw [← hes, ← filterMap_planned?]
    rfl
  have hle := h.planned
  cases books_happens (happens_step c d.session m i) with
  | nothing _ hi ha _ _ hb =>
    obtain rfl : [] = es := hb.symm.trans hes
    simp only [hi, List.foldl_nil] at hretries
    exact ⟨hretries.trans (h.retries.trans (congrArg (limited c) ha.symm)),
      by simpa [hretries, hplanned] using hle⟩
  | restart _ hi ha _ _ hb =>
    obtain rfl : [] = es := hb.symm.trans hes
    simp only [hi, List.foldl_nil] at hretries
    exact ⟨by rw [hretries]; simp [Diary.next, ha], by simp [hretries]⟩
  | accept _ hi ha _ _ e ht hn hb =>
    obtain rfl : [e] = es := hb.symm.trans hes
    simp only [List.foldl_cons, List.foldl_nil, ht] at hretries
    exact ⟨by rw [hretries]; simp [Diary.next, ha], by simp [hretries]⟩
  | plan _ hi hn ha _ _ delay hb =>
    obtain rfl := hb.symm.trans hes
    have hretries : (d.next c m i).retries = d.retries + 1 := by simp [hretries, hi, Effect.tally]
    have hlength : (d.next c m i).planned.length = d.planned.length + 1 := by
      rw [hplanned, List.length_append]
      rfl
    obtain ⟨hattempt, hlimit⟩ := h.nextAttempt hn (hlength ▸ hfew)
    refine ⟨?_, by omega⟩
    have hsession : (d.next c m i).session.attempt = d.retries + 1 := ha.trans hattempt
    rw [hretries, hsession, limited_of_le hlimit]
  | giveUp _ hi most hn ha _ _ _ _ hb =>
    obtain rfl : [] = es := hb.symm.trans hes
    obtain ⟨-, hmost, hlimited⟩ := h.exceeded hn
    simp only [hi, List.foldl_nil] at hretries
    have hsession : (d.next c m i).session.attempt = d.session.nextAttempt := ha
    refine ⟨?_, by simpa [hretries, hplanned] using hle⟩
    rw [hretries, hsession, hlimited]
    exact hmost

theorem length_planned_le (d : Diary) (m : Moment) (i : Input) :
    d.planned.length ≤ (d.next c m i).planned.length := by
  simp [Diary.next]

theorem counted_run (c : Config) (shard : Shard) (now : Instant) (inputs : List (Moment × Input))
    (hfew : ((begin c shard now).run c inputs).planned.length ≤ mostAttempts) :
    ((begin c shard now).run c inputs).Counted c := by
  induction inputs using List.reverseRecOn with
  | nil => exact counted_begin c shard now
  | append_singleton inputs x ih =>
    rw [run_append] at hfew ⊢
    exact (ih (Nat.le_trans (length_planned_le _ _ _) hfew)).next x.1 x.2 hfew

/-- What the count says of the notices and plans of a step. -/
theorem Counted.notices (h : d.Counted c) (hfew : (d.next c m i).planned.length ≤ mostAttempts) :
    let r := step c d.session m i
    (∀ attempt delay, .announce (.reconnectScheduled attempt delay) ∈ r.2 →
      attempt = d.retries + 1 ∧ ∀ most, c.maxReconnectAttempts = some most → attempt ≤ most) ∧
    (d.session.schedules m i = true →
      (∀ most, c.maxReconnectAttempts = some most → most ≤ d.retries →
        r.1.phase = .fatal ∧ ∃ reason, r.1.fatal = some (gaveUp most reason)) ∧
      ((∀ most, c.maxReconnectAttempts = some most → d.retries < most) →
        r.1.phase = .reconnectPending ∧ r.1.epoch = d.session.epoch + 1 ∧
          ∃ delay, .announce (.reconnectScheduled (d.retries + 1) delay) ∈ r.2 ∧
            .plan r.1.epoch delay ∈ r.2)) ∧
    (d.session.schedules m i = false → ∀ n delay,
      .announce (.reconnectScheduled n delay) ∉ r.2 ∧ .plan n delay ∉ r.2) := by
  intro r
  have hnotice : ∀ n delay, .announce (.reconnectScheduled n delay) ∈ r.2 ↔
      .announce (.reconnectScheduled n delay) ∈ booked r.2 := fun _ _ => (mem_booked rfl).symm
  have hplan : ∀ n delay, .plan n delay ∈ r.2 ↔ .plan n delay ∈ booked r.2 :=
    fun _ _ => (mem_booked rfl).symm
  simp only [hnotice, hplan]
  have hbooks : Books c m d.session i r := books_happens (happens_step ..)
  cases hbooks with
  | nothing hs _ _ _ _ hb => simp [hb, hs]
  | restart hs _ _ _ _ hb => simp [hb, hs]
  | accept hs _ _ _ _ e ht _ hb =>
    have hne : ∀ n delay, Effect.announce (.reconnectScheduled n delay) ≠ e := by
      rintro n delay rfl
      exact absurd (ht 0) (by simp [Effect.tally])
    have hne' : ∀ n delay, Effect.plan n delay ≠ e := by
      rintro n delay rfl
      exact absurd (ht 1) (by simp [Effect.tally])
    simp [hb, hs, hne, hne']
  | plan hs _ hn _ he hp delay hb =>
    have hlength : (d.next c m i).planned.length = d.planned.length + 1 := by
      have hone : (step c d.session m i).2.filterMap Effect.planned? = [d.session.epoch + 1] := by
        rw [filterMap_planned?]
        exact congrArg (List.filterMap Effect.planned?) hb
      simp [Diary.next, hone]
    obtain ⟨hattempt, hlimit⟩ := h.nextAttempt hn (hlength ▸ hfew)
    refine ⟨?_, fun _ => ⟨fun most hmax hle => ?_, fun _ => ⟨hp, he, delay, ?_, ?_⟩⟩, ?_⟩
    · rw [hb]
      rintro attempt delay hmem
      simp only [List.mem_cons, Effect.announce.injEq, Happening.reconnectScheduled.injEq,
        List.not_mem_nil, reduceCtorEq, or_false] at hmem
      rw [hmem.1, hattempt]
      exact ⟨rfl, hlimit⟩
    · have := hlimit most hmax
      omega
    · simp [hb, hattempt]
    · simp [hb, he]
    · simp [hs]
  | giveUp hs _ most hn _ _ hp reason hf hb =>
    obtain ⟨hmax, hmost, -⟩ := h.exceeded hn
    refine ⟨by simp [hb], fun _ => ⟨fun most' hmax' _ => ?_, fun hlt => ?_⟩, by simp [hs]⟩
    · obtain rfl := Option.some.inj (hmax.symm.trans hmax')
      exact ⟨hp, reason, hf⟩
    · exact absurd (hlt most hmax) (by omega)

/-- **Bookkeeping of reconnects**, in any run with no more of them than are counted, that is, with
fewer than `2 ^ 32`.

A notice carries one more than the number of notices since the server last accepted the session or
it was restarted, and never more than the limit. Whenever a reconnect is asked for, there is such a
notice with the plan of a reconnect under a new number, or, if there were as many notices as the
limit allows, the session stops for good; otherwise there is none. For a planned reconnect that is
due at most one connection is begun, while it is the last one planned and not overtaken; else
nothing changes. -/
theorem retries_of_run (c : Config) (shard : Shard) (now : Instant) (inputs : List (Moment × Input))
    (m : Moment) (i : Input)
    (hfew : ((begin c shard now).run c (inputs ++ [(m, i)])).planned.length ≤ mostAttempts) :
    let d := (begin c shard now).run c inputs
    let r := step c d.session m i
    (∀ attempt delay, .announce (.reconnectScheduled attempt delay) ∈ r.2 →
      attempt = d.retries + 1 ∧ ∀ most, c.maxReconnectAttempts = some most → attempt ≤ most) ∧
    (d.session.schedules m i = true →
      (∀ most, c.maxReconnectAttempts = some most → most ≤ d.retries →
        r.1.phase = .fatal ∧ ∃ reason, r.1.fatal = some (gaveUp most reason)) ∧
      ((∀ most, c.maxReconnectAttempts = some most → d.retries < most) →
        r.1.phase = .reconnectPending ∧ r.1.epoch ∉ d.planned ∧
          ∃ delay, .announce (.reconnectScheduled (d.retries + 1) delay) ∈ r.2 ∧
            .plan r.1.epoch delay ∈ r.2)) ∧
    (d.session.schedules m i = false → ∀ n delay,
      .announce (.reconnectScheduled n delay) ∉ r.2 ∧ .plan n delay ∉ r.2) ∧
    d.taken.Nodup ∧ (∀ n ∈ d.taken, n ∈ d.planned) ∧
    (d.session.phase = .reconnectPending → d.planned.getLast? = some d.session.epoch) ∧
    ∀ n, n ≠ d.session.epoch ∨ d.session.phase ≠ .reconnectPending →
      step c d.session m (.reconnectDue n) = (d.session, []) := by
  intro d r
  have hrun : (begin c shard now).run c (inputs ++ [(m, i)]) = d.next c m i := run_append ..
  rw [hrun] at hfew
  have hcounted : d.Counted c :=
    counted_run c shard now inputs (Nat.le_trans (length_planned_le d m i) hfew)
  have hascending : d.Ascending := ascending_run c shard now inputs
  obtain ⟨hnotice, hasked, hquiet⟩ := hcounted.notices hfew
  refine ⟨hnotice, fun hs => ⟨(hasked hs).1, fun hlt => ?_⟩, hquiet, ?_, hascending.taken_planned,
    hascending.pending, fun n hn => ?_⟩
  · obtain ⟨hphase, hepoch, hplan⟩ := (hasked hs).2 hlt
    refine ⟨hphase, fun hmem => ?_, hplan⟩
    exact Nat.not_succ_le_self _ (Nat.le_trans (Nat.le_of_eq hepoch.symm) (hascending.past _ hmem))
  · exact hascending.taken.imp Nat.ne_of_lt
  · have hvoid : ¬ (n = d.session.epoch ∧ d.session.phase = .reconnectPending) := by
      rwa [Classical.not_and_iff_not_or_not]
    simp [step, Turn.handle, hvoid]

/-- With a limit of one reconnect the second one in a row is not planned. What was due came about
once, and is passed over when it comes again. -/
theorem retries_of_run_limit :
    let c : Config := { maxReconnectAttempts := some 1 }
    let m : Moment := ⟨0, true, .ok (), 0⟩
    let lost (k : Nat) : Input := .inbound k (.closed (some 4000) "")
    let inputs : List (Moment × Input) :=
      [(m, .start), (m, .inbound 1 .opened), (m, lost 1), (m, .reconnectDue 1),
        (m, .reconnectDue 1), (m, .inbound 2 .opened)]
    let d := (begin c ⟨0, 1⟩ 0).run c inputs
    ((begin c ⟨0, 1⟩ 0).run c (inputs ++ [(m, lost 2)])).planned.length ≤ mostAttempts ∧
      d.retries = 1 ∧ d.taken = [1] ∧ (step c d.session m (lost 2)).1.phase = .fatal ∧
      step c d.session m (.reconnectDue 1) = (d.session, []) := by
  intro c m lost inputs
  have hfew : ((begin c ⟨0, 1⟩ 0).run c (inputs ++ [(m, lost 2)])).planned.length ≤ mostAttempts := by
    decide +kernel
  have hretries : ((begin c ⟨0, 1⟩ 0).run c inputs).retries = 1 := by decide +kernel
  have htaken : ((begin c ⟨0, 1⟩ 0).run c inputs).taken = [1] := by decide +kernel
  have hscheduled : ((begin c ⟨0, 1⟩ 0).run c inputs).session.schedules m (lost 2) = true := by
    decide +kernel
  have hphase : ((begin c ⟨0, 1⟩ 0).run c inputs).session.phase ≠ .reconnectPending := by
    decide +kernel
  obtain ⟨-, hasked, -, -, -, -, hvoid⟩ := retries_of_run c ⟨0, 1⟩ 0 inputs m (lost 2) hfew
  obtain ⟨hfatal, -⟩ := (hasked hscheduled).1 1 rfl (Nat.le_of_eq hretries.symm)
  exact ⟨hfew, hretries, htaken, hfatal, hvoid 1 (.inr hphase)⟩

end Diary

end Switchboard
