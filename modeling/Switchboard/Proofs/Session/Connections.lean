import Mathlib.Data.List.Induction
import Switchboard.Proofs.Session.FreshHandshake
import Switchboard.Proofs.Session.Retries

/-!
# How many connections a session begins

A session that is to reconnect a limited number of times begins, from one acceptance to the next,
one connection more than the limit at most. Not under the limit are the connections that it begins
at once to take up its session: for these there is no plan and no count, and a server that asks for
them gets as many as it asks for.

A spell is what happened since the server last accepted the session, or since the session was last
told to start or to restart.

## Main definitions

* `Session.resumes`: the inputs on which a session leaves its connection for one that it begins at
  once.
* `Session.Opens`: what a step does to the number of connections.
* `Session.allowance`: how many connections the limit still allows.
* `Spell`: a session with the connections of the spell.

## Main results

* `Session.opens_happens`: every step is one of three as far as connections go.
* `Session.allowance_happens`: a connection is paid for by the allowance, or begun at once.
* `Spell.opened_of_run`: the bound, for all runs.
* `Spell.exists_opened`: there is no bound if the limit is where the count of reconnects stops.
-/
namespace Switchboard

namespace Session

/-- The session leaves its connection on the input, to take up the session at once: the server asks
for that, or too many heartbeats found no acknowledgement, and there is something to take up. -/
def resumes (s : Session) : Input → Bool
  | .inbound k (.received text) =>
    s.connection = some k && s.canResume &&
      match Message.parse text with
      | .ok .reconnect => true
      | .ok (.invalidSession resumable) => resumable
      | _ => false
  | .heartbeatDue k =>
    s.connection = some k && s.canResume &&
      match s.heartbeat.tick.2 with
      | .send => false
      | .dead _ => true
  | _ => false

/-- What a step does to the number of connections. -/
inductive Opens (s : Session) (i : Input) (r : Session × List Effect) : Prop where
  | none (hi : s.resumes i = false) (hl : r.1.link.begun = s.link.begun)
  /-- A connection that the owner wants, or that was planned. -/
  | plain (hi : s.resumes i = false) (hl : r.1.link.begun = s.link.begun + 1)
      (hp : r.1.phase = .connecting)
      (hown : i = .start ∨ i = .restart ∨ s.phase = .reconnectPending)
  | resume (hi : s.resumes i = true) (hl : r.1.link.begun = s.link.begun + 1)
      (hp : r.1.phase = .connecting)

variable {c : Config} {m : Moment} {s : Session}

@[simp] theorem begun_retreat (reason : String) :
    (s.retreat c m reason).1.link.begun = s.link.begun := by
  unfold retreat
  split <;> rfl

@[simp] theorem begun_deliver (p : String) : (s.deliver c m p).1.link.begun = s.link.begun := by
  unfold deliver
  split
  · rfl
  · exact begun_retreat _

@[simp] theorem begun_lose (code : Option Nat) (reason : String) :
    (s.lose c m code reason).1.link.begun = s.link.begun := by
  rw [lose, fst_following]
  cases CloseAction.ofCode code with
  | authenticationFailed => rfl
  | fatal => rfl
  | reidentify => exact begun_retreat _
  | resume => exact begun_retreat _

@[simp] theorem begun_accept (kind : String) (q : Nat) (data : Json) :
    (s.accept kind q data).1.link.begun = s.link.begun := by
  obtain ⟨_, _, _, _, _, _, h⟩ := exists_accept s kind q data
  rw [h]

variable {i : Input}

/-- Leaving the connection begins one at once exactly if there is something to take up. -/
theorem opens_leave {t : Session} (hi : s.resumes i = s.canResume)
    (hr : t.canResume = s.canResume) (hl : t.link.begun = s.link.begun) {reason : String} :
    Opens s i (t.leave c m reason) := by
  unfold leave
  split
  case isTrue h =>
    exact .resume (by rw [hi, ← hr, h]) (by simp [redial, dialed, Link.renew, hl]) rfl
  case isFalse h => exact .none (by simpa [hi, ← hr] using h) (by simp [hl])

theorem opens_meets {k : Nat} {text : String} (hk : s.connection = some k) {message : Message}
    (ht : Message.parse text = .ok message) {r : Session × List Effect}
    (h : Meets c m (s.heard m) k message r) : Opens s (.inbound k (.received text)) r := by
  cases h with
  | leave =>
    have hi : s.resumes (.inbound k (.received text)) = s.canResume := by simp [resumes, hk, ht]
    exact opens_leave (t := s.heard m) hi rfl rfl
  | redial hr =>
    have hr' : s.canResume = true := hr
    exact .resume (by simp [resumes, hk, ht, hr']) rfl rfl
  | reject resumable hr =>
    have hr' : (resumable && s.canResume) = false := hr
    refine .none ?_ rfl
    cases resumable <;> simp_all [resumes]
  | _ =>
    exact .none (by simp [resumes, ht])
      (by simp [beating, pulsed, acked, await, awaiting, heard])

/-- Every step begins no connection, one that was wanted or planned, or one to resume at once. -/
theorem opens_happens {r : Session × List Effect} (h : Happens c m s i r) : Opens s i r := by
  cases h with
  | start _ => exact .plain rfl rfl rfl (.inl rfl)
  | restart => exact .plain rfl rfl rfl (.inr (.inl rfl))
  | reconnect _ _ hp => exact .plain rfl rfl rfl (.inr (.inr hp))
  | mumble _ _ _ _ ht => exact .none (by simp [resumes, ht]) rfl
  | message _ _ hk ht hr => exact opens_meets hk ht hr
  | @dead k hk b _ hb =>
    have hi : s.resumes (.heartbeatDue k) = s.canResume := by simp [resumes, hk, hb]
    exact opens_leave (t := { s with heartbeat := b }) hi rfl rfl
  | due _ _ hb => exact .none (by simp [resumes, hb]) (by simp [pulsed])
  | staleDue _ hk => exact .none (by simp [resumes, hk]) rfl
  | stale _ e hk => exact .none (by cases e <;> simp [resumes, hk]) rfl
  | _ => exact .none rfl (by simp [shut, stopped, released])

/-- An effect begins a connection for each number that the link takes. -/
theorem Opens.length_begun {r : Session × List Effect} (h : Opens s i r)
    (hr : Happens c m s i r) :
    (r.2.filterMap Effect.begun?).length = r.1.link.begun - s.link.begun ∧
      (s.resumes i).toNat ≤ r.1.link.begun - s.link.begun := by
  refine ⟨by simp [(Link.begun_follow (follow_happens hr)).2], ?_⟩
  cases h with
  | none hi hl => simp [hi]
  | plain hi hl _ _ => simp [hi]
  | resume hi hl _ => simp [hi, hl]

/-! ## What the limit allows -/

/-- How many connections a limit still allows: one for each reconnect that was not planned yet, and
one for the reconnect that is planned. -/
def allowance (most : Nat) (s : Session) : Nat :=
  (most - s.attempt) + if s.phase = .reconnectPending then 1 else 0

theorem allowance_le (most : Nat) (s : Session) : s.allowance most ≤ most + 1 := by
  unfold allowance
  split <;> omega

theorem allowance_of_ne (most : Nat) (h : s.phase ≠ .reconnectPending) :
    s.allowance most = most - s.attempt := by
  simp [allowance, h]

/-- A reconnect is planned or given up only on a connection. -/
theorem Coupled.not_pending_of_schedules (hs : s.Coupled) (h : s.schedules m i = true) :
    s.phase ≠ .reconnectPending := by
  intro hp
  have hnone : s.connection = none := hs.apart.mpr (.inr (.inl hp))
  cases i with
  | inbound k e => cases e <;> simp [schedules, hnone] at h
  | heartbeatDue k => simp [schedules, hnone] at h
  | admitted k outcome => simp [schedules, hnone] at h
  | _ => simp [schedules] at h

/-- The effect tells that the server accepted the session. -/
def Effect.isAcceptance : Effect → Bool
  | .announce (.ready _) | .announce .resumed => true
  | _ => false

/-- The input tells the session to start or to restart. -/
def Input.isOrder : Input → Bool
  | .start | .restart => true
  | _ => false

/-- The spell ends with the step, and another one begins. -/
def ends (i : Input) (es : List Effect) : Bool := i.isOrder || es.any Effect.isAcceptance

/-- An acceptance is booked. -/
theorem any_isAcceptance_booked (es : List Effect) :
    es.any Effect.isAcceptance = (booked es).any Effect.isAcceptance := by
  rw [booked, select_guard, List.any_filter]
  congr 1
  funext e
  cases e with
  | announce happening => cases happening <;> rfl
  | _ => simp [Effect.isAcceptance]

theorem Effect.isAcceptance_of_tally {e : Effect} (h : e.tally 1 = 0) : e.isAcceptance = true := by
  cases e with
  | announce happening => cases happening <;> simp_all [Effect.tally, Effect.isAcceptance]
  | _ => simp [Effect.tally] at h

/-- A connection that a step begins is not planned any more. -/
theorem Opens.allowance_le {r : Session × List Effect} (h : Opens s i r) (most : Nat) :
    (r.1.link.begun - s.link.begun) + r.1.allowance most ≤ most + 1 := by
  have hall := Session.allowance_le most r.1
  cases h with
  | none _ hl => omega
  | plain _ hl hp _ =>
    rw [allowance_of_ne _ (by simp [hp])]
    omega
  | resume _ hl hp =>
    rw [allowance_of_ne _ (by simp [hp])]
    omega

/-- **The allowance of a step** within a spell: a connection is paid for by the allowance, or begun
at once. -/
theorem allowance_happens {most : Nat} (hmax : c.maxReconnectAttempts = some most)
    (hmost : most < mostAttempts) (hs : s.Coupled) {r : Session × List Effect}
    (hend : ends i r.2 = false) (h : Happens c m s i r) :
    (r.1.link.begun - s.link.begun) + r.1.allowance most ≤
      s.allowance most + (s.resumes i).toNat := by
  obtain ⟨horder, hno⟩ : i.isOrder = false ∧ r.2.any Effect.isAcceptance = false := by
    simpa [ends] using hend
  -- A step that plans a reconnect or gives up leaves no connection behind.
  have hnone : r.1.phase ≠ .connecting → r.1.link.begun = s.link.begun := by
    intro hp
    cases opens_happens h with
    | none _ hl => exact hl
    | plain _ _ hp' _ => exact absurd hp' hp
    | resume _ _ hp' => exact absurd hp' hp
  cases books_happens h with
  | nothing _ _ ha _ hp _ =>
    cases opens_happens h with
    | none _ hl =>
      have hle : r.1.allowance most ≤ s.allowance most := by
        unfold allowance
        rw [ha]
        by_cases hpending : r.1.phase = .reconnectPending
        · simp [hpending, (hp hpending).1]
        · simp [hpending]
      omega
    | plain _ hl hp' hown =>
      have hpending : s.phase = .reconnectPending := by
        rcases hown with rfl | rfl | hown
        · simp [Input.isOrder] at horder
        · simp [Input.isOrder] at horder
        · exact hown
      simp [allowance, hp', hpending, ha, hl]
      omega
    | resume hi hl hp' =>
      rw [allowance_of_ne _ (by simp [hp']), hi, hl, ha]
      simp only [allowance, Bool.toNat_true]
      omega
  | restart _ hi _ _ _ _ => cases i <;> simp_all [Input.isRestart, Input.isOrder]
  | accept _ _ _ _ _ e ht _ hb =>
    have haccept := Effect.isAcceptance_of_tally (ht 1)
    simp [any_isAcceptance_booked, hb, haccept] at hno
  | plan hsched _ hn ha _ hp _ _ =>
    have hl := hnone (by simp [hp])
    have hbefore := allowance_of_ne most (hs.not_pending_of_schedules hsched)
    have hle : s.nextAttempt ≤ most := by simpa [exceeded?, hmax] using hn
    have hnext : s.nextAttempt = s.attempt + 1 := by
      rcases Nat.le_total (s.attempt + 1) mostAttempts with hless | hmore
      · exact Nat.min_eq_left hless
      · have hstuck : s.nextAttempt = mostAttempts := Nat.min_eq_right hmore
        exact absurd (hstuck ▸ hle) (Nat.not_le_of_lt hmost)
    have hafter : r.1.allowance most = (most - (s.attempt + 1)) + 1 := by
      simp [allowance, hp, ha, hnext]
    omega
  | giveUp _ _ most' hn ha _ hp _ _ _ =>
    have hl := hnone (by simp [hp])
    obtain ⟨hsame, hlt⟩ : most = most' ∧ most' < s.nextAttempt := by
      simpa [exceeded?, hmax] using hn
    have hafter : r.1.allowance most = most' - s.nextAttempt := by
      rw [allowance_of_ne _ (by simp [hp]), ha, hsame]
    omega

/-- A count that stops at the limit or below never exceeds it: such a session does not give up. -/
theorem exceeded?_of_mostAttempts_le {most : Nat} (hmax : c.maxReconnectAttempts = some most)
    (hmost : mostAttempts ≤ most) (s : Session) : s.exceeded? c = none := by
  have hle : s.nextAttempt ≤ most := Nat.le_trans (Nat.min_le_right ..) hmost
  simp [exceeded?, hmax, hle]

/-! ## Spells -/

end Session

open Session

/-- A session with the connections that it began since the server last accepted it, or since it was
last told to start or to restart. -/
structure Spell where
  session : Session
  /-- The connections that were begun. -/
  opened : Nat := 0
  /-- How many of them were begun at once, to take up the session. -/
  resumed : Nat := 0

namespace Spell

/-- A spell at its beginning. -/
def begin (c : Config) (shard : Shard) (now : Instant) : Spell := { session := .new c shard now }

/-- One more step. -/
def next (c : Config) (w : Spell) (m : Moment) (i : Input) : Spell :=
  let r := step c w.session m i
  { session := r.1
    opened := (if ends i r.2 then 0 else w.opened) + (r.2.filterMap Effect.begun?).length
    resumed := (if ends i r.2 then 0 else w.resumed) + (w.session.resumes i).toNat }

/-- More steps. -/
def run (c : Config) (w : Spell) (inputs : List (Moment × Input)) : Spell :=
  inputs.foldl (fun w x => w.next c x.1 x.2) w

/-- What was begun is covered by the limit and by what was begun at once. -/
structure Bounded (most : Nat) (w : Spell) : Prop where
  coupled : w.session.Coupled
  resumed : w.resumed ≤ w.opened
  opened : w.opened + w.session.allowance most ≤ most + 1 + w.resumed

variable {c : Config} {w : Spell} {m : Moment} {i : Input} {most : Nat}

theorem bounded_begin (c : Config) (shard : Shard) (now : Instant) (most : Nat) :
    (begin c shard now).Bounded most where
  coupled := coupled_new c shard now
  resumed := Nat.le_refl _
  opened := by simpa [begin] using allowance_le most _

/-- Every step but the end keeps to the bound. -/
theorem Bounded.next (h : w.Bounded most) (hmax : c.maxReconnectAttempts = some most)
    (hmost : most < mostAttempts) (hi : i ≠ .stop) : (w.next c m i).Bounded most := by
  have hr := happens_step c w.session m i
  have hopens := opens_happens hr
  obtain ⟨hlength, hresumes⟩ := hopens.length_begun hr
  have hcoupled := coupled_happens hi hr h.coupled
  have hresumed := h.resumed
  have hopened := h.opened
  cases hend : ends i (step c w.session m i).2 with
  | true =>
    have hle := hopens.allowance_le most
    refine ⟨hcoupled, ?_, ?_⟩ <;> simp only [Spell.next, hend, if_true, hlength] <;> omega
  | false =>
    have hle := allowance_happens hmax hmost h.coupled hend hr
    refine ⟨hcoupled, ?_, ?_⟩ <;>
      simp only [Spell.next, hend, hlength, Bool.false_eq_true, if_false] <;> omega

theorem bounded_run (c : Config) (shard : Shard) (now : Instant)
    (hmax : c.maxReconnectAttempts = some most) (hmost : most < mostAttempts)
    (inputs : List (Moment × Input)) (hstop : ∀ x ∈ inputs, x.2 ≠ .stop) :
    ((begin c shard now).run c inputs).Bounded most := by
  induction inputs using List.reverseRecOn with
  | nil => exact bounded_begin c shard now most
  | append_singleton inputs x ih =>
    have hrun : (begin c shard now).run c (inputs ++ [x]) =
        ((begin c shard now).run c inputs).next c x.1 x.2 := by simp [run]
    rw [hrun]
    exact (ih fun y hy => hstop y (List.mem_append_left _ hy)).next hmax hmost (hstop x (by simp))

/-- **Connections of a spell**, after any run that has not ended: those that were not begun at once
to take up the session are one more than the limit on reconnects at most. The limit is below the one
at which the count stops. -/
theorem opened_of_run (c : Config) (shard : Shard) (now : Instant)
    (inputs : List (Moment × Input)) (hstop : ∀ x ∈ inputs, x.2 ≠ .stop) (most : Nat)
    (hmax : c.maxReconnectAttempts = some most) (hmost : most < mostAttempts) :
    let w := (begin c shard now).run c inputs
    w.resumed ≤ w.opened ∧ w.opened ≤ most + 1 + w.resumed := by
  intro w
  obtain ⟨-, hresumed, hopened⟩ := bounded_run c shard now hmax hmost inputs hstop
  exact ⟨hresumed, Nat.le_trans (Nat.le_add_right ..) hopened⟩

theorem next_of_not_ends (hend : ends i (step c w.session m i).2 = false) :
    (w.next c m i).opened =
        w.opened + ((step c w.session m i).1.link.begun - w.session.link.begun) ∧
      (w.next c m i).resumed = w.resumed + (w.session.resumes i).toNat := by
  have hr := happens_step c w.session m i
  simp [Spell.next, hend, ((opens_happens hr).length_begun hr).1]

/-- A reconnect that may not be too many is planned. -/
theorem opened_of_schedules (hsched : w.session.schedules m i = true)
    (hfew : w.session.exceeded? c = none) :
    (w.next c m i).opened = w.opened ∧ (w.next c m i).resumed = w.resumed ∧
      (w.next c m i).session.phase = .reconnectPending := by
  have hr := happens_step c w.session m i
  cases books_happens hr with
  | nothing hs _ _ _ _ _ => simp [hs] at hsched
  | restart hs _ _ _ _ _ => simp [hs] at hsched
  | accept hs _ _ _ _ _ _ _ _ => simp [hs] at hsched
  | giveUp _ _ most hn _ _ _ _ _ _ => simp [hfew] at hn
  | plan _ hi _ _ _ hp delay hb =>
    have hend : ends i (step c w.session m i).2 = false := by
      have horder : i.isOrder = false := by cases i <;> simp_all [schedules, Input.isOrder]
      simp [ends, horder, any_isAcceptance_booked, hb, Effect.isAcceptance]
    obtain ⟨hopened, hresumed⟩ := next_of_not_ends hend
    cases opens_happens hr with
    | none hno hl => exact ⟨by simp [hopened, hl], by simp [hresumed, hno], hp⟩
    | plain _ _ hp' _ => simp [hp] at hp'
    | resume _ _ hp' => simp [hp] at hp'

/-- A reconnect that is due begins a connection of the same spell. -/
theorem opened_of_due (hp : w.session.phase = .reconnectPending) (m : Moment) :
    let v := w.next c m (.reconnectDue w.session.epoch)
    v.opened = w.opened + 1 ∧ v.resumed = w.resumed ∧ v.session.connection.isSome = true := by
  have hdue : step c w.session m (.reconnectDue w.session.epoch) = w.session.dial c := by
    simp [step, Turn.handle, hp, Turn.connect_eq, Turn.andThen]
  have hend : ends (.reconnectDue w.session.epoch) (step c w.session m
      (.reconnectDue w.session.epoch)).2 = false := by
    rw [hdue]
    simp [ends, Input.isOrder, any_isAcceptance_booked, dial, Effect.isAcceptance]
  obtain ⟨hopened, hresumed⟩ := next_of_not_ends hend
  refine ⟨?_, by simpa [resumes] using hresumed, ?_⟩
  · rw [hopened, hdue]
    simp [dial, dialed, Link.renew]
  · simp only [Spell.next, hdue]
    rfl

/-- A limit where the count of reconnects stops is none: there are as many connections in a spell as
the server closes. -/
theorem exists_opened (c : Config) (shard : Shard) (now : Instant)
    (hmax : c.maxReconnectAttempts = some most) (hmost : mostAttempts ≤ most) (n : Nat) :
    ∃ inputs, (∀ x ∈ inputs, x.2 ≠ .stop) ∧ ((begin c shard now).run c inputs).opened = n + 1 ∧
      ((begin c shard now).run c inputs).resumed = 0 ∧
      ((begin c shard now).run c inputs).session.connection.isSome = true := by
  induction n with
  | zero =>
    refine ⟨[(Story.calm, .start)], by simp, ?_, rfl, rfl⟩
    simp [run, Spell.next, begin, ends, Input.isOrder, step, Turn.handle, new, Turn.connect_eq,
      Turn.andThen, dial, begun?_release, Effect.begun?]
  | succ n ih =>
    obtain ⟨inputs, hstop, hopened, hresumed, hconn⟩ := ih
    generalize hw : (begin c shard now).run c inputs = w at hopened hresumed hconn
    obtain ⟨k, hk⟩ := Option.isSome_iff_exists.mp hconn
    let closed : Input := .inbound k (.closed (some 4000) "")
    let v := w.next c Story.calm closed
    have hsched : w.session.schedules Story.calm closed = true := by
      have hcode : CloseAction.ofCode (some 4000) = .resume := by decide
      simp [closed, schedules, hk, hcode]
    obtain ⟨hclosed, hsame, hp⟩ := opened_of_schedules (c := c) hsched
      (exceeded?_of_mostAttempts_le hmax hmost _)
    obtain ⟨hmore, hsame', hconn'⟩ := opened_of_due (c := c) (w := v) hp Story.calm
    have hrun : (begin c shard now).run c
        (inputs ++ [(Story.calm, closed), (Story.calm, .reconnectDue v.session.epoch)]) =
          v.next c Story.calm (.reconnectDue v.session.epoch) := by
      subst hw
      simp [run, v]
    refine ⟨inputs ++ [(Story.calm, closed), (Story.calm, .reconnectDue v.session.epoch)], ?_, ?_⟩
    · simpa [closed, or_imp, forall_and] using hstop
    · rw [hrun]
      refine ⟨?_, ?_, hconn'⟩
      · rw [hmore, hclosed, hopened]
      · rw [hsame', hsame, hresumed]

/-- With a limit of one reconnect a session that is never accepted begins two connections. -/
theorem opened_of_run_limit :
    let c : Config := { maxReconnectAttempts := some 1 }
    let m : Moment := ⟨0, true, .ok (), 0⟩
    let lost (k : Nat) : Input := .inbound k (.closed (some 4000) "")
    let inputs : List (Moment × Input) :=
      [(m, .start), (m, .inbound 1 .opened), (m, lost 1), (m, .reconnectDue 1),
        (m, .inbound 2 .opened), (m, lost 2)]
    let w := (begin c ⟨0, 1⟩ 0).run c inputs
    (∀ x ∈ inputs, x.2 ≠ .stop) ∧ 1 < mostAttempts ∧ w.session.phase = .fatal ∧ w.resumed = 0 ∧
      w.opened = 2 ∧ w.opened ≤ 1 + 1 + w.resumed := by
  intro c m lost inputs w
  have hstop : ∀ x ∈ inputs, x.2 ≠ .stop := by simp [inputs, lost]
  have hmost : 1 < mostAttempts := by decide
  have hphase : w.session.phase = .fatal := by decide +kernel
  have hresumed : w.resumed = 0 := by decide +kernel
  have hopened : w.opened = 2 := by decide +kernel
  exact ⟨hstop, hmost, hphase, hresumed, hopened,
    (opened_of_run c ⟨0, 1⟩ 0 inputs hstop 1 rfl hmost).2⟩

/-- The server wants another connection. -/
def farther : String := "\x7b\"op\":7,\"d\":null\x7d"

/-- With no reconnects allowed, a session that was accepted on its first connection begins two more
when the server asks for them. And a limit where the count of reconnects stops is exceeded. -/
theorem opened_of_run_asked :
    let c : Config := { maxReconnectAttempts := some 0 }
    let inputs : List (Moment × Input) :=
      [(Story.calm, .start), (Story.calm, .inbound 1 .opened),
        (Story.calm, .inbound 1 (.received Story.firstReady)),
        (Story.calm, .inbound 1 (.received farther)), (Story.calm, .inbound 2 .opened),
        (Story.calm, .inbound 2 (.received farther))]
    let w := (begin c ⟨0, 1⟩ 0).run c inputs
    ((∀ x ∈ inputs, x.2 ≠ .stop) ∧ w.opened = 2 ∧ w.resumed = 2 ∧ ¬ w.opened ≤ 0 + 1) ∧
      let d : Config := { maxReconnectAttempts := some mostAttempts }
      ∃ inputs, (∀ x ∈ inputs, x.2 ≠ .stop) ∧ ((begin d ⟨0, 1⟩ 0).run d inputs).resumed = 0 ∧
        ¬ ((begin d ⟨0, 1⟩ 0).run d inputs).opened ≤ mostAttempts + 1 := by
  intro c inputs w
  have hstop : ∀ x ∈ inputs, x.2 ≠ .stop := by simp [inputs]
  have hopened : w.opened = 2 := by decide +kernel
  have hresumed : w.resumed = 2 := by decide +kernel
  refine ⟨⟨hstop, hopened, hresumed, by omega⟩, ?_⟩
  intro d
  obtain ⟨inputs', hstop', hmany, hnone, -⟩ :=
    exists_opened d ⟨0, 1⟩ 0 rfl (Nat.le_refl mostAttempts) (mostAttempts + 1)
  refine ⟨inputs', hstop', hnone, ?_⟩
  rw [hmany]
  exact Nat.not_succ_le_self _

end Spell

end Switchboard
