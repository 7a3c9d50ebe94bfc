import Switchboard.Proofs.Session.AtRest

/-!
# What a step tells

A session tells its notices in few ways. The opening of the connection and the acceptance by the
server are told one at a time, by a session that stays on its connection; a session that leaves its
connection for none tells at last that it plans a reconnect, or that it stopped for good, and the
close before that if there was one. Whatever else happens, nothing is told.

## Main definitions

* `Session.notices`: what effects tell.
* `Session.Quits`: a connection is left for none, with what is told of that.
* `Session.Tells`: what a step tells.

## Main results

* `Session.tells_happens`: every step tells in one of these ways.
* `Session.Tells.countP_fatal`, `Session.Tells.countP_plan`: what is told and the phase agree.
-/
namespace Switchboard

/-! ## Kinds of notices -/

namespace Happening

/-- The notice of a stop for good. -/
def isFatal : Happening → Bool
  | .fatal _ _ => true
  | _ => false

/-- The notice of a planned reconnect. -/
def isPlan : Happening → Bool
  | .reconnectScheduled _ _ => true
  | _ => false

/-- The notice is about a connection. -/
def isNews : Happening → Bool
  | .connected | .ready _ | .resumed | .disconnected _ _ => true
  | _ => false

end Happening

namespace Session

/-- What an effect tells of the shard. -/
def Effect.happening? : Effect → Option Happening
  | .announce h => some h
  | _ => none

/-- What effects tell of the shard. -/
abbrev notices (es : List Effect) : List Happening := select Effect.happening? es

instance : Effect.Ignores Effect.isChore Effect.happening? :=
  ⟨fun e he => by cases e <;> simp_all [Effect.happening?, Effect.isChore]⟩

variable {c : Config} {m : Moment} {s t : Session} {i : Input} {r : Session × List Effect}

/-! ## Leaving a connection for none -/

/-- A connection is left for none: a reconnect is planned, or the session stops for good. Something
may be told before that. -/
inductive Quits (before : List Happening) (r : Session × List Effect) : Prop where
  | planned (attempt : Nat) (delay : Span)
      (htold : notices r.2 = before ++ [.reconnectScheduled attempt delay])
      (hphase : r.1.phase = .reconnectPending) (hnone : r.1.connection = none)
  | failed (cause : FatalCause)
      (htold : notices r.2 = before ++ [.fatal cause.reason cause.authentication])
      (hphase : r.1.phase = .fatal) (hnone : r.1.connection = none)
      (hcause : r.1.fatal = some cause)

theorem quits_fail {cause : FatalCause} : Quits [] (s.fail cause) :=
  .failed cause (by simp [fail, Effect.happening?]) rfl rfl rfl

theorem quits_retreat {reason : String} : Quits [] (s.retreat c m reason) := by
  unfold retreat
  split
  · next most _ =>
    have hauth : (gaveUp most reason).authentication = false := rfl
    exact .failed (gaveUp most reason) (by simp [Effect.happening?, hauth]) rfl rfl rfl
  · exact .planned s.nextAttempt (s.backoff.next m.draw).2 (by simp [Effect.happening?]) rfl rfl

theorem Quits.following {before : List Happening} (h : Quits before r) (es : List Effect) :
    Quits (notices es ++ before) (following es r) := by
  cases h with
  | planned attempt delay htold hphase hnone =>
    exact .planned attempt delay (by simp [htold]) hphase hnone
  | failed cause htold hphase hnone hcause =>
    exact .failed cause (by simp [htold]) hphase hnone hcause

/-- What is told last is not about the connection. -/
theorem Quits.exists_told {before : List Happening} (h : Quits before r) :
    ∃ x, notices r.2 = before ++ [x] ∧ x.isNews = false := by
  cases h with
  | planned attempt delay htold => exact ⟨_, htold, rfl⟩
  | failed cause htold => exact ⟨_, htold, rfl⟩

theorem quits_lose {code : Option Nat} {reason : String} :
    Quits [.disconnected code reason] (s.lose c m code reason) := by
  have htold : notices (s.taskEnds ++ [.announce (.disconnected code reason)]) ++ [] =
      [.disconnected code reason] := by simp [Effect.happening?]
  rw [← htold]
  unfold lose
  cases CloseAction.ofCode code with
  | authenticationFailed => exact quits_fail.following _
  | fatal => exact quits_fail.following _
  | reidentify => exact quits_retreat.following _
  | resume => exact quits_retreat.following _

/-! ## Steps -/

/-- What a step tells. -/
inductive Tells (s : Session) (i : Input) (r : Session × List Effect) : Prop where
  /-- Nothing is told, and nothing has happened that there is a notice for. Where events are
  accepted, they were before, or the server has said something on the connection. -/
  | nothing (htold : notices r.2 = []) (hfatal : r.1.phase = .fatal → s.phase = .fatal)
      (hpending : r.1.phase = .reconnectPending → s.phase = .reconnectPending)
      (hstay : r.1.phase.acceptsDispatch = true → r.1.connection = s.connection ∧
        (s.phase.acceptsDispatch = true ∨
          ∃ k text, s.connection = some k ∧ i = .inbound k (.received text)))
  /-- The connection that is heard has opened. -/
  | opened (k : Nat) (hk : s.connection = some k) (hi : i = .inbound k .opened)
      (htold : notices r.2 = [.connected]) (hphase : r.1.phase = .identifying)
      (hstay : r.1.connection = some k)
  /-- The server accepted the session. -/
  | accepted (k : Nat) (hk : s.connection = some k) (text : String)
      (hi : i = .inbound k (.received text)) (haccepts : s.phase.acceptsDispatch = true)
      (h : Happening) (hh : h = .resumed ∨ ∃ id, h = .ready id) (htold : notices r.2 = [h])
      (hphase : r.1.phase = .ready) (hstay : r.1.connection = some k)
  /-- The connection is left for none, as the server closed it or for another reason. -/
  | quits (k : Nat) (hk : s.connection = some k) (before : List Happening)
      (hbefore : before = [] ∨
        ∃ code reason, i = .inbound k (.closed code reason) ∧ before = [.disconnected code reason])
      (h : Quits before r)

/-- Nothing changes that there is a notice for. -/
theorem Tells.same (htold : notices r.2 = []) (hphase : r.1.phase = s.phase)
    (hstay : r.1.connection = s.connection) : Tells s i r :=
  .nothing htold (hphase ▸ id) (hphase ▸ id) fun h => ⟨hstay, .inl (hphase ▸ h)⟩

/-- A session goes to a phase in which events are not accepted. -/
theorem Tells.away (htold : notices r.2 = [])
    (hphase : r.1.phase = .connecting ∨ r.1.phase = .disconnected) : Tells s i r := by
  rcases hphase with hphase | hphase <;>
    exact .nothing htold (by simp [hphase]) (by simp [hphase]) (by simp [hphase, Phase.acceptsDispatch])

theorem tells_dial : Tells s i (t.dial c) :=
  .away (by simp [dial, Effect.happening?]) (.inl rfl)

theorem tells_redial {reason : String} : Tells s i (t.redial c reason) :=
  .away (by simp [redial, Effect.happening?]) (.inl rfl)

section OnConnection

variable {k : Nat} (hk : s.connection = some k)
include hk

theorem tells_retreat {reason : String} : Tells s i (t.retreat c m reason) :=
  .quits k hk [] (.inl rfl) quits_retreat

theorem tells_leave {reason : String} : Tells s i (t.leave c m reason) := by
  unfold leave
  split
  · exact tells_redial
  · exact tells_retreat hk

theorem tells_deliver {p : String} {before : List Effect} (hbefore : notices before = [])
    (hphase : t.phase = s.phase) (hstay : t.connection = s.connection) :
    Tells s i (following before (t.deliver c m p)) := by
  unfold deliver
  split
  · refine .same ?_ hphase hstay
    cases t.link.current <;> simp [hbefore, Effect.happening?]
  · next failure _ =>
    have hquits : Quits (notices before ++ []) (following before (t.retreat c m failure.message)) :=
      quits_retreat.following before
    rw [hbefore] at hquits
    exact .quits k hk [] (.inl rfl) hquits

theorem tells_accept {text : String} (hi : i = .inbound k (.received text))
    (ht : t.phase = s.phase ∧ t.connection = s.connection) {kind : String} {q : Nat} {data : Json}
    (ha : t.accepts q = true) : Tells s i (t.accept kind q data) := by
  have haccepts : s.phase.acceptsDispatch = true := by
    rw [← ht.1]
    simpa using (Bool.and_eq_true _ _ ▸ ha : _ ∧ _).1
  have hstay : t.connection = some k := ht.2.trans hk
  cases hw : welcome? kind data with
  | some info =>
    rw [accept_welcome t hw]
    exact .accepted k hk text hi haccepts (.ready info.sessionId) (.inr ⟨_, rfl⟩)
      (by simp [Effect.happening?]) rfl hstay
  | none =>
    by_cases hkind : kind = "RESUMED"
    · subst hkind
      rw [accept_resumed]
      exact .accepted k hk text hi haccepts .resumed (.inl rfl) (by simp [Effect.happening?]) rfl
        hstay
    · rw [accept_other t hw hkind]
      exact .same (by simp [Effect.happening?]) ht.1 ht.2

theorem tells_meets {text : String} {message : Message} (ht : t.phase = s.phase ∧ t.connection = s.connection)
    (h : Meets c m t k message r) : Tells s (.inbound k (.received text)) r := by
  cases h with
  | greet ms _ => exact .same (by simp) ht.1 ht.2
  | resume ms _ _ _ => exact tells_deliver hk (by simp) ht.1 ht.2
  | ask ms _ _ => exact .same (by simp [Effect.happening?]) ht.1 ht.2
  | pulse => exact tells_deliver hk select_nil ht.1 ht.2
  | ack =>
    by_cases hp : t.phase = .ready
    · have hphase : s.phase.acceptsDispatch = true := by rw [← ht.1, hp]; rfl
      exact .nothing rfl (by simp [acked, hp]) (by simp [acked, hp]) fun _ => ⟨ht.2, .inl hphase⟩
    · exact .same rfl (by simpa [acked, hp] using ht.1) ht.2
  | leave => exact tells_leave hk
  | redial _ => exact tells_redial
  | reject _ _ =>
    refine .nothing (by simp [Effect.happening?]) (by simp [await, awaiting, rejected])
      (by simp [await, awaiting, rejected]) fun _ => ⟨ht.2, .inr ⟨k, text, hk, rfl⟩⟩
  | accept kind q data ha => exact tells_accept hk rfl ht ha
  | skip _ _ _ _ => exact .same rfl ht.1 ht.2
  | unknown _ => exact .same rfl ht.1 ht.2

end OnConnection

/-- Every step tells in one of these ways. -/
theorem tells_happens (h : Happens c m s i r) : Tells s i r := by
  cases h with
  | start _ => exact tells_dial
  | restart => exact .away (by simp [dial, Effect.happening?]) (.inl rfl)
  | shutdown => exact .away (by simp) (.inr rfl)
  | stop => exact .same (by simp) rfl rfl
  | refuse _ _ _ _ => exact .same (by simp [Effect.happening?]) rfl rfl
  | command _ _ _ _ _ _ =>
    refine .same ?_ rfl rfl
    cases s.link.current <;> simp [Effect.happening?]
  | opened k hk => exact .opened k hk rfl (by simp [Effect.happening?]) rfl hk
  | mumble _ _ _ _ _ => exact .same rfl rfl rfl
  | message k _ hk _ hr => exact tells_meets (t := s.heard m) hk ⟨rfl, rfl⟩ hr
  | close k code reason hk => exact .quits k hk _ (.inr ⟨code, reason, rfl, rfl⟩) quits_lose
  | fail k _ hk _ => exact tells_retreat hk
  | due k hk _ => exact tells_deliver hk select_nil rfl rfl
  | dead k hk _ => exact tells_leave hk
  | late _ _ _ => exact .same rfl rfl rfl
  | denied k _ hk _ => exact tells_retreat hk
  | identify k hk _ => exact tells_deliver hk select_nil rfl rfl
  | reconnect _ _ _ => exact tells_dial
  | _ => exact .same rfl rfl rfl

/-! ## Notices and phases -/

/-- Nothing is told in a step after which the opening of a connection is waited for. -/
theorem Tells.eq_nil_of_connecting (h : Tells s i r) (hp : r.1.phase = .connecting) :
    notices r.2 = [] := by
  cases h with
  | nothing htold => exact htold
  | opened _ _ _ _ hphase => exact absurd (hphase.symm.trans hp) (by simp)
  | accepted _ _ _ _ _ _ _ _ hphase => exact absurd (hphase.symm.trans hp) (by simp)
  | quits _ _ _ _ hquits =>
    cases hquits with
    | planned _ _ _ hphase => exact absurd (hphase.symm.trans hp) (by simp)
    | failed _ _ hphase => exact absurd (hphase.symm.trans hp) (by simp)

/-- A session that hears a connection has neither stopped for good nor planned a reconnect. -/
theorem Coupled.ne_of_connection (hs : s.Coupled) {k : Nat} (hk : s.connection = some k) :
    s.phase ≠ .fatal ∧ s.phase ≠ .reconnectPending := by
  have hnot := fun h => Option.some_ne_none k (hk.symm.trans (hs.apart.mpr h))
  exact ⟨fun h => hnot (.inr (.inr h)), fun h => hnot (.inr (.inl h))⟩

/-- A stop for good is told once, when the session stops for good. -/
theorem Tells.countP_fatal (h : Tells s i r) (hs : s.Coupled) :
    (notices r.2).countP Happening.isFatal =
      if s.phase ≠ .fatal ∧ r.1.phase = .fatal then 1 else 0 := by
  cases h with
  | nothing htold hfatal =>
    rw [htold, if_neg fun h => h.1 (hfatal h.2)]
    rfl
  | opened k _ _ htold hphase => simp [htold, hphase, Happening.isFatal]
  | accepted k _ _ _ _ h hh htold hphase =>
    rcases hh with rfl | ⟨id, rfl⟩ <;> simp [htold, hphase, Happening.isFatal]
  | quits k hk before hbefore hquits =>
    have hzero : before.countP Happening.isFatal = 0 := by
      rcases hbefore with rfl | ⟨code, reason, -, rfl⟩ <;> rfl
    cases hquits with
    | planned attempt delay htold hphase => simp [htold, hphase, hzero, Happening.isFatal]
    | failed cause htold hphase =>
      simp [htold, hphase, hzero, Happening.isFatal, (hs.ne_of_connection hk).1]

/-- A reconnect is told once, when it is planned. -/
theorem Tells.countP_plan (h : Tells s i r) (hs : s.Coupled) :
    (notices r.2).countP Happening.isPlan =
      if s.phase ≠ .reconnectPending ∧ r.1.phase = .reconnectPending then 1 else 0 := by
  cases h with
  | nothing htold _ hpending =>
    rw [htold, if_neg fun h => h.1 (hpending h.2)]
    rfl
  | opened k _ _ htold hphase => simp [htold, hphase, Happening.isPlan]
  | accepted k _ _ _ _ h hh htold hphase =>
    rcases hh with rfl | ⟨id, rfl⟩ <;> simp [htold, hphase, Happening.isPlan]
  | quits k hk before hbefore hquits =>
    have hzero : before.countP Happening.isPlan = 0 := by
      rcases hbefore with rfl | ⟨code, reason, -, rfl⟩ <;> rfl
    cases hquits with
    | planned attempt delay htold hphase =>
      simp [htold, hphase, hzero, Happening.isPlan, (hs.ne_of_connection hk).2]
    | failed cause htold hphase => simp [htold, hphase, hzero, Happening.isPlan]

/-- The stop for good that is told is the one that the session keeps. -/
theorem Tells.fatal_of_mem (h : Tells s i r) {reason : String} {authentication : Bool}
    (hmem : .fatal reason authentication ∈ notices r.2) :
    s.connection.isSome = true ∧ r.1.phase = .fatal ∧
      r.1.fatal = some ⟨reason, authentication⟩ := by
  cases h with
  | nothing htold => simp [htold] at hmem
  | opened k _ _ htold => simp [htold] at hmem
  | accepted k _ _ _ _ h hh htold =>
    rcases hh with rfl | ⟨id, rfl⟩ <;> simp [htold] at hmem
  | quits k hk before hbefore hquits =>
    have hnot : .fatal reason authentication ∉ before := by
      rcases hbefore with rfl | ⟨code, reason, -, rfl⟩ <;> simp
    cases hquits with
    | planned attempt delay htold => simp [htold, hnot] at hmem
    | failed cause htold hphase _ hcause =>
      obtain ⟨rfl, rfl⟩ : reason = cause.reason ∧ authentication = cause.authentication := by
        simpa [htold, hnot] using hmem
      exact ⟨by simp [hk], hphase, hcause⟩

end Session

end Switchboard
