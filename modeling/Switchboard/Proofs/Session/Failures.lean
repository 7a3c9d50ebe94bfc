import Switchboard.Proofs.Session.AtRest

/-!
# How a session fails

A session stops for good in one step, which tells why, and the cause that it keeps is the one that
it told. Until it is restarted or shut down it keeps the cause and tells no other.

## Main definitions

* `Session.failures`: the causes that effects tell.
* `Session.Blames`: what a step does to the cause, and what it tells.
* `Session.Failed`: the session stopped for good, and a restart is allowed.

## Main results

* `Session.blames_happens`: a step that tells a cause stops the session for it.
* `Session.Failed.step`: a session that stopped for good stays so.
* `Session.failed_of_happens`: a session that has failed after a step told so, or had failed before.
-/
namespace Switchboard.Session

/-- The cause that an effect tells. -/
def Effect.failure? : Effect → Option FatalCause
  | .announce (.fatal reason authentication) => some ⟨reason, authentication⟩
  | _ => none

/-- The causes that effects tell. -/
abbrev failures (es : List Effect) : List FatalCause := select Effect.failure? es

instance : Effect.Ignores Effect.isChore Effect.failure? :=
  ⟨fun e he => by cases e <;> simp_all [Effect.failure?, Effect.isChore]⟩

theorem mem_failures {cause : FatalCause} {es : List Effect} :
    cause ∈ failures es ↔ .announce (.fatal cause.reason cause.authentication) ∈ es := by
  rw [failures, mem_select]
  constructor
  · rintro ⟨x, hx, hcause⟩
    cases x with
    | announce h =>
      cases h with
      | fatal reason authentication =>
        obtain rfl := Option.some.inj hcause
        exact hx
      | _ => simp [Effect.failure?] at hcause
    | _ => simp [Effect.failure?] at hcause
  · exact fun hx => ⟨_, hx, rfl⟩

variable {c : Config} {m : Moment} {s : Session}

/-- What a step does to the cause for which a session stopped, and what it tells: nothing and it
keeps none but the one so far, or one and it stops for that. -/
inductive Blames (s : Session) (r : Session × List Effect) : Prop where
  | none (hf : r.1.fatal = s.fatal ∨ r.1.fatal = none) (ht : failures r.2 = [])
  | fail (cause : FatalCause) (hp : r.1.phase = .fatal) (hf : r.1.fatal = some cause)
      (ht : failures r.2 = [cause])

theorem blames_same {r : Session × List Effect} (hf : r.1.fatal = s.fatal)
    (ht : failures r.2 = []) : Blames s r := .none (.inl hf) ht

theorem Blames.following {r : Session × List Effect} (h : Blames s r) {es : List Effect}
    (hes : failures es = []) : Blames s (following es r) := by
  cases h with
  | none hf ht => exact .none hf (by simp [hes, ht])
  | fail cause hp hf ht => exact .fail cause hp hf (by simp [hes, ht])

theorem blames_dial {t : Session} : Blames s (t.dial c) :=
  .none (.inr rfl) (by simp [dial, Effect.failure?])

theorem blames_redial {t : Session} {reason : String} : Blames s (t.redial c reason) :=
  .none (.inr rfl) (by simp [redial, Effect.failure?])

theorem blames_fail {t : Session} {cause : FatalCause} : Blames s (t.fail cause) :=
  .fail cause rfl rfl (by simp [fail, Effect.failure?])

theorem blames_retreat {t : Session} (hf : t.fatal = s.fatal) {reason : String} :
    Blames s (t.retreat c m reason) := by
  unfold retreat
  split
  case h_1 most _ =>
    have hcause : (⟨(gaveUp most reason).reason, false⟩ : FatalCause) = gaveUp most reason := rfl
    exact .fail (gaveUp most reason) rfl rfl (by simp [Effect.failure?, hcause])
  case h_2 => exact blames_same hf (by simp [Effect.failure?])

theorem blames_leave {t : Session} (hf : t.fatal = s.fatal) {reason : String} :
    Blames s (t.leave c m reason) := by
  unfold leave
  split
  · exact blames_redial
  · exact blames_retreat hf

theorem blames_deliver {t : Session} (hf : t.fatal = s.fatal) {p : String} :
    Blames s (t.deliver c m p) := by
  unfold deliver
  split
  · refine blames_same hf ?_
    cases t.link.current <;> simp [Effect.failure?]
  · exact blames_retreat hf

theorem blames_lose {code : Option Nat} {reason : String} :
    Blames s (s.lose c m code reason) := by
  have hes : failures (s.taskEnds ++ [.announce (.disconnected code reason)]) = [] := by
    simp [Effect.failure?]
  unfold lose
  cases CloseAction.ofCode code with
  | authenticationFailed => exact Blames.following blames_fail hes
  | fatal => exact Blames.following blames_fail hes
  | reidentify => exact (blames_retreat (s := s) (t := (s.lost code).forget) rfl).following hes
  | resume => exact (blames_retreat (s := s) (t := s.lost code) rfl).following hes

theorem blames_accept (kind : String) (q : Nat) (data : Json) :
    Blames s ((s.heard m).accept kind q data) := by
  unfold accept
  split
  · exact blames_same rfl rfl
  · split <;> exact blames_same rfl rfl

theorem blames_meets {k : Nat} {message : Message} {r : Session × List Effect}
    (h : Meets c m (s.heard m) k message r) : Blames s r := by
  cases h with
  | greet _ _ => exact blames_same rfl (by simp)
  | resume _ _ _ _ => exact (blames_deliver (s := s) (by rfl)).following (by simp)
  | ask _ _ _ => exact blames_same rfl (by simp [Effect.failure?])
  | pulse => exact blames_deliver (by rfl)
  | leave => exact blames_leave (by rfl)
  | redial _ => exact blames_redial
  | reject _ _ => exact blames_same rfl (by simp [Effect.failure?])
  | accept kind q data _ => exact blames_accept kind q data
  | _ => exact blames_same rfl rfl

/-- A step that tells a cause stops the session for it, and no other gives it one. -/
theorem blames_happens {i : Input} {r : Session × List Effect} (h : Happens c m s i r) :
    Blames s r := by
  cases h with
  | start _ => exact blames_dial
  | restart => exact blames_dial.following (by simp)
  | shutdown => exact blames_same rfl (by simp)
  | stop => exact blames_same rfl (by simp)
  | refuse _ _ _ _ => exact blames_same rfl rfl
  | command _ _ _ _ _ _ =>
    refine blames_same rfl ?_
    cases s.link.current <;> simp [Effect.failure?]
  | opened _ _ => exact blames_same rfl rfl
  | message _ _ _ _ hr => exact blames_meets hr
  | close _ _ _ _ => exact blames_lose
  | fail _ _ _ _ => exact blames_retreat (by rfl)
  | due _ _ _ => exact blames_deliver (by rfl)
  | dead _ _ _ => exact blames_leave (by rfl)
  | denied _ _ _ _ => exact blames_retreat (by rfl)
  | identify _ _ _ => exact blames_deliver (by rfl)
  | reconnect _ _ _ => exact blames_dial
  | _ => exact blames_same rfl rfl

/-! ## A session that failed -/

/-- The session stopped for good, for a reason other than rejected credentials. -/
def Failed (s : Session) : Prop :=
  s.phase = .fatal ∧ ∃ cause, s.fatal = some cause ∧ cause.authentication = false

/-- The input gets a session that stopped for good to work again, or to rest. -/
def Input.revives : Input → Bool
  | .restart | .shutdown => true
  | _ => false

theorem Failed.step (h : s.Failed) (hs : s.Coupled) {i : Input} (hi : i.revives = false) :
    (Session.step c s m i).1.Failed := by
  have hwakes : i.wakes s.phase = false := by
    rw [h.1]
    cases i with
    | restart | shutdown => simp [Input.revives] at hi
    | _ => rfl
  have hrests := atRest_happens (hs.atRest (.inr h.1)) hwakes (happens_step c s m i)
  obtain ⟨cause, hcause, hauth⟩ := h.2
  exact ⟨hrests.phase.trans h.1, cause, hrests.fatal.trans hcause, hauth⟩

/-! ## How a session comes to have failed -/

/-- A session that stops for good in a step tells why. -/
def Owns (s : Session) (r : Session × List Effect) : Prop :=
  r.1.phase = .fatal → s.phase = .fatal ∨ failures r.2 ≠ []

theorem owns_same {r : Session × List Effect} (hp : r.1.phase = s.phase) : Owns s r :=
  fun hfatal => .inl (hp ▸ hfatal)

theorem owns_of_ne {r : Session × List Effect} (hp : r.1.phase ≠ .fatal) : Owns s r :=
  fun hfatal => absurd hfatal hp

theorem Owns.following {r : Session × List Effect} (h : Owns s r) (es : List Effect) :
    Owns s (following es r) := by
  refine fun hfatal => (h hfatal).imp_right fun hne => ?_
  simp [hne]

theorem owns_fail {t : Session} {cause : FatalCause} : Owns s (t.fail cause) :=
  fun _ => .inr (by simp [fail, Effect.failure?])

theorem owns_retreat {t : Session} {reason : String} : Owns s (t.retreat c m reason) := by
  unfold retreat
  split
  case h_1 => exact fun _ => .inr (by simp [Effect.failure?])
  case h_2 => exact owns_of_ne (by simp [planned])

theorem owns_leave {t : Session} {reason : String} : Owns s (t.leave c m reason) := by
  unfold leave
  split
  case isTrue => exact owns_of_ne (by simp [redial, dialed])
  case isFalse => exact owns_retreat

theorem owns_deliver {t : Session} (hp : t.phase = s.phase) {p : String} :
    Owns s (t.deliver c m p) := by
  unfold deliver
  split
  case h_1 => exact owns_same hp
  case h_2 => exact owns_retreat

theorem owns_lose {code : Option Nat} {reason : String} : Owns s (s.lose c m code reason) := by
  unfold lose
  cases CloseAction.ofCode code with
  | authenticationFailed => exact owns_fail.following _
  | fatal => exact owns_fail.following _
  | reidentify => exact owns_retreat.following _
  | resume => exact owns_retreat.following _

theorem owns_accept (kind : String) (q : Nat) (data : Json) :
    Owns s ((s.heard m).accept kind q data) := by
  unfold accept
  split
  case h_1 => exact owns_of_ne (by simp [settled])
  case h_2 =>
    split
    case isTrue => exact owns_of_ne (by simp [settled])
    case isFalse => exact owns_same rfl

theorem owns_meets {k : Nat} {message : Message} {r : Session × List Effect}
    (h : Meets c m (s.heard m) k message r) : Owns s r := by
  cases h with
  | resume _ _ _ _ => exact (owns_deliver (s := s) (by rfl)).following _
  | ask _ _ _ => exact (owns_same (s := s) (by rfl)).following _
  | pulse => exact owns_deliver (by rfl)
  | ack =>
    by_cases hp : s.phase = .ready
    · exact owns_of_ne (by simp [acked, heard, hp])
    · exact owns_same (by simp [acked, heard, hp])
  | leave => exact owns_leave
  | redial _ => exact owns_of_ne (by simp [redial, dialed])
  | reject _ _ => exact owns_of_ne (by simp [rejected, await, awaiting])
  | accept kind q data _ => exact owns_accept kind q data
  | _ => exact owns_same rfl

theorem owns_happens {i : Input} {r : Session × List Effect} (h : Happens c m s i r) :
    Owns s r := by
  cases h with
  | start _ => exact owns_of_ne (by simp [dial, dialed])
  | restart => exact owns_of_ne (by simp [dial, dialed])
  | shutdown => exact owns_of_ne (by simp [shut])
  | opened _ _ => exact owns_of_ne (by simp)
  | message _ _ _ _ hr => exact owns_meets hr
  | close _ _ _ _ => exact owns_lose
  | fail _ _ _ _ => exact owns_retreat
  | due _ _ _ => exact owns_deliver (by rfl)
  | dead _ _ _ => exact owns_leave
  | denied _ _ _ _ => exact owns_retreat
  | identify _ _ _ => exact owns_deliver (by rfl)
  | reconnect _ _ _ => exact owns_of_ne (by simp [dial, dialed])
  | _ => exact owns_same rfl

/-- A session that has failed after a step tells so in the step, or had failed before and was not
restarted. -/
theorem failed_of_happens {i : Input} {r : Session × List Effect} (h : Happens c m s i r)
    (hr : r.1.Failed) :
    (∃ cause ∈ failures r.2, cause.authentication = false) ∨ s.Failed ∧ i ≠ .restart := by
  obtain ⟨hphase, cause, hcause, hauth⟩ := hr
  cases blames_happens h with
  | fail cause' _ hf ht =>
    obtain rfl : cause' = cause := Option.some.inj (hf.symm.trans hcause)
    exact .inl ⟨cause', by simp [ht], hauth⟩
  | none hf ht =>
    have hbefore : s.phase = .fatal := (owns_happens h hphase).resolve_right (by simp [ht])
    have hkept : s.fatal = some cause := by
      rcases hf with hf | hf
      · exact hf ▸ hcause
      · simp [hf] at hcause
    refine .inr ⟨⟨hbefore, cause, hkept, hauth⟩, ?_⟩
    rintro rfl
    cases h with
    | restart => simp [dial, dialed] at hphase

end Switchboard.Session
