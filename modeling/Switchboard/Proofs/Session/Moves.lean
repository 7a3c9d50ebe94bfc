import Switchboard.Proofs.Session.Steps

/-!
# Staying on a connection and leaving it

A step either leaves the connection of a session, for none or for a fresh one, or stays on it. What
is said here of a step is what matters for the handshake: whether the phase before the opening is
over, whether a wait for an admission begins, and whether there is a session to take up.

## Main definitions

* `Session.waits`: the connections for which effects begin a wait.
* `Session.Fresh`: there is nothing to take up, or the server accepted the session.
* `Session.Moves`: what a step does to the connection.
-/
namespace Switchboard.Session

/-- The connection for which an effect begins a wait for an admission. -/
def Effect.wait? : Effect → Option Nat
  | .beginIdentify _ k => some k
  | _ => none

/-- The connections for which effects begin a wait for an admission. -/
abbrev waits (es : List Effect) : List Nat := select Effect.wait? es

instance : Effect.Ignores Effect.isChore Effect.wait? :=
  ⟨fun e he => by cases e <;> simp_all [Effect.wait?, Effect.isChore]⟩

/-- There is nothing to take up, or the server accepted the session. -/
def Fresh (s : Session) : Prop := s.sessionId = none ∨ s.phase.isReady = true

variable {c : Config} {m : Moment} {s : Session}

@[simp] theorem waits_accept (kind : String) (q : Nat) (data : Json) :
    waits (s.accept kind q data).2 = [] := by
  obtain ⟨_, _, _, _, _, told, h⟩ := exists_accept s kind q data
  simp [h, select_map, Function.comp_def, Effect.wait?]

/-! ## Leaving -/

/-- The connection is left: for none, or for a further one that is not open yet. -/
structure Leaves (s : Session) (r : Session × List Effect) : Prop where
  connection : r.1.connection = none ∧ r.1.link.begun = s.link.begun ∨
    r.1.connection = some (s.link.begun + 1) ∧ r.1.link.begun = s.link.begun + 1
  waits : waits r.2 = []

theorem leaves_dial : Leaves s (s.dial c) :=
  ⟨.inr ⟨rfl, rfl⟩, by simp [dial, Effect.wait?]⟩

theorem leaves_redial {reason : String} : Leaves s (s.redial c reason) :=
  ⟨.inr ⟨rfl, rfl⟩, by simp [redial, Effect.wait?]⟩

theorem leaves_fail {cause : FatalCause} : Leaves s (s.fail cause) :=
  ⟨.inl ⟨rfl, rfl⟩, by simp [fail, Effect.wait?]⟩

theorem leaves_retreat {reason : String} : Leaves s (s.retreat c m reason) := by
  unfold retreat
  split <;> exact ⟨.inl ⟨rfl, rfl⟩, by simp [Effect.wait?]⟩

theorem leaves_leave {reason : String} : Leaves s (s.leave c m reason) := by
  unfold leave
  split
  · exact leaves_redial
  · exact leaves_retreat

/-- The same after a change that leaves the count of connections. -/
theorem Leaves.following {t : Session} {r : Session × List Effect} (h : Leaves t r)
    (es : List Effect) (hl : t.link.begun = s.link.begun) (hes : Session.waits es = []) :
    Leaves s (following es r) := by
  refine ⟨?_, by simp [hes, h.waits]⟩
  rw [← hl]
  exact h.connection

theorem leaves_lose {code : Option Nat} {reason : String} :
    Leaves s (s.lose c m code reason) := by
  have hwaits : waits (s.taskEnds ++ [.announce (.disconnected code reason)]) = [] := by
    simp [Effect.wait?]
  have hl : (s.lost code).link.begun = s.link.begun := rfl
  unfold lose
  cases CloseAction.ofCode code with
  | authenticationFailed => exact leaves_fail.following _ hl hwaits
  | fatal => exact leaves_fail.following _ hl hwaits
  | reidentify =>
    have hf : (s.lost code).forget.link.begun = s.link.begun := rfl
    exact leaves_retreat.following _ hf hwaits
  | resume => exact leaves_retreat.following _ hl hwaits

/-! ## Steps -/

/-- What a step does to the connection. -/
inductive Moves (s : Session) (i : Input) (r : Session × List Effect) : Prop where
  | leave (h : Leaves s r)
  /-- The connection stays. A wait begins only for the connection that is heard, on
  news of it, and when there is nothing to take up. -/
  | stay (hc : r.1.connection = s.connection) (hl : r.1.link.begun = s.link.begun)
      (hopen : r.1.phase = .connecting →
        s.phase = .connecting ∧ ∀ k, s.connection = some k → i ≠ .inbound k .opened)
      (hfresh : s.Fresh → (∀ k, s.connection = some k → i ≠ .inbound k .opened) → r.1.Fresh)
      (hwaits : ∀ k ∈ waits r.2,
        s.connection = some k ∧ r.1.sessionId = none ∧ ∃ e, i = .inbound k e)

/-- Nothing changes that a handshake depends on. -/
theorem Moves.same {i : Input} {r : Session × List Effect} (hc : r.1.connection = s.connection)
    (hl : r.1.link.begun = s.link.begun) (hi : ∀ k, i ≠ .inbound k .opened) (hp : r.1.phase = s.phase)
    (hid : r.1.sessionId = s.sessionId) (hw : waits r.2 = []) : Moves s i r := by
  refine .stay hc hl ?_ ?_ (by simp [hw])
  · intro h
    exact ⟨hp ▸ h, fun k _ => hi k⟩
  · intro h _
    simpa [Fresh, hp, hid] using h

/-- To have heard a message is no move. -/
theorem Moves.of_heard {i : Input} {r : Session × List Effect} (h : Moves (s.heard m) i r) :
    Moves s i r := by
  cases h with
  | leave h => exact .leave ⟨h.connection, h.waits⟩
  | stay hc hl hopen hfresh hwaits => exact .stay hc hl hopen hfresh hwaits

theorem moves_deliver {t : Session} {i : Input} {p : String} (before : List Effect)
    (hi : ∀ k, i ≠ .inbound k .opened) (hc : t.connection = s.connection)
    (hl : t.link.begun = s.link.begun) (hp : t.phase = s.phase)
    (hid : t.sessionId = s.sessionId) (hw : waits before = []) :
    Moves s i (following before (t.deliver c m p)) := by
  unfold deliver
  split
  · refine .same hc hl hi hp hid ?_
    cases t.link.current <;> simp [hw, Effect.wait?]
  · exact .leave (leaves_retreat.following _ hl hw)

theorem moves_accept {i : Input} (hi : ∀ k, i ≠ .inbound k .opened) {kind : String} {q : Nat}
    {data : Json} (ha : s.accepts q = true) : Moves s i (s.accept kind q data) := by
  have hphase : s.phase ≠ .connecting := by
    intro hp
    simp [accepts, hp, Phase.acceptsDispatch] at ha
  have hw := waits_accept (s := s) kind q data
  cases hwelcome : welcome? kind data with
  | some info =>
    rw [accept_welcome s hwelcome] at hw ⊢
    exact .stay rfl rfl (by simp [settled]) (fun _ _ => .inr rfl) (by simp [hw])
  | none =>
    by_cases hk : kind = "RESUMED"
    · subst hk
      rw [accept_resumed] at hw ⊢
      exact .stay rfl rfl (by simp [settled]) (fun _ _ => .inr rfl) (by simp [hw])
    · rw [accept_other s hwelcome hk] at hw ⊢
      exact .same rfl rfl hi rfl rfl hw

theorem moves_meets {k : Nat} {text : String} (hk : s.connection = some k) {message : Message}
    {r : Session × List Effect} (hs : s.sessionId.isSome = true → s.sequence.isSome = true)
    (h : Meets c m s k message r) : Moves s (.inbound k (.received text)) r := by
  have hi : ∀ k', Input.inbound k (.received text) ≠ .inbound k' .opened := by simp
  cases h with
  | greet ms _ => exact .same rfl rfl hi rfl rfl (by simp)
  | resume ms _ _ _ => exact moves_deliver _ hi rfl rfl rfl rfl (by simp)
  | ask ms _ hr =>
    have hid : s.sessionId = none := by
      cases hid : s.sessionId with
      | none => rfl
      | some id => simp [canResume, hid, hs (by simp [hid])] at hr
    refine .stay rfl rfl (fun hp => ⟨hp, fun k' _ => hi k'⟩) (fun _ _ => .inl hid) ?_
    intro k' hk'
    obtain rfl : k' = k := by simpa [Effect.wait?, eq_comm] using hk'
    exact ⟨hk, hid, _, rfl⟩
  | pulse => exact moves_deliver [] hi rfl rfl rfl rfl rfl
  | ack =>
    refine .stay rfl rfl ?_ ?_ (by simp)
    · intro hp
      refine ⟨?_, fun k' _ => hi k'⟩
      by_cases hr : s.phase = .ready <;> simp_all [acked]
    · intro hf _
      by_cases hr : s.phase = .ready
      · exact .inr (by simp [acked, hr, Phase.isReady])
      · simpa [Fresh, acked, hr] using hf
  | leave => exact .leave leaves_leave
  | redial _ => exact .leave leaves_redial
  | reject _ _ =>
    refine .stay rfl rfl (by simp [await, awaiting, rejected]) (fun _ _ => .inl rfl) ?_
    intro k' hk'
    obtain rfl : k' = k := by simpa [Effect.wait?, eq_comm] using hk'
    exact ⟨hk, rfl, _, rfl⟩
  | accept kind q data ha => exact moves_accept hi ha
  | skip _ _ _ _ => exact .same rfl rfl hi rfl rfl rfl
  | unknown _ => exact .same rfl rfl hi rfl rfl rfl

/-- Every step leaves the connection or stays on it. -/
theorem moves_happens {i : Input} {r : Session × List Effect}
    (hs : s.sessionId.isSome = true → s.sequence.isSome = true) (h : Happens c m s i r) :
    Moves s i r := by
  cases h with
  | start _ => exact .leave leaves_dial
  | restart => exact .leave (leaves_dial.following _ rfl (by simp))
  | shutdown => exact .leave ⟨.inl ⟨rfl, rfl⟩, by simp⟩
  | stop => exact .same rfl rfl (by simp) rfl rfl (by simp)
  | refuse _ _ _ _ => exact .same rfl rfl (by simp) rfl rfl (by simp [Effect.wait?])
  | command _ _ _ _ _ _ =>
    refine .same rfl rfl (by simp) rfl rfl ?_
    cases s.link.current <;> simp [Effect.wait?]
  | opened k hk =>
    refine .stay rfl rfl (by simp) ?_ (by simp [Effect.wait?])
    intro _ hno
    exact absurd rfl (hno k hk)
  | mumble _ _ _ _ _ => exact .same rfl rfl (by simp) rfl rfl rfl
  | message k _ hk _ hr => exact (moves_meets (s := s.heard m) hk hs hr).of_heard
  | close _ _ _ _ => exact .leave leaves_lose
  | fail _ _ _ _ => exact .leave leaves_retreat
  | stale k e hk =>
    refine .stay rfl rfl ?_ ?_ (by simp)
    · intro hp
      refine ⟨hp, ?_⟩
      rintro k' hk' heq
      obtain ⟨rfl, -⟩ := Input.inbound.inj heq
      exact hk hk'
    · intro hf _
      exact hf
  | due _ _ _ => exact moves_deliver [] (by simp) rfl rfl rfl rfl rfl
  | dead _ _ _ => exact .leave (leaves_leave.following [] rfl rfl)
  | late _ _ _ => exact .same rfl rfl (by simp) rfl rfl rfl
  | denied _ _ _ _ => exact .leave (leaves_retreat.following [] rfl rfl)
  | identify _ _ _ => exact moves_deliver [] (by simp) rfl rfl rfl rfl rfl
  | reconnect _ _ _ => exact .leave leaves_dial
  | _ => exact .same rfl rfl (by simp) rfl rfl rfl

end Switchboard.Session
