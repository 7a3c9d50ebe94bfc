import Switchboard.Proofs.Session.Coupling
import Switchboard.Proofs.Session.Moves

/-!
# Between a connection and its session

The tasks of a connection go on by themselves. A reader that comes to the end marks the connection as
finished, then reports the last event, then takes back the writer, and anything can happen in
between. What is reported waits until it is passed on to the mail of the session, where it stands
among everything else that the session has to handle. A `Desk` is a session with all of this; its
moves are those of the tasks, in any order.

## Main definitions

* `Desk`: a session, its transport, and what is between them.
* `Desk.move`, `Desk.run`: one move, and a schedule of moves.
* `Desk.Sound`: the invariant.

## Main results

* `Desk.sound_move`: every move preserves the invariant.
* `Desk.run_end`, `Desk.run_refused`: how a connection ends, as moves one right after the other.
* `Desk.exists_drained`: whatever is under way can be handled.
-/
namespace Switchboard

/-! ## What a session does to its transport -/

namespace Transport

/-- Does what effects ask for, one by one. -/
def obeyAll (t : Transport) (es : List Session.Effect) : Transport := es.foldl obey t

theorem serves_obeyAll (t : Transport) (es : List Session.Effect) : Serves t es (t.obeyAll es) := by
  induction es generalizing t with
  | nil => exact .done t
  | cons e es ih => exact .obey e (ih (t.obey e))

/-- The connections are those that were begun, and of some it is known that the reader is done. -/
structure Sound (done : Nat → Prop) (t : Transport) : Prop where
  known : ∀ k x, t.connection? k = some x → 1 ≤ k ∧ k ≤ t.link.begun
  done : ∀ k, done k → ∃ x, t.connection? k = some x ∧ x.stage = .done

variable {D : Nat → Prop} {t : Transport}

theorem sound_modify (h : t.Sound D) {k : Nat} {f : Connection → Connection}
    (hf : ∀ x, t.connection? k = some x → x.stage = .done → (f x).stage = .done) :
    (t.modify k f).Sound D where
  known := by
    intro j x hx
    rw [connection?_modify] at hx
    rw [link_modify]
    by_cases hj : j = k
    · subst hj
      obtain ⟨y, hy, -⟩ : ∃ y, t.connection? j = some y ∧ f y = x := by simpa using hx
      exact h.known j y hy
    · exact h.known j x (by simpa [hj] using hx)
  done := by
    intro j hj
    obtain ⟨x, hx, hs⟩ := h.done j hj
    rw [connection?_modify]
    by_cases hjk : j = k
    · subst hjk
      exact ⟨f x, by simp [hx], hf x hx hs⟩
    · exact ⟨x, by simp [hjk, hx], hs⟩

theorem sound_drop (h : t.Sound D) : Sound D { t with link := t.link.drop } :=
  ⟨h.known, h.done⟩

theorem sound_close (h : t.Sound D) (code : Nat) (reason : String) :
    (t.close code reason).Sound D := by
  cases hc : t.link.current with
  | none => simpa [close, hc] using h
  | some k =>
    have hm := sound_modify h (k := k) (f := (·.close code reason)) (by
      intro x _ hs
      simp [Connection.close, hs])
    simpa [close, hc, link_modify] using sound_drop hm

/-- A further connection is not one of those so far. -/
theorem sound_renew (h : t.Sound D) (x : Connection) :
    Sound D { t with
      link := t.link.renew
      connections := Table.put (t.link.begun + 1) x t.connections } where
  known := by
    intro k y hy
    have hbegun : t.link.renew.begun = t.link.begun + 1 := rfl
    rw [hbegun]
    by_cases hk : k = t.link.begun + 1
    · omega
    · have hk' := h.known k y (by simpa [connection?, Table.get?_put, hk] using hy)
      omega
  done := by
    intro k hk
    obtain ⟨y, hy, hs⟩ := h.done k hk
    have hle := h.known k y hy
    have hne : k ≠ t.link.begun + 1 := by omega
    exact ⟨y, by simpa [connection?, Table.get?_put, hne] using hy, hs⟩

theorem sound_dial (h : t.Sound D) (url : String) : (t.dial url).1.Sound D := by
  cases hc : t.link.current with
  | none => simpa [dial, hc] using sound_renew h (.new url t.mode)
  | some k =>
    by_cases hl : t.isLive = true
    · simpa [dial, hc, hl] using h
    · have hclosed := sound_close h 1000 "superseded"
      simpa [dial, hc, hl] using sound_renew hclosed _

theorem sound_obey (h : t.Sound D) (e : Session.Effect) : (t.obey e).Sound D := by
  cases e with
  | connect k url => exact sound_dial h url
  | close k code reason => exact sound_close h code reason
  | send k payload =>
    cases hc : t.link.current with
    | none => simpa [obey, send, hc] using h
    | some j =>
      have hm := sound_modify h (k := j) (f := (·.send (.ofString payload))) (by
        intro x _ hs
        unfold Connection.send
        split <;> exact hs)
      simpa [obey, send, hc] using hm
  | _ => exact h

theorem sound_obeyAll (h : t.Sound D) (es : List Session.Effect) : (t.obeyAll es).Sound D := by
  induction es generalizing t with
  | nil => exact h
  | cons e es ih => exact ih (sound_obey h e)

end Transport

/-! ## The desk -/

/-- What a session handled: in which state, at which moment, and what. -/
structure Record where
  session : Session
  moment : Session.Moment
  input : Session.Input

/-- The session hears the connection before and no longer afterwards. -/
def Record.Leaves (c : Config) (k : Nat) (r : Record) : Prop :=
  r.session.connection = some k ∧
    (Session.step c r.session r.moment r.input).1.connection ≠ some k

/-- A session, its transport, and what is between them. -/
structure Desk where
  session : Session
  transport : Transport
  /-- The last events of connections that are finished and have not reported it yet. -/
  pending : Nat → Option LinkEvent := fun _ => none
  /-- Reported, and not passed on yet, oldest first. -/
  news : List (Nat × LinkEvent) := []
  /-- What the session has to handle, oldest first. -/
  mail : List Session.Input := []
  /-- How each connection that is finished has ended. -/
  ended : List (Nat × LinkEvent) := []
  /-- What the session has handled, oldest first. -/
  log : List Record := []

/-- What comes to a session from elsewhere than its connections, until the session ends. -/
def Session.Input.isErrand : Session.Input → Bool
  | .stop | .inbound _ _ => false
  | _ => true

namespace Desk

/-- What the tasks around a session do. -/
inductive Move where
  /-- Somebody has something for the session. -/
  | post (i : Session.Input)
  /-- What was reported first is passed on. -/
  | pass
  /-- The session handles the first of its mail. -/
  | handle (now : Instant) (draw : Float)
  /-- A connection is made. -/
  | connect (k : Nat)
  /-- A connection cannot be made. -/
  | refuse (k : Nat) (failure : Failure)
  /-- A reader takes what the transport gives. -/
  | read (k : Nat) (i : Inbound)
  /-- A reader reports the last event of a connection that is finished. -/
  | report (k : Nat)
  /-- A reader takes the writer back. -/
  | withdraw (k : Nat)
  /-- A reader learns that its connection was closed on this side. -/
  | notice (k : Nat)
  /-- A writer goes on. -/
  | write (k : Nat) (broken : Option Failure)

/-- A desk at the beginning. -/
def begin (c : Config) (shard : Shard) (now : Instant) : Desk where
  session := .new c shard now
  transport := { mode := c.compression }

/-- A connection goes on, and reports something. -/
def stir (d : Desk) (k : Nat) (x : Connection) (es : List LinkEvent) : Desk :=
  { d with
    transport := d.transport.modify k fun _ => x
    news := d.news ++ es.map (k, ·) }

/-- A connection is finished, with an event that is still to be reported. -/
def finish (d : Desk) (k : Nat) (e : LinkEvent) : Desk :=
  { d with
    transport := d.transport.modify k (·.mark)
    pending := fun j => if j = k then some e else d.pending j
    ended := d.ended ++ [(k, e)] }

/-- The last event of a connection is reported. -/
def reported (d : Desk) (k : Nat) (e : LinkEvent) : Desk :=
  { d with
    pending := fun j => if j = k then none else d.pending j
    news := d.news ++ [(k, e)] }

/-- The session handles an input, and the transport does what the session asks for. -/
def handled (c : Config) (d : Desk) (now : Instant) (draw : Float) (i : Session.Input)
    (rest : List Session.Input) : Desk :=
  let m : Session.Moment := ⟨now, d.transport.isLive, d.transport.sending, draw⟩
  { d with
    session := (Session.step c d.session m i).1
    transport := d.transport.obeyAll (Session.step c d.session m i).2
    mail := rest
    log := d.log ++ [⟨d.session, m, i⟩] }

/-- A connection whose reader stands at a stage. -/
def at? (d : Desk) (k : Nat) (stage : Reading) : Option Connection :=
  (d.transport.connection? k).filter (·.stage = stage)

/-- One move, if it is possible. -/
def move (c : Config) (d : Desk) : Move → Option Desk
  | .post i => if i.isErrand then some { d with mail := d.mail ++ [i] } else none
  | .pass =>
    match d.news with
    | [] => none
    | (k, e) :: rest => some { d with news := rest, mail := d.mail ++ [.inbound k e] }
  | .handle now draw =>
    match d.mail with
    | [] => none
    | i :: rest => some (d.handled c now draw i rest)
  | .connect k => (d.at? k .connecting).map fun x => d.stir k x.connected.1 x.connected.2
  | .refuse k failure =>
    (d.at? k .connecting).map fun _ => d.finish k (.failed failure.message)
  | .read k i =>
    (d.at? k .reading).map fun x =>
      match i.last? with
      | some e => d.finish k e
      | none => d.stir k (x.read i).1 (x.read i).2
  | .report k => (d.pending k).map fun e => d.reported k e
  | .withdraw k => (d.at? k .done).map fun x => d.stir k x.withdraw []
  | .notice k =>
    ((d.transport.connection? k).filter (·.closing)).map fun x => d.stir k x.notice []
  | .write k broken =>
    (d.transport.connection? k).bind fun x =>
      (x.write broken).map fun y => d.stir k y.1 []

/-- A schedule of moves, if all are possible. -/
def run (c : Config) (d : Desk) : List Move → Option Desk
  | [] => some d
  | a :: rest => (d.move c a).bind (run c · rest)

/-- An event of a connection is on its way to the session. -/
def UnderWay (d : Desk) (k : Nat) (e : LinkEvent) : Prop :=
  d.pending k = some e ∨ (k, e) ∈ d.news ∨ .inbound k e ∈ d.mail

/-- The session has handled an event of a connection. -/
def Handled (d : Desk) (k : Nat) (e : LinkEvent) : Prop := ∃ r ∈ d.log, r.input = .inbound k e

/-- The session has stopped hearing a connection. -/
def Left (c : Config) (d : Desk) (k : Nat) : Prop := ∃ r ∈ d.log, r.Leaves c k

/-- What holds of a desk between two moves. -/
structure Sound (c : Config) (d : Desk) : Prop where
  coupled : d.session.Coupled
  link : d.transport.link = d.session.link
  /-- The reader of a connection that has ended is done. -/
  transport : d.transport.Sound fun k => ∃ e, (k, e) ∈ d.ended
  /-- A connection ends once. -/
  once : ∀ k e e', (k, e) ∈ d.ended → (k, e') ∈ d.ended → e = e'
  pending : ∀ k e, d.pending k = some e → (k, e) ∈ d.ended
  /-- No end is lost on the way. -/
  arrives : ∀ k e, (k, e) ∈ d.ended → d.UnderWay k e ∨ d.Handled k e
  /-- No close is made up on the way. -/
  genuine : ∀ k code reason, d.UnderWay k (.closed code reason) ∨ d.Handled k (.closed code reason) →
    (k, .closed code reason) ∈ d.ended
  /-- A connection is heard until the session leaves it. -/
  heard : ∀ k, 1 ≤ k → k ≤ d.session.link.begun → d.session.connection = some k ∨ d.Left c k
  /-- A close is handled by a session that hears the connection, or has left it. -/
  handled : ∀ r ∈ d.log, ∀ k code reason, r.input = .inbound k (.closed code reason) →
    r.session.connection = some k ∨ d.Left c k
  mail : ∀ i ∈ d.mail, i ≠ .stop
  log : ∀ r ∈ d.log, r.session.Coupled ∧ r.input ≠ .stop

variable {c : Config} {d : Desk}

theorem sound_begin (c : Config) (shard : Shard) (now : Instant) : (begin c shard now).Sound c where
  coupled := Session.coupled_new c shard now
  link := rfl
  transport := ⟨by simp [begin, Transport.connection?], by simp [begin]⟩
  once := by simp [begin]
  pending := by simp [begin]
  arrives := by simp [begin]
  genuine := by simp [begin, UnderWay, Handled]
  heard := by
    intro k hk hle
    have hzero : (begin c shard now).session.link.begun = 0 := rfl
    omega
  handled := by simp [begin]
  mail := by simp [begin]
  log := by simp [begin]

/-! ## Moves that only bring things further -/

/-- What the session has not handled may be brought further, as long as no close is lost or made up
on the way. -/
theorem Sound.forward (h : d.Sound c) {d' : Desk} (hsession : d'.session = d.session)
    (hlog : d'.log = d.log) (hended : d'.ended = d.ended)
    (hlink : d'.transport.link = d.transport.link)
    (htransport : d'.transport.Sound fun k => ∃ e, (k, e) ∈ d.ended)
    (hpending : ∀ k e, d'.pending k = some e → d.pending k = some e)
    (hway : ∀ k e, d.UnderWay k e → d'.UnderWay k e)
    (hback : ∀ k code reason, d'.UnderWay k (.closed code reason) → d.UnderWay k (.closed code reason))
    (hmail : ∀ i ∈ d'.mail, i ≠ .stop) : d'.Sound c where
  coupled := by rw [hsession]; exact h.coupled
  link := by rw [hlink, hsession]; exact h.link
  transport := by rw [hended]; exact htransport
  once := by rw [hended]; exact h.once
  pending := by
    intro k e he
    rw [hended]
    exact h.pending k e (hpending k e he)
  arrives := by
    intro k e he
    rw [hended] at he
    rw [Handled, hlog]
    exact (h.arrives k e he).imp_left (hway k e)
  genuine := by
    intro k code reason he
    rw [Handled, hlog] at he
    rw [hended]
    exact h.genuine k code reason (he.imp_left (hback k code reason))
  heard := by
    rw [hsession]
    intro k hk hle
    rw [Left, hlog]
    exact h.heard k hk hle
  handled := by
    intro r hr k code reason hi
    rw [hlog] at hr
    rw [Left, hlog]
    exact h.handled r hr k code reason hi
  mail := hmail
  log := by rw [hlog]; exact h.log

theorem sound_post (h : d.Sound c) {i : Session.Input} (hi : i.isErrand = true) :
    Sound c { d with mail := d.mail ++ [i] } := by
  have hno : ∀ k e, Session.Input.inbound k e ≠ i := by
    rintro k e rfl
    simp [Session.Input.isErrand] at hi
  refine h.forward rfl rfl rfl rfl h.transport (fun _ _ he => he) ?_ ?_ ?_
  · intro k e he
    simpa [UnderWay, hno k e] using he
  · intro k code reason he
    simpa [UnderWay, hno k (.closed code reason)] using he
  · intro j hj
    rcases List.mem_append.mp hj with hj | hj
    · exact h.mail j hj
    · obtain rfl : j = i := by simpa using hj
      rintro rfl
      simp [Session.Input.isErrand] at hi

theorem sound_pass (h : d.Sound c) {k : Nat} {e : LinkEvent} {rest : List (Nat × LinkEvent)}
    (hnews : d.news = (k, e) :: rest) :
    Sound c { d with news := rest, mail := d.mail ++ [.inbound k e] } := by
  have hiff : ∀ j f, UnderWay { d with news := rest, mail := d.mail ++ [.inbound k e] } j f ↔
      d.UnderWay j f := by
    intro j f
    simp only [UnderWay, hnews, List.mem_append, List.mem_cons, List.not_mem_nil, or_false,
      Prod.mk.injEq, Session.Input.inbound.injEq]
    grind
  refine h.forward rfl rfl rfl rfl h.transport (fun _ _ he => he) ?_ ?_ ?_
  · exact fun j f he => (hiff j f).mpr he
  · exact fun j code reason he => (hiff j (.closed code reason)).mp he
  · intro j hj
    rcases List.mem_append.mp hj with hj | hj
    · exact h.mail j hj
    · obtain rfl : j = .inbound k e := by simpa using hj
      simp

theorem sound_reported (h : d.Sound c) {k : Nat} {e : LinkEvent} (he : d.pending k = some e) :
    (d.reported k e).Sound c := by
  have hiff : ∀ j f, (d.reported k e).UnderWay j f ↔ d.UnderWay j f := by
    intro j f
    by_cases hj : j = k
    · subst hj
      simp only [UnderWay, reported, he, if_true, List.mem_append, List.mem_singleton,
        Prod.mk.injEq, true_and, Option.some.injEq, reduceCtorEq, false_or]
      grind
    · simp [UnderWay, reported, hj]
  refine h.forward rfl rfl rfl rfl h.transport ?_ ?_ ?_ h.mail
  · intro j f hf
    by_cases hj : j = k <;> simp_all [reported]
  · exact fun j f hf => (hiff j f).mpr hf
  · exact fun j code reason hf => (hiff j (.closed code reason)).mp hf

theorem sound_stir (h : d.Sound c) {k : Nat} {x x' : Connection} {es : List LinkEvent}
    (hx : d.transport.connection? k = some x) (hstage : x.stage = .done → x'.stage = .done)
    (hes : ∀ code reason, .closed code reason ∉ es) : (d.stir k x' es).Sound c := by
  refine h.forward rfl rfl rfl (Transport.link_modify ..) ?_ (fun _ _ he => he) ?_ ?_ h.mail
  · refine Transport.sound_modify h.transport ?_
    intro y hy hs
    obtain rfl : x = y := by simpa [hx] using hy
    exact hstage hs
  · rintro j f (hf | hf | hf)
    · exact .inl hf
    · exact .inr (.inl (List.mem_append_left _ hf))
    · exact .inr (.inr hf)
  · rintro j code reason (hf | hf | hf)
    · exact .inl hf
    · rcases List.mem_append.mp hf with hf | hf
      · exact .inr (.inl hf)
      · obtain ⟨e, hmem, heq⟩ := List.mem_map.mp hf
        obtain ⟨-, rfl⟩ := Prod.mk.inj heq
        exact absurd hmem (hes code reason)
    · exact .inr (.inr hf)

/-! ## The end of a connection -/

/-- A connection whose reader is not done has not ended yet. -/
theorem Sound.notMem_ended (h : d.Sound c) {k : Nat} {x : Connection}
    (hx : d.transport.connection? k = some x) (hs : x.stage ≠ .done) (e : LinkEvent) :
    (k, e) ∉ d.ended := by
  intro he
  obtain ⟨y, hy, hdone⟩ := h.transport.done k ⟨e, he⟩
  obtain rfl : x = y := by simpa [hx] using hy
  exact hs hdone

theorem sound_finish (h : d.Sound c) {k : Nat} {x : Connection}
    (hx : d.transport.connection? k = some x) (hs : x.stage ≠ .done) (e : LinkEvent) :
    (d.finish k e).Sound c := by
  have hnot := h.notMem_ended hx hs
  have hmark : (d.transport.modify k (·.mark)).Sound fun j => ∃ f, (j, f) ∈ d.ended :=
    Transport.sound_modify h.transport (fun _ _ _ => rfl)
  have hmem : ∀ j f, (j, f) ∈ (d.finish k e).ended ↔ (j, f) ∈ d.ended ∨ j = k ∧ f = e := by
    simp [finish]
  have hpend : ∀ j f, (d.finish k e).pending j = some f ↔
      (j = k ∧ e = f) ∨ (j ≠ k ∧ d.pending j = some f) := by
    intro j f
    by_cases hj : j = k <;> simp [finish, hj]
  refine { h with link := ?_, transport := ?_, once := ?_, pending := ?_, arrives := ?_, genuine := ?_ }
  · exact (Transport.link_modify ..).trans h.link
  · refine ⟨hmark.known, ?_⟩
    rintro j ⟨f, hf⟩
    rcases (hmem j f).mp hf with hf | ⟨rfl, -⟩
    · exact hmark.done j ⟨f, hf⟩
    · exact ⟨x.mark, by simp [finish, Transport.connection?_modify, hx], rfl⟩
  · intro j f f' hf hf'
    rcases (hmem j f).mp hf with hold | ⟨rfl, rfl⟩
    · rcases (hmem j f').mp hf' with hold' | ⟨rfl, rfl⟩
      · exact h.once j f f' hold hold'
      · exact absurd hold (hnot f)
    · rcases (hmem j f').mp hf' with hold' | ⟨-, rfl⟩
      · exact absurd hold' (hnot f')
      · rfl
  · intro j f hf
    rcases (hpend j f).mp hf with ⟨rfl, rfl⟩ | ⟨-, hf⟩
    · exact (hmem j e).mpr (.inr ⟨rfl, rfl⟩)
    · exact (hmem j f).mpr (.inl (h.pending j f hf))
  · intro j f hf
    rcases (hmem j f).mp hf with hold | ⟨rfl, rfl⟩
    · have hj : j ≠ k := by
        rintro rfl
        exact hnot f hold
      rcases h.arrives j f hold with (hp | hn | hm) | hh
      · exact .inl (.inl ((hpend j f).mpr (.inr ⟨hj, hp⟩)))
      · exact .inl (.inr (.inl hn))
      · exact .inl (.inr (.inr hm))
      · exact .inr hh
    · exact .inl (.inl ((hpend j f).mpr (.inl ⟨rfl, rfl⟩)))
  · rintro j code reason ((hp | hn | hm) | hh)
    · rcases (hpend j _).mp hp with ⟨rfl, rfl⟩ | ⟨-, hp⟩
      · exact (hmem j _).mpr (.inr ⟨rfl, rfl⟩)
      · exact (hmem j _).mpr (.inl (h.pending j _ hp))
    · exact (hmem j _).mpr (.inl (h.genuine j code reason (.inl (.inr (.inl hn)))))
    · exact (hmem j _).mpr (.inl (h.genuine j code reason (.inl (.inr (.inr hm)))))
    · exact (hmem j _).mpr (.inl (h.genuine j code reason (.inr hh)))

/-! ## What the session handles -/

theorem Left.append {k : Nat} (h : d.Left c k) {d' : Desk} {r : Record}
    (hlog : d'.log = d.log ++ [r]) : d'.Left c k := by
  obtain ⟨r', hr', hl⟩ := h
  exact ⟨r', by simp [hlog, hr'], hl⟩

/-- A connection that has ended was heard until the session left it. -/
theorem Sound.heard_ended (h : d.Sound c) {k : Nat} {e : LinkEvent} (he : (k, e) ∈ d.ended) :
    d.session.connection = some k ∨ d.Left c k := by
  obtain ⟨x, hx, -⟩ := h.transport.done k ⟨e, he⟩
  have hk := h.transport.known k x hx
  rw [h.link] at hk
  exact h.heard k hk.1 hk.2

theorem sound_handled (h : d.Sound c) (now : Instant) (draw : Float) {i : Session.Input}
    {rest : List Session.Input} (hmail : d.mail = i :: rest) :
    (d.handled c now draw i rest).Sound c := by
  let m : Session.Moment := ⟨now, d.transport.isLive, d.transport.sending, draw⟩
  have hi : i ≠ .stop := h.mail i (by simp [hmail])
  have hstep := Session.happens_step c d.session m i
  have hlog : (d.handled c now draw i rest).log = d.log ++ [⟨d.session, m, i⟩] := rfl
  have hfollow := Session.follow_happens hstep
  rw [← h.link] at hfollow
  have hhandled : (d.handled c now draw i rest).Handled = fun k e =>
      d.Handled k e ∨ i = .inbound k e := by
    funext k e
    simp [Handled, hlog, or_and_right, exists_or]
  refine ⟨Session.coupled_happens hi hstep h.coupled, ?_, Transport.sound_obeyAll h.transport _,
    h.once, h.pending, ?_, ?_, ?_, ?_, ?_, ?_⟩
  · exact Transport.link_serves (Transport.serves_obeyAll ..) hfollow
  · intro k e he
    rw [hhandled]
    rcases h.arrives k e he with (hp | hn | hm) | hh
    · exact .inl (.inl hp)
    · exact .inl (.inr (.inl hn))
    · rw [hmail] at hm
      rcases List.mem_cons.mp hm with hm | hm
      · exact .inr (.inr hm.symm)
      · exact .inl (.inr (.inr hm))
    · exact .inr (.inl hh)
  · intro k code reason he
    rw [hhandled] at he
    rcases he with (hp | hn | hm) | hh | rfl
    · exact h.genuine k code reason (.inl (.inl hp))
    · exact h.genuine k code reason (.inl (.inr (.inl hn)))
    · exact h.genuine k code reason (.inl (.inr (.inr (by rw [hmail]; exact .tail _ hm))))
    · exact h.genuine k code reason (.inr hh)
    · exact h.genuine k code reason (.inl (.inr (.inr (by simp [hmail]))))
  · intro k hk hle
    have hstay : ∀ hk' : d.session.connection = some k,
        (d.handled c now draw i rest).session.connection = some k ∨
          (d.handled c now draw i rest).Left c k := by
      intro hk'
      by_cases hnext : (d.handled c now draw i rest).session.connection = some k
      · exact .inl hnext
      · exact .inr ⟨⟨d.session, m, i⟩, by simp [hlog], hk', hnext⟩
    have hold : k ≤ d.session.link.begun →
        (d.handled c now draw i rest).session.connection = some k ∨
          (d.handled c now draw i rest).Left c k := by
      intro hle
      exact (h.heard k hk hle).elim hstay fun hl => .inr (hl.append hlog)
    cases Session.moves_happens h.coupled.resumable hstep with
    | leave hl =>
      rcases hl.connection with ⟨-, hb⟩ | ⟨hc, hb⟩
      · exact hold (hb ▸ hle)
      · by_cases hnew : k = d.session.link.begun + 1
        · exact .inl (hnew ▸ hc)
        · have hle' : k ≤ d.session.link.begun + 1 := hb ▸ hle
          exact hold (by omega)
    | stay _ hb _ _ _ => exact hold (hb ▸ hle)
  · intro r hr k code reason hinput
    rw [hlog] at hr
    rcases List.mem_append.mp hr with hr | hr
    · exact (h.handled r hr k code reason hinput).imp_right (·.append hlog)
    · obtain rfl : r = ⟨d.session, m, i⟩ := by simpa using hr
      have hmem : Session.Input.inbound k (.closed code reason) ∈ d.mail := by
        simp [hmail, ← hinput]
      have he := h.genuine k code reason (.inl (.inr (.inr hmem)))
      exact (h.heard_ended he).imp_right (·.append hlog)
  · intro j hj
    exact h.mail j (by rw [hmail]; exact .tail _ hj)
  · intro r hr
    rw [hlog] at hr
    rcases List.mem_append.mp hr with hr | hr
    · exact h.log r hr
    · obtain rfl : r = ⟨d.session, m, i⟩ := by simpa using hr
      exact ⟨h.coupled, hi⟩

/-! ## Schedules -/

theorem at?_eq_some {k : Nat} {stage : Reading} {x : Connection} :
    d.at? k stage = some x ↔ d.transport.connection? k = some x ∧ x.stage = stage := by
  simp [at?, Option.filter_eq_some_iff]

/-- What a move comes to. -/
inductive Goes (c : Config) (d : Desk) : Desk → Prop where
  | post (i : Session.Input) (hi : i.isErrand = true) : Goes c d { d with mail := d.mail ++ [i] }
  | pass (k : Nat) (e : LinkEvent) (rest : List (Nat × LinkEvent)) (h : d.news = (k, e) :: rest) :
    Goes c d { d with news := rest, mail := d.mail ++ [.inbound k e] }
  | handle (now : Instant) (draw : Float) (i : Session.Input) (rest : List Session.Input)
      (h : d.mail = i :: rest) : Goes c d (d.handled c now draw i rest)
  /-- A connection goes on, but a reader that is done does not, and no close is reported. -/
  | stir (k : Nat) (x x' : Connection) (es : List LinkEvent)
      (hx : d.transport.connection? k = some x) (hstage : x.stage = .done → x'.stage = .done)
      (hes : ∀ code reason, .closed code reason ∉ es) : Goes c d (d.stir k x' es)
  | finish (k : Nat) (x : Connection) (e : LinkEvent) (hx : d.transport.connection? k = some x)
      (hs : x.stage ≠ .done) : Goes c d (d.finish k e)
  | report (k : Nat) (e : LinkEvent) (h : d.pending k = some e) : Goes c d (d.reported k e)

theorem goes_move {a : Move} {d' : Desk} (ha : d.move c a = some d') : Goes c d d' := by
  cases a with
  | post i =>
    obtain ⟨hi, rfl⟩ : i.isErrand = true ∧ { d with mail := d.mail ++ [i] } = d' := by
      simpa [move] using ha
    exact .post i hi
  | pass =>
    cases hnews : d.news with
    | nil => simp [move, hnews] at ha
    | cons ke rest =>
      obtain rfl : { d with news := rest, mail := d.mail ++ [.inbound ke.1 ke.2] } = d' := by
        simpa [move, hnews] using ha
      exact .pass ke.1 ke.2 rest hnews
  | handle now draw =>
    cases hmail : d.mail with
    | nil => simp [move, hmail] at ha
    | cons i rest =>
      obtain rfl : d.handled c now draw i rest = d' := by simpa [move, hmail] using ha
      exact .handle now draw i rest hmail
  | connect k =>
    obtain ⟨x, hx, rfl⟩ := Option.map_eq_some_iff.mp ha
    obtain ⟨hk, hs⟩ := at?_eq_some.mp hx
    refine .stir k x _ _ hk (by simp [hs]) ?_
    cases hclosing : x.closing <;> simp [Connection.connected, hclosing]
  | refuse k failure =>
    obtain ⟨x, hx, rfl⟩ := Option.map_eq_some_iff.mp ha
    obtain ⟨hk, hs⟩ := at?_eq_some.mp hx
    exact .finish k x _ hk (by simp [hs])
  | read k i =>
    obtain ⟨x, hx, rfl⟩ := Option.map_eq_some_iff.mp ha
    obtain ⟨hk, hs⟩ := at?_eq_some.mp hx
    cases hi : i.last? with
    | none =>
      obtain ⟨hstage, hclosed⟩ := Connection.read_of_none (x := x) hi
      exact .stir k x _ _ hk (by simp [hstage]) hclosed
    | some e => exact .finish k x e hk (by simp [hs])
  | report k =>
    obtain ⟨e, he, rfl⟩ := Option.map_eq_some_iff.mp ha
    exact .report k e he
  | withdraw k =>
    obtain ⟨x, hx, rfl⟩ := Option.map_eq_some_iff.mp ha
    obtain ⟨hk, hs⟩ := at?_eq_some.mp hx
    exact .stir k x _ _ hk (fun _ => hs) (by simp)
  | notice k =>
    obtain ⟨x, hx, rfl⟩ := Option.map_eq_some_iff.mp ha
    have hk := (Option.filter_eq_some_iff.mp hx).1
    exact .stir k x _ _ hk Connection.stage_notice (by simp)
  | write k broken =>
    obtain ⟨x, hk, hw⟩ := Option.bind_eq_some_iff.mp ha
    obtain ⟨⟨x', y⟩, hx', rfl⟩ := Option.map_eq_some_iff.mp hw
    exact .stir k x _ _ hk (fun hs => Connection.stage_write hs hx') (by simp)

/-- Every move preserves the invariant. -/
theorem sound_move (h : d.Sound c) {a : Move} {d' : Desk} (ha : d.move c a = some d') :
    d'.Sound c := by
  cases goes_move ha with
  | post i hi => exact sound_post h hi
  | pass k e rest hnews => exact sound_pass h hnews
  | handle now draw i rest hmail => exact sound_handled h now draw hmail
  | stir k x x' es hx hstage hes => exact sound_stir h hx hstage hes
  | finish k x e hx hs => exact sound_finish h hx hs e
  | report k e he => exact sound_reported h he

/-- What holds at the beginning holds after every schedule. -/
theorem sound_run {moves : List Move} {d' : Desk} (h : d.Sound c) (hr : d.run c moves = some d') :
    d'.Sound c := by
  induction moves generalizing d with
  | nil =>
    obtain rfl : d = d' := by simpa [run] using hr
    exact h
  | cons a rest ih =>
    obtain ⟨v, hv, hrest⟩ := Option.bind_eq_some_iff.mp hr
    exact ih (sound_move h hv) hrest

theorem run_append (moves more : List Move) :
    d.run c (moves ++ more) = (d.run c moves).bind (run c · more) := by
  induction moves generalizing d with
  | nil => rfl
  | cons a rest ih => simp [run, Option.bind_assoc, ih]

/-- The three moves at the end of a connection, one right after the other, are what the connection
does when it reads its end. -/
theorem run_end {k : Nat} {x : Connection} {i : Inbound} {e : LinkEvent}
    (hx : d.at? k .reading = some x) (hi : i.last? = some e) :
    ∃ d', d.run c [.read k i, .report k, .withdraw k] = some d' ∧
      d'.transport = d.transport.modify k (fun _ => (x.read i).1) ∧
      d'.news = d.news ++ (x.read i).2.map (k, ·) ∧ d'.session = d.session ∧ d'.mail = d.mail := by
  obtain ⟨hk, -⟩ := at?_eq_some.mp hx
  have hmarked : ((d.finish k e).reported k e).at? k .done = some x.mark := by
    refine at?_eq_some.mpr ⟨?_, rfl⟩
    simp [finish, reported, Transport.connection?_modify, hk]
  have hread : d.move c (.read k i) = some (d.finish k e) := by simp [move, hx, hi]
  have hreport : (d.finish k e).move c (.report k) = some ((d.finish k e).reported k e) := by
    simp [move, finish]
  have hwithdraw : ((d.finish k e).reported k e).move c (.withdraw k) =
      some (((d.finish k e).reported k e).stir k x.mark.withdraw []) := by
    rw [move, hmarked]
    rfl
  refine ⟨((d.finish k e).reported k e).stir k x.mark.withdraw [], ?_, ?_, ?_, rfl, rfl⟩
  · simp only [run, hread, hreport, hwithdraw, Option.bind_some]
  · rw [Connection.read_of_last hi]
    exact Transport.modify_modify ..
  · rw [Connection.read_of_last hi]
    simp [stir, reported, finish]

/-- A connection that cannot be made ends in two moves. -/
theorem run_refused {k : Nat} {x : Connection} (failure : Failure)
    (hx : d.at? k .connecting = some x) :
    ∃ d', d.run c [.refuse k failure, .report k] = some d' ∧
      d'.transport = d.transport.modify k (fun x => (x.refused failure).1) ∧
      d'.news = d.news ++ (x.refused failure).2.map (k, ·) ∧ d'.session = d.session ∧
      d'.mail = d.mail := by
  have hrefuse : d.move c (.refuse k failure) = some (d.finish k (.failed failure.message)) := by
    simp [move, hx]
  have hreport : (d.finish k (.failed failure.message)).move c (.report k) =
      some ((d.finish k (.failed failure.message)).reported k (.failed failure.message)) := by
    simp [move, finish]
  refine ⟨(d.finish k (.failed failure.message)).reported k (.failed failure.message),
    ?_, ?_, ?_, rfl, rfl⟩
  · simp only [run, hrefuse, hreport, Option.bind_some]
  · simp only [Connection.refused_eq, reported, finish]
  · simp [Connection.refused_eq, reported, finish]

end Desk

end Switchboard
