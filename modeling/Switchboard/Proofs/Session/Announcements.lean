import Mathlib.Data.List.Induction
import Switchboard.Proofs.Session.Courses
import Switchboard.Proofs.Session.Notices

/-!
# The notices of a session

What is told of a shard is read by others who see nothing else of it. So the notices have to agree
with what the session goes through, over any schedule of the tasks around it. What a step tells is
settled by the step alone (`Session.Tells`); that the notices about a connection begin with its
opening needs the connection as well, whose news arrive in the order in which they were reported and
begin with the opening.

## Main definitions

* `Record.next`, `Record.notices`: what a step came to.
* `Record.Chain`: records that follow each other.
* `Record.Candid`: what is told of stops for good and of planned reconnects.
* `Record.newsOf`: what was told of a connection.
* `Record.Faithful`: what is told of connections.
* `Desk.Truthful`: the invariant.

## Main results

* `Record.Chain.revived`: a session at rest hears a connection only after it was revived.
* `Record.Chain.candid`: every session is candid.
* `Desk.truthful_move`: every move preserves the invariant.
* `Desk.notices_of_run`: the notices tell the truth, for every schedule.
-/
namespace Switchboard

/-! ## Records that follow each other -/

namespace Record

/-- The session after the step. -/
def next (c : Config) (r : Record) : Session := (Session.step c r.session r.moment r.input).1

/-- What was told in the step. -/
def notices (c : Config) (r : Record) : List Happening :=
  Session.notices (Session.step c r.session r.moment r.input).2

/-- Each record begins with the session to which the one before it came. -/
def Chain (c : Config) (s : Session) : List Record → Session → Prop
  | [], t => s = t
  | r :: rest, t => r.session = s ∧ Chain c (r.next c) rest t

variable {c : Config} {s t u : Session} {log more : List Record} {r : Record}

theorem chain_append :
    Chain c s (log ++ more) t ↔ ∃ u, Chain c s log u ∧ Chain c u more t := by
  induction log generalizing s with
  | nil => simp [Chain]
  | cons r rest ih => simp [Chain, ih, and_assoc]

/-- Records that follow each other are those of a run. -/
theorem Chain.session_run (h : Chain c s log t) :
    (Session.run c s (log.map fun r => (r.moment, r.input))).1 = t := by
  induction log generalizing s with
  | nil => exact h
  | cons r rest ih =>
    obtain ⟨rfl, hrest⟩ := h
    exact ih hrest

/-- **What every record prolongs** holds of all records and the session that they come to. -/
theorem Chain.invariant {p : Record → Prop} {P : List Record → Session → Prop}
    (h : Chain c s log t) (hall : ∀ r ∈ log, p r) (hstart : P [] s)
    (hnext : ∀ log r, p r → P log r.session → P (log ++ [r]) (r.next c)) : P log t := by
  induction log using List.reverseRecOn generalizing t with
  | nil =>
    obtain rfl : s = t := h
    exact hstart
  | append_singleton log r ih =>
    obtain ⟨u, hbefore, hr, rfl⟩ := chain_append.mp h
    obtain rfl : r.session = u := hr
    exact hnext log r (hall r (by simp))
      (ih hbefore fun x hx => hall x (List.mem_append_left _ hx))

theorem tells (c : Config) (r : Record) :
    Session.Tells r.session r.input (Session.step c r.session r.moment r.input) :=
  Session.tells_happens (Session.happens_step c r.session r.moment r.input)

/-- **A session at rest hears a connection only after it was revived**: by a restart, or by a start,
before which it was shut down if it had stopped for good. -/
theorem Chain.revived (h : Chain c s log t) (hs : s.AtRest) (ht : t.connection.isSome = true) :
    (∃ r ∈ log, r.input = .restart) ∨
      (s.phase = .disconnected ∧ .start ∈ log.map (·.input)) ∨
      (s.phase = .fatal ∧ [Session.Input.shutdown, .start].Sublist (log.map (·.input))) := by
  induction log generalizing s with
  | nil =>
    obtain rfl : s = t := h
    simp [hs.connection] at ht
  | cons r rest ih =>
    obtain ⟨rfl, hrest⟩ := h
    have hstep := Session.happens_step c r.session r.moment r.input
    by_cases hwakes : r.input.wakes r.session.phase = true
    · cases hi : r.input with
      | restart => exact .inl ⟨r, by simp, hi⟩
      | start =>
        have hphase : r.session.phase = .disconnected := by
          simpa [hi, Session.Input.wakes] using hwakes
        exact .inr (.inl ⟨hphase, by simp [hi]⟩)
      | shutdown =>
        have hphase : r.session.phase = .fatal := by
          simpa [hi, Session.Input.wakes] using hwakes
        have hshut : r.next c = r.session.shut := by
          simp [next, hi, Session.step, Session.Turn.handle, Session.Turn.shutdown_eq]
        rw [hshut] at hrest
        rcases ih hrest (Session.atRest_shut _) with ⟨x, hx, hx'⟩ | ⟨-, hstart⟩ | ⟨hno, -⟩
        · exact .inl ⟨x, .tail _ hx, hx'⟩
        · refine .inr (.inr ⟨hphase, ?_⟩)
          rw [List.map_cons, hi]
          exact (List.singleton_sublist.mpr hstart).cons_cons _
        · simp [Session.shut] at hno
      | _ => simp [hi, Session.Input.wakes] at hwakes
    · have hrests := Session.atRest_happens hs (by simpa using hwakes) hstep
      have hphase : (r.next c).phase = r.session.phase := hrests.phase
      rcases ih hrest hrests.atRest with ⟨x, hx, hx'⟩ | ⟨hp, hstart⟩ | ⟨hp, hboth⟩
      · exact .inl ⟨x, .tail _ hx, hx'⟩
      · exact .inr (.inl ⟨hphase ▸ hp, .tail _ hstart⟩)
      · exact .inr (.inr ⟨hphase ▸ hp, hboth.cons _⟩)

theorem Chain.coupled (h : Chain c s log t) (hs : s.Coupled) (hstop : ∀ r ∈ log, r.input ≠ .stop) :
    ∀ r ∈ log, r.session.Coupled := by
  induction log generalizing s with
  | nil => simp
  | cons r rest ih =>
    obtain ⟨rfl, hrest⟩ := h
    have hnext : (r.next c).Coupled :=
      Session.coupled_happens (hstop r (by simp)) (Session.happens_step ..) hs
    exact List.forall_mem_cons.mpr
      ⟨hs, ih hrest hnext fun x hx => hstop x (List.mem_cons_of_mem _ hx)⟩

/-- What is told of stops for good and of planned reconnects is what the session goes through. -/
structure Candid (c : Config) (log : List Record) : Prop where
  /-- A stop for good is told in the step in which the session stops for good, and once. -/
  fatal : ∀ r ∈ log, (r.notices c).countP Happening.isFatal =
    if r.session.phase ≠ .fatal ∧ (r.next c).phase = .fatal then 1 else 0
  /-- What is told is the cause that the session names. -/
  cause : ∀ r ∈ log, ∀ reason authentication, .fatal reason authentication ∈ r.notices c →
    (r.next c).fatal = some ⟨reason, authentication⟩
  /-- Between two stops for good the session was restarted, or shut down and then started. -/
  revived : ∀ before r between r' after, log = before ++ r :: (between ++ r' :: after) →
    (r.notices c).any Happening.isFatal = true → (r'.notices c).any Happening.isFatal = true →
    (∃ x ∈ between, x.input = .restart) ∨
      [Session.Input.shutdown, .start].Sublist (between.map (·.input))
  /-- A reconnect is told in the step in which it is planned, and once. -/
  plan : ∀ r ∈ log, (r.notices c).countP Happening.isPlan =
    if r.session.phase ≠ .reconnectPending ∧ (r.next c).phase = .reconnectPending then 1 else 0

/-- A stop for good is told by a session that hears a connection, and stops for good. -/
theorem connection_of_fatal (h : (r.notices c).any Happening.isFatal = true) :
    r.session.connection.isSome = true ∧ (r.next c).phase = .fatal := by
  obtain ⟨x, hmem, hx⟩ := List.any_eq_true.mp h
  cases x with
  | fatal reason authentication =>
    obtain ⟨hconnection, hphase, -⟩ := (tells c r).fatal_of_mem hmem
    exact ⟨hconnection, hphase⟩
  | _ => simp [Happening.isFatal] at hx

/-- Whatever comes to a session, and in whatever order, it is candid. -/
theorem Chain.candid (h : Chain c s log t) (hs : s.Coupled) (hstop : ∀ r ∈ log, r.input ≠ .stop) :
    Candid c log where
  fatal := fun r hr => (tells c r).countP_fatal (h.coupled hs hstop r hr)
  cause := fun r _ _ _ hmem => ((tells c r).fatal_of_mem hmem).2.2
  revived := by
    rintro before r between r' after rfl hfatal hfatal'
    have hmem : r ∈ before ++ r :: (between ++ r' :: after) := by simp
    have hcoupled := h.coupled hs hstop r hmem
    obtain ⟨u, -, hu, hrest⟩ := chain_append.mp h
    obtain ⟨v, hbetween, hv, -⟩ := chain_append.mp hrest
    have hphase : (r.next c).phase = .fatal := (connection_of_fatal hfatal).2
    have hnext : (r.next c).Coupled :=
      Session.coupled_happens (hstop r hmem) (Session.happens_step ..) hcoupled
    have hheard : v.connection.isSome = true := hv ▸ (connection_of_fatal hfatal').1
    rcases hbetween.revived (hnext.atRest (.inr hphase)) hheard with hrestart | ⟨hp, -⟩ | ⟨-, hboth⟩
    · exact .inl hrestart
    · exact absurd (hphase.symm.trans hp) (by simp)
    · exact .inr hboth
  plan := fun r hr => (tells c r).countP_plan (h.coupled hs hstop r hr)

end Record

/-! ## What is told of a connection -/

namespace Record

/-- What was told of a connection, while the session heard it. -/
def newsOf (c : Config) (k : Nat) (log : List Record) : List Happening :=
  log.flatMap fun r =>
    if r.session.connection = some k then (r.notices c).filter Happening.isNews else []

/-- The connections whose opening was told. -/
def greeted (c : Config) (log : List Record) : List Nat :=
  log.filterMap fun r => if .connected ∈ r.notices c then r.session.connection else none

/-- The news of a connection begin with its opening, and do not repeat it. -/
def Greets (news : List Happening) : Prop := ∃ rest, news = .connected :: rest ∧ .connected ∉ rest

/-- What is told of connections is what they come to. -/
structure Faithful (c : Config) (log : List Record) : Prop where
  /-- News are told of the connection that the session hears. -/
  heard : ∀ r ∈ log, ∀ x ∈ r.notices c, x.isNews = true → r.session.connection.isSome = true
  /-- The opening of a connection is told before anything else of it, and once. -/
  news : ∀ k, newsOf c k log = [] ∨ Greets (newsOf c k log)
  /-- That the server accepted the session is told while the connection whose opening was told last
  is the one of the session. -/
  accepted : ∀ before r after, log = before ++ r :: after → ∀ x ∈ r.notices c,
    (x = .resumed ∨ ∃ id, x = .ready id) →
      ∃ k, (greeted c before).getLast? = some k ∧ r.session.connection = some k ∧
        (r.next c).connection = some k

variable {c : Config} {log : List Record} {r : Record} {k : Nat}

theorem newsOf_concat (c : Config) (k : Nat) (log : List Record) (r : Record) :
    newsOf c k (log ++ [r]) = newsOf c k log ++
      if r.session.connection = some k then (r.notices c).filter Happening.isNews else [] := by
  simp [newsOf]

theorem greeted_concat (c : Config) (log : List Record) (r : Record) :
    greeted c (log ++ [r]) = greeted c log ++
      if .connected ∈ r.notices c then r.session.connection.toList else [] := by
  by_cases h : .connected ∈ r.notices c <;>
    cases hk : r.session.connection <;> simp [greeted, List.filterMap_append, h, hk]

end Record

namespace Desk

open Record

/-- What holds of what was told, between two moves. -/
structure Truthful (c : Config) (d : Desk) : Prop where
  known : ∀ k, d.session.connection = some k → k ≤ d.session.link.begun
  /-- Nothing was told of connections that were not begun. -/
  later : ∀ k, d.session.link.begun < k → newsOf c k d.log = []
  /-- Before the opening of a connection nothing was told of it. -/
  unopened : ∀ k, d.session.connection = some k → d.session.phase = .connecting →
    .opened ∉ heardOf k d.log ∧ newsOf c k d.log = []
  /-- After the opening it was told, and of no other connection since. -/
  opened : ∀ k, d.session.connection = some k → d.session.phase.acceptsDispatch = true →
    .opened ∈ heardOf k d.log ∧ Greets (newsOf c k d.log) ∧ (greeted c d.log).getLast? = some k
  news : ∀ k, newsOf c k d.log = [] ∨ Greets (newsOf c k d.log)
  /-- What the server accepted was told of the connection whose opening was told last. -/
  accepted : ∀ before r after, d.log = before ++ r :: after → ∀ h ∈ r.notices c,
    (h = .resumed ∨ ∃ id, h = .ready id) →
      ∃ k, (greeted c before).getLast? = some k ∧ r.session.connection = some k ∧
        (r.next c).connection = some k

variable {c : Config} {d : Desk}

theorem truthful_begin (c : Config) (shard : Shard) (now : Instant) :
    (begin c shard now).Truthful c where
  known := by simp [begin, Session.new]
  later := fun _ _ => rfl
  unopened := by simp [begin, Session.new]
  opened := by simp [begin, Session.new]
  news := fun _ => .inl rfl
  accepted := by simp [begin]

/-- A session that hears a connection waits for the opening or is past it. -/
theorem phase_of_connection (hs : d.session.Coupled) {k : Nat}
    (hk : d.session.connection = some k) :
    d.session.phase = .connecting ∨ d.session.phase.acceptsDispatch = true := by
  have hphase := hs.isConnected hk
  cases hp : d.session.phase <;> simp_all [Phase.isConnected, Phase.acceptsDispatch]

/-- The event of a connection that is handled next: an opening if it is the first, and none later. -/
theorem Ordered.next (h : d.Ordered) {k : Nat} {e : LinkEvent} {rest : List Session.Input}
    (hmail : d.mail = .inbound k e :: rest) :
    (.opened ∈ heardOf k d.log → e ≠ .opened) ∧
      (.opened ∉ heardOf k d.log → e = .opened ∨ ∃ reason, e = .failed reason) := by
  have hcourse : ∃ after, d.course k = heardOf k d.log ++ e :: after := by
    refine ⟨rest.filterMap (newsFrom? k) ++
      d.news.filterMap (fun e => newsFrom? k (.inbound e.1 e.2)) ++ (d.pending k).toList, ?_⟩
    simp [course, comingOf, hmail]
  obtain ⟨after, hafter⟩ := hcourse
  have hk := h k
  rw [hafter] at hk
  exact hk.opened_iff

/-- What the session is about to handle, as a record. -/
def upcoming (d : Desk) (now : Instant) (draw : Float) (i : Session.Input) : Record :=
  ⟨d.session, ⟨now, d.transport.isLive, d.transport.sending, draw⟩, i⟩

theorem log_handled (now : Instant) (draw : Float) (i : Session.Input) (rest : List Session.Input) :
    (d.handled c now draw i rest).log = d.log ++ [d.upcoming now draw i] := rfl

theorem session_handled (now : Instant) (draw : Float) (i : Session.Input)
    (rest : List Session.Input) :
    (d.handled c now draw i rest).session = (d.upcoming now draw i).next c := rfl

theorem heardOf_concat (k : Nat) (log : List Record) (r : Record) :
    heardOf k (log ++ [r]) = heardOf k log ++ (newsFrom? k r.input).toList := by
  cases hr : newsFrom? k r.input <;> simp [heardOf, List.filterMap_append, hr]

/-- A connection that was not begun has reported nothing. -/
theorem Ordered.later (h : d.Ordered) (hsound : d.Sound c) {k : Nat}
    (hk : d.session.link.begun < k) : d.course k = [] := by
  have hnone : d.transport.stage? k = none := by
    cases hx : d.transport.connection? k with
    | none => simp [Transport.stage?, hx]
    | some x =>
      have hle := (hsound.transport.known k x hx).2
      rw [hsound.link] at hle
      omega
  have hcourse := h k
  rwa [hnone] at hcourse

/-- The server accepts on the connection whose opening was told last. -/
theorem Truthful.accepted_upcoming (h : d.Truthful c) {now : Instant} {draw : Float}
    {i : Session.Input} {x : Happening} (hx : x = .resumed ∨ ∃ id, x = .ready id)
    (hmem : x ∈ (d.upcoming now draw i).notices c) :
    ∃ k, (greeted c d.log).getLast? = some k ∧ d.session.connection = some k ∧
      ((d.upcoming now draw i).next c).connection = some k := by
  cases tells c (d.upcoming now draw i) with
  | nothing htold => simp [notices, htold] at hmem
  | opened k hk hi htold => rcases hx with rfl | ⟨id, rfl⟩ <;> simp [notices, htold] at hmem
  | accepted k hk text hi haccepts y hy htold hphase hstay =>
    exact ⟨k, (h.opened k hk haccepts).2.2, hk, hstay⟩
  | quits k hk before hbefore hquits =>
    obtain ⟨y, htold, hy⟩ := hquits.exists_told
    have hbefore : x ∉ before := by
      rcases hbefore with rfl | ⟨code, reason, -, rfl⟩ <;> rcases hx with rfl | ⟨id, rfl⟩ <;> simp
    have hxy : x = y := by simpa [notices, htold, hbefore] using hmem
    subst hxy
    rcases hx with rfl | ⟨id, rfl⟩ <;> simp [Happening.isNews] at hy

section Handled

-- The session handles the first of its mail, `i`, and that is the record `r`.
variable (h : d.Truthful c) (hsound : d.Sound c) (hordered : d.Ordered) {now : Instant}
  {draw : Float} {i : Session.Input} {rest : List Session.Input} (hmail : d.mail = i :: rest)
  {r : Record} (hr : d.upcoming now draw i = r)
include h hsound hordered hmail hr

theorem news_handled {k : Nat} (hk : d.session.connection = some k) :
    newsOf c k (d.log ++ [r]) = [] ∨ Greets (newsOf c k (d.log ++ [r])) := by
  subst hr
  have hconnection : (d.upcoming now draw i).session.connection = some k := hk
  rw [newsOf_concat, if_pos hconnection]
  have hphase := phase_of_connection hsound.coupled hk
  cases tells c (d.upcoming now draw i) with
  | nothing htold =>
    have hnotices : (d.upcoming now draw i).notices c = [] := htold
    rw [hnotices, List.filter_nil, List.append_nil]
    exact h.news k
  | opened k' hk' hi htold =>
    obtain rfl : k' = k := Option.some.inj (hk'.symm.trans hk)
    obtain rfl : i = .inbound k' .opened := hi
    have hnotices : (d.upcoming now draw (.inbound k' .opened)).notices c = [.connected] := htold
    have hnot := fun hheard => (hordered.next hmail).1 hheard rfl
    have hnews : newsOf c k' d.log = [] := by
      rcases hphase with hp | hp
      · exact (h.unopened k' hk hp).2
      · exact absurd (h.opened k' hk hp).1 hnot
    rw [hnotices, hnews]
    exact .inr ⟨[], rfl, by simp⟩
  | accepted k' _ _ _ haccepts x hx htold =>
    have hnotices : (d.upcoming now draw i).notices c = [x] := htold
    obtain ⟨-, ⟨news, hnews, hnot⟩, -⟩ := h.opened k hk haccepts
    rw [hnotices, hnews]
    rcases hx with rfl | ⟨id, rfl⟩ <;>
      exact .inr ⟨_, rfl, by simp [hnot, Happening.isNews]⟩
  | quits k' hk' before hbefore hquits =>
    obtain rfl : k' = k := Option.some.inj (hk'.symm.trans hk)
    have hfilter : ((d.upcoming now draw i).notices c).filter Happening.isNews =
        before.filter Happening.isNews := by
      obtain ⟨x, htold, hx⟩ := hquits.exists_told
      rw [Record.notices, htold]
      simp [hx]
    rw [hfilter]
    rcases hbefore with rfl | ⟨code, reason, hi, rfl⟩
    · rw [List.filter_nil, List.append_nil]
      exact h.news k'
    · obtain rfl : i = .inbound k' (.closed code reason) := hi
      have hheard : .opened ∈ heardOf k' d.log := by
        refine Classical.byContradiction fun hnot => ?_
        simpa using (hordered.next hmail).2 hnot
      rcases hphase with hp | hp
      · exact absurd hheard (h.unopened k' hk hp).1
      · obtain ⟨-, ⟨news, hnews, hnot⟩, -⟩ := h.opened k' hk hp
        rw [hnews]
        exact .inr ⟨_, rfl, by simp [hnot, Happening.isNews]⟩

theorem unopened_handled {k : Nat} (hk : (r.next c).connection = some k)
    (hp : (r.next c).phase = .connecting) :
    .opened ∉ heardOf k (d.log ++ [r]) ∧ newsOf c k (d.log ++ [r]) = [] := by
  subst hr
  have hsilent : (d.upcoming now draw i).notices c = [] :=
    (tells c (d.upcoming now draw i)).eq_nil_of_connecting hp
  have hnews : newsOf c k (d.log ++ [d.upcoming now draw i]) = newsOf c k d.log := by
    rw [newsOf_concat, hsilent]
    simp
  rw [hnews]
  have hstep := Session.happens_step c d.session (d.upcoming now draw i).moment i
  cases Session.moves_happens hsound.coupled.resumable hstep with
  | leave hleaves =>
    rcases hleaves.connection with ⟨hnone, -⟩ | ⟨hnew, -⟩
    · exact absurd (hnone.symm.trans hk) (by simp)
    · -- The connection has just begun: it has reported nothing, and nothing was told of it.
      obtain rfl : d.session.link.begun + 1 = k := Option.some.inj (hnew.symm.trans hk)
      refine ⟨?_, h.later _ (Nat.lt_succ_self _)⟩
      have hnone := hordered.later hsound (Nat.lt_succ_self d.session.link.begun)
      rw [← course_handled (c := c) now draw hmail] at hnone
      have hheard := (List.append_eq_nil_iff.mp hnone).1
      rw [log_handled] at hheard
      simp [hheard]
  | stay hc _ hopen =>
    have hk' : d.session.connection = some k := hc.symm.trans hk
    obtain ⟨hp', hnot⟩ := hopen hp
    obtain ⟨hheard, hnone⟩ := h.unopened k hk' hp'
    refine ⟨?_, hnone⟩
    rw [heardOf_concat]
    have hi : ∀ e, newsFrom? k i = some e → e ≠ .opened := by
      rintro e he rfl
      cases i with
      | inbound j e' =>
        obtain ⟨rfl, rfl⟩ : j = k ∧ e' = .opened := by simpa using he
        exact hnot j hk' rfl
      | _ => simp [newsFrom?] at he
    have hno : .opened ∉ (newsFrom? k i).toList := fun hmem => hi _ (by simpa using hmem) rfl
    simpa [upcoming, hheard] using hno

theorem opened_handled {k : Nat} (hk : (r.next c).connection = some k)
    (hp : (r.next c).phase.acceptsDispatch = true) :
    .opened ∈ heardOf k (d.log ++ [r]) ∧ Greets (newsOf c k (d.log ++ [r])) ∧
      (greeted c (d.log ++ [r])).getLast? = some k := by
  have htells := tells c r
  have hgreets : d.session.connection = some k →
      newsOf c k (d.log ++ [r]) = [] ∨ Greets (newsOf c k (d.log ++ [r])) :=
    news_handled h hsound hordered hmail hr
  subst hr
  cases htells with
  | nothing htold _ _ hstay =>
    have hsilent : (d.upcoming now draw i).notices c = [] := htold
    obtain ⟨hc, haccepts⟩ := hstay hp
    have hk' : d.session.connection = some k := hc.symm.trans hk
    have haccepts : d.session.phase.acceptsDispatch = true := by
      rcases haccepts with haccepts | ⟨j, text, hj, hi⟩
      · exact haccepts
      · obtain rfl : j = k := Option.some.inj (hj.symm.trans hk')
        obtain rfl : i = .inbound j (.received text) := hi
        refine (phase_of_connection hsound.coupled hk').resolve_left fun hconnecting => ?_
        simpa using (hordered.next hmail).2 (h.unopened j hk' hconnecting).1
    obtain ⟨hheard, hnews, hlast⟩ := h.opened k hk' haccepts
    refine ⟨?_, ?_, ?_⟩
    · rw [heardOf_concat]
      exact List.mem_append_left _ hheard
    · rw [newsOf_concat, hsilent]
      simpa using hnews
    · rw [greeted_concat, hsilent]
      simpa using hlast
  | opened k' hk' hi htold _ hstay =>
    obtain rfl : k' = k := Option.some.inj (hstay.symm.trans hk)
    have hnotices : (d.upcoming now draw i).notices c = [.connected] := htold
    have hconnection : (d.upcoming now draw i).session.connection = some k' := hk'
    refine ⟨?_, ?_, ?_⟩
    · obtain rfl : i = .inbound k' .opened := hi
      rw [heardOf_concat]
      exact List.mem_append_right _ (by simp [upcoming])
    · refine (hgreets hk').resolve_left fun hnil => ?_
      rw [newsOf_concat, if_pos hconnection, hnotices] at hnil
      simp [Happening.isNews] at hnil
    · rw [greeted_concat, hnotices, hconnection]
      simp
  | accepted k' hk' text hi haccepts x hx htold _ hstay =>
    obtain rfl : k' = k := Option.some.inj (hstay.symm.trans hk)
    have hnotices : (d.upcoming now draw i).notices c = [x] := htold
    obtain ⟨hheard, ⟨news, hnews, hnot⟩, hlast⟩ := h.opened k' hk' haccepts
    have hne : .connected ≠ x := by rcases hx with rfl | ⟨id, rfl⟩ <;> simp
    refine ⟨?_, ?_, ?_⟩
    · rw [heardOf_concat]
      exact List.mem_append_left _ hheard
    · refine (hgreets hk').resolve_left fun hnil => ?_
      rw [newsOf_concat, hnews] at hnil
      simp at hnil
    · rw [greeted_concat, hnotices]
      simpa [hne] using hlast
  | quits k' _ _ _ hquits =>
    cases hquits with
    | planned _ _ _ _ hnone => exact absurd (hnone.symm.trans hk) (by simp)
    | failed _ _ _ hnone => exact absurd (hnone.symm.trans hk) (by simp)

theorem truthful_handled : (d.handled c now draw i rest).Truthful c := by
  have hlog : (d.handled c now draw i rest).log = d.log ++ [r] := by rw [log_handled, hr]
  have hsession : (d.handled c now draw i rest).session = r.next c := by rw [session_handled, hr]
  have hmoves : Session.Moves d.session i (Session.step c d.session r.moment i) :=
    Session.moves_happens hsound.coupled.resumable (Session.happens_step ..)
  have hnext : r.next c = (Session.step c d.session r.moment i).1 := by subst hr; rfl
  have hbefore : r.session = d.session := by subst hr; rfl
  constructor
  · intro k hk
    rw [hsession, hnext] at hk ⊢
    cases hmoves with
    | leave hleaves =>
      rcases hleaves.connection with ⟨hnone, -⟩ | ⟨hnew, hbegun⟩
      · simp [hnone] at hk
      · have hkey : d.session.link.begun + 1 = k := Option.some.inj (hnew.symm.trans hk)
        omega
    | stay hc hl =>
      rw [hl]
      exact h.known k (hc.symm.trans hk)
  · intro k hk
    rw [hsession, hnext] at hk
    have hle : d.session.link.begun < k := by
      cases hmoves with
      | leave hleaves =>
        rcases hleaves.connection with ⟨-, hbegun⟩ | ⟨-, hbegun⟩ <;> omega
      | stay _ hl => omega
    have hnot : r.session.connection ≠ some k := by
      rw [hbefore]
      intro hk'
      have hknown := h.known k hk'
      omega
    rw [hlog, newsOf_concat, if_neg hnot, List.append_nil]
    exact h.later k hle
  · intro k hk hp
    rw [hsession] at hk hp
    rw [hlog]
    exact unopened_handled h hsound hordered hmail hr hk hp
  · intro k hk hp
    rw [hsession] at hk hp
    rw [hlog]
    exact opened_handled h hsound hordered hmail hr hk hp
  · intro k
    rw [hlog]
    by_cases hk : d.session.connection = some k
    · exact news_handled h hsound hordered hmail hr hk
    · rw [newsOf_concat, hbefore, if_neg hk, List.append_nil]
      exact h.news k
  · intro before r' after hsplit x hx hkind
    rw [hlog] at hsplit
    rcases List.eq_nil_or_concat after with rfl | ⟨after, last, rfl⟩
    · obtain ⟨rfl, hlast⟩ := List.append_inj' hsplit rfl
      obtain rfl : r = r' := by simpa using hlast
      subst hr
      exact h.accepted_upcoming hkind hx
    · have hsplit' : d.log ++ [r] = (before ++ r' :: after) ++ [last] := by simpa using hsplit
      obtain ⟨hold, -⟩ := List.append_inj' hsplit' rfl
      exact h.accepted before r' after hold x hx hkind

end Handled

/-- Every move preserves the invariant. -/
theorem truthful_move (h : d.Truthful c) (hsound : d.Sound c) (hordered : d.Ordered) {a : Move}
    {d' : Desk} (ha : d.move c a = some d') : d'.Truthful c := by
  cases goes_move ha with
  | handle now draw i rest hmail => exact truthful_handled h hsound hordered hmail rfl
  | _ => exact ⟨h.known, h.later, h.unopened, h.opened, h.news, h.accepted⟩

theorem truthful_run {moves : List Move} {d' : Desk} (h : d.Truthful c) (hsound : d.Sound c)
    (hordered : d.Ordered) (hr : d.run c moves = some d') : d'.Truthful c := by
  induction moves generalizing d with
  | nil =>
    obtain rfl : d = d' := by simpa [run] using hr
    exact h
  | cons a rest ih =>
    obtain ⟨v, hv, hrest⟩ := Option.bind_eq_some_iff.mp hr
    exact ih (truthful_move h hsound hordered hv) (sound_move hsound hv)
      (ordered_move hordered hsound hv) hrest

/-- The records of a session follow each other. -/
theorem chain_run {s : Session} {moves : List Move} {d' : Desk} (h : Chain c s d.log d.session)
    (hr : d.run c moves = some d') : Chain c s d'.log d'.session := by
  induction moves generalizing d with
  | nil =>
    obtain rfl : d = d' := by simpa [run] using hr
    exact h
  | cons a rest ih =>
    obtain ⟨v, hv, hrest⟩ := Option.bind_eq_some_iff.mp hr
    refine ih ?_ hrest
    cases goes_move hv with
    | handle now draw i rest hmail => exact chain_append.mpr ⟨d.session, h, rfl, rfl⟩
    | _ => exact h

/-- **The notices of a session tell the truth.** Whatever comes to a session, and in whatever order,
what it tells of stops for good and of planned reconnects is what it goes through. What comes from a
connection comes from its tasks and nobody else; for every schedule of these, among whatever else
comes, what the session tells of its connections is what they come to. -/
theorem notices_of_run (c : Config) (shard : Shard) (now : Instant) :
    (∀ log s, Chain c (.new c shard now) log s → (∀ r ∈ log, r.input ≠ .stop) → Candid c log) ∧
      ∀ moves d, (begin c shard now).run c moves = some d →
        Chain c (.new c shard now) d.log d.session ∧ (∀ r ∈ d.log, r.input ≠ .stop) ∧
          Faithful c d.log := by
  refine ⟨fun log s h hstop => h.candid (Session.coupled_new c shard now) hstop, ?_⟩
  intro moves d hr
  have hsound := sound_run (sound_begin c shard now) hr
  have htruthful := truthful_run (truthful_begin c shard now) (sound_begin c shard now)
    (ordered_begin c shard now) hr
  refine ⟨chain_run (d := begin c shard now) rfl hr, fun r hmem => (hsound.log r hmem).2, ?_⟩
  refine ⟨fun r _ x hx hnews => ?_, htruthful.news, htruthful.accepted⟩
  cases tells c r with
  | nothing htold => simp [notices, htold] at hx
  | opened k hk => simp [hk]
  | accepted k hk => simp [hk]
  | quits k hk => simp [hk]

/-- What the server says when it begins a session. -/
def welcome : String :=
  "\x7b\"op\":0,\"t\":\"READY\",\"s\":1," ++
    "\"d\":\x7b\"session_id\":\"a\",\"resume_gateway_url\":\"\"\x7d\x7d"

/-- Two connections: the server begins a session on the first, then closes it for good; the shard is
shut down and started, and the second is closed for good as well. -/
def twoStops : List Move :=
  [.post .start, .handle 0 0, .connect 1, .pass, .handle 0 0,
    .read 1 (.frame (.ofString welcome)), .pass, .handle 0 0,
    .read 1 (.frame (.closing 4014 "intents")), .report 1, .pass, .handle 0 0,
    .post .shutdown, .handle 0 0, .post .start, .handle 0 0, .connect 2, .pass, .handle 0 0,
    .read 2 (.frame (.closing 4004 "token")), .report 2, .pass, .handle 0 0]

/-- Two stops for good are told, and the news of both connections. -/
theorem notices_of_run_twice :
    ∃ d, (begin {} ⟨0, 1⟩ 0).run {} twoStops = some d ∧ (∀ r ∈ d.log, r.input ≠ .stop) ∧
      newsOf {} 1 d.log = [.connected, .ready "a", .disconnected (some 4014) "intents"] ∧
      newsOf {} 2 d.log = [.connected, .disconnected (some 4004) "token"] ∧
      (d.log.flatMap (notices {})).countP Happening.isFatal = 2 ∧
      Candid {} d.log ∧ Faithful {} d.log := by
  obtain ⟨d, hd, hall⟩ := Option.map_eq_some_iff.mp (show ((begin {} ⟨0, 1⟩ 0).run {} twoStops).map
      (fun d => (newsOf {} 1 d.log, newsOf {} 2 d.log,
        (d.log.flatMap (notices {})).countP Happening.isFatal)) =
    some ([.connected, .ready "a", .disconnected (some 4014) "intents"],
      [.connected, .disconnected (some 4004) "token"], 2) by decide +kernel)
  obtain ⟨hfirst, hsecond, htwo⟩ : newsOf {} 1 d.log = _ ∧ newsOf {} 2 d.log = _ ∧
      (d.log.flatMap (notices {})).countP Happening.isFatal = 2 := by simpa using hall
  obtain ⟨hcandid, hfaithful⟩ := notices_of_run {} ⟨0, 1⟩ 0
  obtain ⟨hchain, hstop, hnews⟩ := hfaithful twoStops d hd
  exact ⟨d, hd, hstop, hfirst, hsecond, htwo, hcandid d.log d.session hchain hstop, hnews⟩

end Desk

end Switchboard
