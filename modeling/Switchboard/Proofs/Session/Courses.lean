import Switchboard.Proofs.Session.Desk
import Switchboard.Proofs.Wire.Journey

/-!
# The order of what connections report

What a connection reports is passed on to its session in the order in which it was reported, and the
opening comes first. So a session that hears a connection from its beginning hears nothing of it
before the opening, unless the connection cannot be made.

## Main definitions

* `Orderly`: what a connection may have reported, by where its reader stands.
* `Desk.course`: all that a connection has reported so far, wherever it is on its way.
* `Desk.Ordered`: the invariant.

## Main results

* `Transport.calm_obeyAll`: what a session asks of a transport leaves the readers where they stand.
* `Desk.ordered_move`: every move preserves the invariant.
* `Desk.Ordered.not_sublist_opened`: the session hears nothing of a connection before its opening.
-/
namespace Switchboard

/-! ## What a connection has reported -/

/-- The events begin with the opening, and do not repeat it. -/
def Opens (es : List LinkEvent) : Prop := ∃ rest, es = .opened :: rest ∧ .opened ∉ rest

theorem Opens.append {es : List LinkEvent} (h : Opens es) {more : List LinkEvent}
    (hmore : .opened ∉ more) : Opens (es ++ more) := by
  obtain ⟨rest, rfl, hrest⟩ := h
  exact ⟨rest ++ more, rfl, by simp [hrest, hmore]⟩

/-- What a connection may have reported whose reader stands at a stage; without a stage there is no
connection. -/
def Orderly (stage : Option Reading) (es : List LinkEvent) : Prop :=
  match stage with
  | none | some .connecting => es = []
  | some .reading => Opens es
  | some .parting | some .done => es = [] ∨ (∃ reason, es = [.failed reason]) ∨ Opens es

namespace Orderly

variable {stage : Option Reading} {es : List LinkEvent}

theorem weaken (h : Orderly stage es) : es = [] ∨ (∃ reason, es = [.failed reason]) ∨ Opens es := by
  match stage with
  | none | some .connecting => exact .inl h
  | some .reading => exact .inr (.inr h)
  | some .parting | some .done => exact h

theorem done (h : Orderly stage es) : Orderly (some .done) es := h.weaken

/-- Before the opening comes nothing, and after it no other one. -/
theorem opened_iff {before after : List LinkEvent} {e : LinkEvent}
    (h : Orderly stage (before ++ e :: after)) :
    (.opened ∈ before → e ≠ .opened) ∧
      (.opened ∉ before → e = .opened ∨ ∃ reason, e = .failed reason) := by
  rcases h.weaken with hnil | ⟨reason, hfailed⟩ | ⟨rest, hopens, hrest⟩
  · simp at hnil
  · obtain ⟨rfl, rfl, -⟩ : before = [] ∧ e = .failed reason ∧ after = [] := by
      cases before <;> simp_all
    simp
  · cases before with
    | nil =>
      obtain ⟨rfl, -⟩ : e = .opened ∧ after = rest := by simpa using hopens
      simp
    | cons x before =>
      obtain ⟨rfl, rfl⟩ : x = .opened ∧ before ++ e :: after = rest := by simpa using hopens
      exact ⟨fun _ he => hrest (by simp [he]), fun hno => absurd (by simp) hno⟩

/-- Nothing comes before the opening. -/
theorem not_sublist_opened (h : Orderly stage es) (e : LinkEvent) :
    ¬ [e, .opened].Sublist es := by
  intro hsub
  rcases h.weaken with rfl | ⟨reason, rfl⟩ | ⟨rest, rfl, hrest⟩
  · exact absurd hsub.length_le (by simp)
  · exact absurd hsub.length_le (by simp)
  · have hlater : [LinkEvent.opened].Sublist rest := hsub.tail
    exact hrest (List.singleton_sublist.mp hlater)

end Orderly

namespace Transport

/-- Where the reader of a connection stands, if there is the connection. -/
def stage? (t : Transport) (k : Nat) : Option Reading := (t.connection? k).map (·.stage)

/-- Readers stay where they stand, or are done, and connections may be begun. -/
def Calm (t u : Transport) : Prop :=
  ∀ k, u.stage? k = t.stage? k ∨ u.stage? k = some .done ∨
    t.stage? k = none ∧ u.stage? k = some .connecting

theorem Calm.refl (t : Transport) : Calm t t := fun _ => .inl rfl

theorem Calm.trans {t u v : Transport} (h : Calm t u) (h' : Calm u v) : Calm t v := by
  intro k
  rcases h' k with hv | hv | ⟨hu, hv⟩
  · rw [hv]
    exact h k
  · exact .inr (.inl hv)
  · rcases h k with hk | hk | ⟨-, hk⟩
    · exact .inr (.inr ⟨hk ▸ hu, hv⟩)
    · simp [hk] at hu
    · simp [hk] at hu

variable {D : Nat → Prop} {t : Transport}

theorem calm_close (t : Transport) (code : Nat) (reason : String) :
    Calm t (t.close code reason) := by
  intro k
  simp only [stage?, connection?_close]
  split
  · cases hx : t.connection? k with
    | none => exact .inl rfl
    | some x => cases hfinished : x.finished <;> simp [Connection.close, hfinished]
  · exact .inl rfl

theorem calm_dial (h : t.Sound D) (url : String) : Calm t (t.dial url).1 := by
  intro k
  cases hlive : t.isLive with
  | true =>
    have hsame : (t.dial url).1 = t := by
      cases hk : t.link.current with
      | none => simp [isLive, current?, hk] at hlive
      | some j => simp [dial, hk, hlive]
    rw [hsame]
    exact .inl rfl
  | false =>
    by_cases hk : k = t.link.begun + 1
    · have hnone : t.connection? k = none := by
        cases hx : t.connection? k with
        | none => rfl
        | some x =>
          have hle := (h.known k x hx).2
          omega
      refine .inr (.inr ⟨by simp [stage?, hnone], ?_⟩)
      simp [stage?, connection?_dial hlive, hk, Connection.new]
    · have hclose : (t.dial url).1.stage? k = (t.close 1000 "superseded").stage? k := by
        simp [stage?, connection?_dial hlive, hk]
      rw [hclose]
      exact calm_close t 1000 "superseded" k

theorem calm_obey (h : t.Sound D) (e : Session.Effect) : Calm t (t.obey e) := by
  cases e with
  | connect k url => exact calm_dial h url
  | close k code reason => exact calm_close t code reason
  | send k payload =>
    cases hc : t.link.current with
    | none => simpa [obey, send, hc] using Calm.refl t
    | some j =>
      intro i
      have hobey : (t.obey (.send k payload)).connection? i =
          (t.modify j (·.send (.ofString payload))).connection? i := by simp [obey, send, hc]
      rw [stage?, hobey, connection?_modify]
      split
      · next hij =>
        subst hij
        cases hx : t.connection? i with
        | none => exact .inl (by simp [stage?, hx])
        | some x =>
          refine .inl ?_
          simp only [stage?, hx, Option.map_some]
          unfold Connection.send
          split <;> rfl
      · exact .inl rfl
  | _ => exact Calm.refl t

theorem calm_obeyAll (h : t.Sound D) (es : List Session.Effect) : Calm t (t.obeyAll es) := by
  induction es generalizing t with
  | nil => exact Calm.refl t
  | cons e es ih => exact (calm_obey h e).trans (ih (sound_obey h e))

end Transport

theorem Orderly.calm {t u : Transport} (h : t.Calm u) {k : Nat} {es : List LinkEvent}
    (hes : Orderly (t.stage? k) es) : Orderly (u.stage? k) es := by
  rcases h k with hk | hk | ⟨hnone, hk⟩
  · rwa [hk]
  · rw [hk]
    exact hes.done
  · rw [hnone] at hes
    rwa [hk]

namespace Desk

/-- The event of a connection that an input brings. -/
def newsFrom? (k : Nat) : Session.Input → Option LinkEvent
  | .inbound j e => if j = k then some e else none
  | _ => none

/-- What the session has handled of a connection. -/
def heardOf (k : Nat) (log : List Record) : List LinkEvent := log.filterMap (newsFrom? k ·.input)

/-- What a connection has reported and the session has not handled. -/
def comingOf (d : Desk) (k : Nat) : List LinkEvent :=
  d.mail.filterMap (newsFrom? k) ++
    d.news.filterMap (fun e => newsFrom? k (.inbound e.1 e.2)) ++ (d.pending k).toList

/-- All that a connection has reported so far, or is about to, wherever it is on its way. -/
def course (d : Desk) (k : Nat) : List LinkEvent := heardOf k d.log ++ d.comingOf k

/-- What connections report is in order. -/
def Ordered (d : Desk) : Prop := ∀ k, Orderly (d.transport.stage? k) (d.course k)

variable {c : Config} {d : Desk}

@[simp] theorem newsFrom?_inbound (j k : Nat) (e : LinkEvent) :
    newsFrom? k (.inbound j e) = if j = k then some e else none := rfl

theorem ordered_begin (c : Config) (shard : Shard) (now : Instant) :
    (begin c shard now).Ordered := by
  intro k
  simp [begin, Transport.stage?, Transport.connection?, course, heardOf, comingOf, Orderly]

theorem stage?_stir (k j : Nat) {x x' : Connection} (es : List LinkEvent)
    (hx : d.transport.connection? k = some x) :
    (d.stir k x' es).transport.stage? j =
      if j = k then some x'.stage else d.transport.stage? j := by
  by_cases hj : j = k
  · simp [stir, Transport.stage?, Transport.connection?_modify, hj, hx]
  · simp [stir, Transport.stage?, Transport.connection?_modify, hj]

/-- What is passed on of a connection is news from it and from no other. -/
theorem filterMap_newsFrom? (k j : Nat) (es : List LinkEvent) :
    (es.map (k, ·)).filterMap (fun e => newsFrom? j (.inbound e.1 e.2)) =
      if j = k then es else [] := by
  have hread : (fun e => newsFrom? j (.inbound e.1 e.2)) ∘ (k, ·) =
      fun e => if k = j then some e else none := rfl
  rw [List.filterMap_map, hread]
  by_cases hj : j = k
  · subst hj
    simp only [if_true]
    exact List.filterMap_some
  · simp [hj, Ne.symm hj]

theorem course_stir (k j : Nat) (x' : Connection) {es : List LinkEvent}
    (hpending : es = [] ∨ d.pending k = none) :
    (d.stir k x' es).course j = if j = k then d.course j ++ es else d.course j := by
  simp only [stir, course, comingOf, List.filterMap_append, filterMap_newsFrom?]
  split
  case isTrue hj =>
    subst hj
    rcases hpending with rfl | hnone
    · simp
    · simp [hnone]
  case isFalse => simp

theorem ordered_stir (h : d.Ordered) {k : Nat} {x x' : Connection} {es : List LinkEvent}
    (hx : d.transport.connection? k = some x) (hpending : es = [] ∨ d.pending k = none)
    (hes : Orderly (some x.stage) (d.course k) → Orderly (some x'.stage) (d.course k ++ es)) :
    (d.stir k x' es).Ordered := by
  intro j
  rw [stage?_stir k j es hx, course_stir k j x' hpending]
  split
  · next hj =>
    subst hj
    have hj := h j
    rw [Transport.stage?, hx] at hj
    exact hes hj
  · exact h j

theorem stage?_finish {k : Nat} (j : Nat) {x : Connection} (e : LinkEvent)
    (hx : d.transport.connection? k = some x) :
    (d.finish k e).transport.stage? j = if j = k then some .done else d.transport.stage? j := by
  by_cases hj : j = k
  · simp [finish, Transport.stage?, Transport.connection?_modify, hj, hx, Connection.mark]
  · simp [finish, Transport.stage?, Transport.connection?_modify, hj]

theorem course_finish {k : Nat} (j : Nat) (e : LinkEvent) (hpending : d.pending k = none) :
    (d.finish k e).course j = if j = k then d.course j ++ [e] else d.course j := by
  by_cases hj : j = k
  · subst hj
    simp [finish, course, comingOf, hpending]
  · simp [finish, course, comingOf, hj]

theorem ordered_finish (h : d.Ordered) {k : Nat} {x : Connection} {e : LinkEvent}
    (hx : d.transport.connection? k = some x) (hpending : d.pending k = none)
    (hes : Orderly (some x.stage) (d.course k) → Orderly (some .done) (d.course k ++ [e])) :
    (d.finish k e).Ordered := by
  intro j
  rw [stage?_finish j e hx, course_finish j e hpending]
  split
  · next hj =>
    subst hj
    have hj := h j
    rw [Transport.stage?, hx] at hj
    exact hes hj
  · exact h j

/-- What is handed on stays in order. -/
theorem Ordered.of_course (h : d.Ordered) {d' : Desk} (ht : d.transport.Calm d'.transport)
    (hcourse : ∀ k, d'.course k = d.course k) : d'.Ordered := by
  intro k
  rw [hcourse]
  exact (h k).calm ht

theorem course_handled (now : Instant) (draw : Float) {i : Session.Input}
    {rest : List Session.Input} (hmail : d.mail = i :: rest) (k : Nat) :
    (d.handled c now draw i rest).course k = d.course k := by
  cases hi : newsFrom? k i <;>
    simp [course, heardOf, comingOf, handled, hmail, List.filterMap_append, hi]

theorem course_reported {k : Nat} {e : LinkEvent} (he : d.pending k = some e) (j : Nat) :
    (d.reported k e).course j = d.course j := by
  by_cases hj : j = k
  · subst hj
    simp [course, comingOf, reported, he]
  · simp [course, comingOf, reported, hj, Ne.symm hj]

/-- A connection with an end to report is done. -/
theorem Sound.pending_eq_none (h : d.Sound c) {k : Nat} {x : Connection}
    (hx : d.transport.connection? k = some x) (hs : x.stage ≠ .done) : d.pending k = none := by
  cases hp : d.pending k with
  | none => rfl
  | some e =>
    obtain ⟨y, hy, hdone⟩ := h.transport.done k ⟨e, h.pending k e hp⟩
    obtain rfl : x = y := Option.some.inj (hx.symm.trans hy)
    exact absurd hdone hs

theorem ordered_connect (h : d.Ordered) {k : Nat} {x : Connection}
    (hx : d.transport.connection? k = some x) (hs : x.stage = .connecting)
    (hpending : d.pending k = none) : (d.stir k x.connected.1 x.connected.2).Ordered := by
  refine ordered_stir h hx (.inr hpending) fun hcourse => ?_
  rw [hs] at hcourse
  obtain hcourse : d.course k = [] := hcourse
  rw [hcourse]
  cases hclosing : x.closing with
  | true =>
    rw [Connection.connected_of_closing hclosing]
    rcases Connection.stage_part { x with writer := some {} } with hp | hp <;> rw [hp] <;>
      exact .inl rfl
  | false =>
    rw [Connection.connected_of_open hclosing]
    exact ⟨[], rfl, by simp⟩

theorem ordered_read (h : d.Ordered) {k : Nat} {x : Connection} {i : Inbound}
    (hx : d.transport.connection? k = some x) (hs : x.stage = .reading)
    (hpending : d.pending k = none) (hi : i.last? = none) :
    (d.stir k (x.read i).1 (x.read i).2).Ordered := by
  cases i with
  | frame f =>
    obtain ⟨hstage, -, -, hevents⟩ := Connection.read_of_frame (x := x) hi
    refine ordered_stir h hx (.inr hpending) fun hcourse => ?_
    rw [hstage, hs] at *
    rw [hevents]
    exact Opens.append hcourse (LinkEvent.opened_notMem_ofPush _)
  | _ => simp [Inbound.last?] at hi

theorem ordered_notice (h : d.Ordered) {k : Nat} {x : Connection}
    (hx : d.transport.connection? k = some x) : (d.stir k x.notice []).Ordered := by
  refine ordered_stir h hx (.inl rfl) fun hcourse => ?_
  rw [List.append_nil]
  unfold Connection.notice
  split
  · exact hcourse.done
  · rcases Connection.stage_part x with hp | hp <;> rw [hp] <;> exact hcourse.weaken
  · exact hcourse

theorem ordered_write (h : d.Ordered) {k : Nat} {x x' : Connection} {broken : Option Failure}
    {y : Delivery} (hx : d.transport.connection? k = some x)
    (hw : x.write broken = some (x', y)) : (d.stir k x' []).Ordered := by
  refine ordered_stir h hx (.inl rfl) fun hcourse => ?_
  rw [List.append_nil]
  rcases Connection.stage_of_write hw with hs | hs <;> rw [hs]
  · exact hcourse
  · exact hcourse.done

/-- Every move preserves the order. -/
theorem ordered_move (h : d.Ordered) (hsound : d.Sound c) {a : Move} {d' : Desk}
    (ha : d.move c a = some d') : d'.Ordered := by
  cases a with
  | post i =>
    obtain ⟨hi, rfl⟩ : i.isErrand = true ∧ { d with mail := d.mail ++ [i] } = d' := by
      simpa [move] using ha
    refine h.of_course (.refl _) fun k => ?_
    have hno : newsFrom? k i = none := by cases i <;> simp_all [newsFrom?, Session.Input.isErrand]
    simp [course, comingOf, List.filterMap_append, hno]
  | pass =>
    cases hnews : d.news with
    | nil => simp [move, hnews] at ha
    | cons ke rest =>
      obtain rfl : { d with news := rest, mail := d.mail ++ [.inbound ke.1 ke.2] } = d' := by
        simpa [move, hnews] using ha
      refine h.of_course (.refl _) fun k => ?_
      by_cases hk : ke.1 = k <;>
        simp [course, comingOf, hnews, List.filterMap_append, hk]
  | handle now draw =>
    cases hmail : d.mail with
    | nil => simp [move, hmail] at ha
    | cons i rest =>
      obtain rfl : d.handled c now draw i rest = d' := by simpa [move, hmail] using ha
      exact h.of_course (Transport.calm_obeyAll hsound.transport _) (course_handled now draw hmail)
  | connect k =>
    obtain ⟨x, hx, rfl⟩ := Option.map_eq_some_iff.mp ha
    obtain ⟨hk, hs⟩ := at?_eq_some.mp hx
    exact ordered_connect h hk hs (hsound.pending_eq_none hk (by simp [hs]))
  | refuse k failure =>
    obtain ⟨x, hx, rfl⟩ := Option.map_eq_some_iff.mp ha
    obtain ⟨hk, hs⟩ := at?_eq_some.mp hx
    refine ordered_finish h hk (hsound.pending_eq_none hk (by simp [hs])) fun hcourse => ?_
    rw [hs] at hcourse
    obtain hcourse : d.course k = [] := hcourse
    rw [hcourse]
    exact .inr (.inl ⟨_, rfl⟩)
  | read k i =>
    obtain ⟨x, hx, rfl⟩ := Option.map_eq_some_iff.mp ha
    obtain ⟨hk, hs⟩ := at?_eq_some.mp hx
    have hpending := hsound.pending_eq_none hk (by simp [hs])
    cases hi : i.last? with
    | none => exact ordered_read h hk hs hpending hi
    | some e =>
      refine ordered_finish h hk hpending fun hcourse => ?_
      rw [hs] at hcourse
      exact .inr (.inr (Opens.append hcourse (by simpa using (Inbound.last?_ne_opened hi).symm)))
  | report k =>
    obtain ⟨e, he, rfl⟩ := Option.map_eq_some_iff.mp ha
    exact h.of_course (.refl _) (course_reported he)
  | withdraw k =>
    obtain ⟨x, hx, rfl⟩ := Option.map_eq_some_iff.mp ha
    obtain ⟨hk, hs⟩ := at?_eq_some.mp hx
    refine ordered_stir h hk (.inl rfl) fun hcourse => ?_
    rw [List.append_nil]
    exact hcourse
  | notice k =>
    obtain ⟨x, hx, rfl⟩ := Option.map_eq_some_iff.mp ha
    exact ordered_notice h (Option.filter_eq_some_iff.mp hx).1
  | write k broken =>
    obtain ⟨x, hk, hw⟩ := Option.bind_eq_some_iff.mp ha
    obtain ⟨⟨x', y⟩, hx', rfl⟩ := Option.map_eq_some_iff.mp hw
    exact ordered_write h hk hx'

theorem ordered_run {moves : List Move} {d' : Desk} (h : d.Ordered) (hsound : d.Sound c)
    (hr : d.run c moves = some d') : d'.Ordered := by
  induction moves generalizing d with
  | nil =>
    obtain rfl : d = d' := by simpa [run] using hr
    exact h
  | cons a rest ih =>
    obtain ⟨v, hv, hrest⟩ := Option.bind_eq_some_iff.mp hr
    exact ih (ordered_move h hsound hv) (sound_move hsound hv) hrest

/-- The session hears nothing of a connection before its opening. -/
theorem Ordered.not_sublist_opened (h : d.Ordered) (k : Nat) (e : LinkEvent) :
    ¬ [Session.Input.inbound k e, .inbound k .opened].Sublist (d.log.map (·.input)) := by
  intro hsub
  have hheard : [e, .opened].Sublist (heardOf k d.log) := by
    simpa [heardOf, List.filterMap_map, Function.comp_def] using hsub.filterMap (newsFrom? k)
  exact (h k).not_sublist_opened e (hheard.trans (List.sublist_append_left ..))

end Desk

end Switchboard
