import Switchboard.Proofs.Dispatch.SingleRoute

/-!
# A dispatcher and an honest server

A server answers each request that it accepts, and says in its answer how many requests are left in
the window and when that ends. It promises to accept so many requests before then, and one from then
on. Requests and answers are under way for any length of time. A dispatcher all of whose calls are
of one route never has a request arrive that the server did not promise to accept.

The client counts the time to the end of the window from when it reads the answer, which is not
before the answer was given. So its window ends no earlier than that of the server, and it never has
more units left than the server, as long as no request is under way.

## Main definitions

* `Promise`: what a server promised, and what is left of it.
* `Loop`, `Loop.move`: a dispatcher, a server, and what is under way between them.
* `Loop.Stands`: where the one request is that can be under way.

## Main results

* `Loop.sound_move`: every move preserves the invariant.
* `Loop.refused_of_run`: no request arrives that was not promised to be accepted.
-/
namespace Switchboard

/-! ## The server -/

/-- What a server promised with an answer, and what is left of it. -/
structure Promise where
  /-- Requests that it accepts before `ending`. -/
  left : Nat
  ending : Instant
  /-- It accepts one request from `ending` on. -/
  late : Bool
deriving DecidableEq, Repr

namespace Promise

/-- The first request is accepted whenever it comes. -/
def first : Promise := ⟨0, 0, true⟩

/-- What is left after a request that arrives now, if the server promised to accept it. -/
def accept? (p : Promise) (now : Instant) : Option Promise :=
  if now < p.ending then
    if 0 < p.left then some { p with left := p.left - 1 } else none
  else if p.late then some { p with late := false }
  else none

/-- A request is accepted whenever it arrives from now on. -/
def Covers (p : Promise) (now : Instant) : Prop := p.late = true ∧ (0 < p.left ∨ p.ending ≤ now)

theorem Covers.mono {p : Promise} {now later : Instant} (h : p.Covers now) (hle : now ≤ later) :
    p.Covers later := ⟨h.1, h.2.imp_right (Nat.le_trans · hle)⟩

theorem Covers.exists_accept {p : Promise} {now : Instant} (h : p.Covers now) :
    ∃ p', p.accept? now = some p' := by
  obtain ⟨hlate, hleft⟩ := h
  by_cases hlt : now < p.ending
  · have hpos : 0 < p.left := hleft.resolve_right (Nat.not_le_of_lt hlt)
    exact ⟨_, by rw [accept?, if_pos hlt, if_pos hpos]⟩
  · exact ⟨_, by rw [accept?, if_neg hlt, if_pos hlate]⟩

end Promise

/-- What an answer that is no refusal says about the window, whatever limit and bucket it names: the
requests that are left, and the time until it ends. -/
def Response.quota? (r : Response) : Option (Nat × Span) :=
  if r.isTooMany then none
  else do
    let limits := Limits.ofHeaders r.headers none
    return (← limits.remaining, ← limits.resetAfter)

/-- It says so to everybody, whatever their clocks show. -/
theorem Response.of_quota? {r : Response} {left : Nat} {span : Span}
    (h : r.quota? = some (left, span)) :
    r.isTooMany = false ∧ span ≤ longestWait ∧ ∀ clock,
      (Limits.ofHeaders r.headers clock).remaining = some left ∧
        (Limits.ofHeaders r.headers clock).resetAfter = some span := by
  simp only [quota?] at h
  split at h
  case isTrue => simp at h
  case isFalse htoo =>
    simp only [Limits.ofHeaders, Option.bind_eq_bind, Option.bind_eq_some_iff, Option.pure_def,
      Option.some.injEq, Prod.mk.injEq] at h
    obtain ⟨left', hleft, span', hspan, rfl, rfl⟩ := h
    have hafter : (Limits.float? r.headers "x-ratelimit-reset-after").bind Limits.wait? =
        some span' := by
      cases hgiven : (Limits.float? r.headers "x-ratelimit-reset-after").bind Limits.wait? with
      | some s => simpa [Limits.resetAfter?, hgiven] using hspan
      | none =>
        -- Without a clock, a point in time says nothing.
        simp only [Limits.resetAfter?, hgiven] at hspan
        obtain ⟨x, -, hx⟩ := Option.bind_eq_some_iff.mp hspan
        simp [Limits.until?] at hx
    obtain ⟨x, -, hx⟩ := Option.bind_eq_some_iff.mp hafter
    refine ⟨by simpa using htoo, Limits.wait?_le hx, fun clock => ⟨hleft, ?_⟩⟩
    simp [Limits.ofHeaders, Limits.resetAfter?, hafter]

/-! ## The loop -/

namespace Dispatcher

/-- What can happen at a dispatcher apart from answers, with calls of one route. -/
def Event.isRoutine (ρ : Route) : Event → Bool
  | .submit _ route _ _ => route = ρ
  | .proceed _ | .settle _ | .sweep | .pause _ => true
  | .receive _ _ _ _ | .crash _ => false

/-- The workers whose requests begin. -/
def senders (es : List DispatchEffect) : List WorkerId :=
  es.filterMap fun
    | .execute w _ => some w
    | _ => none

theorem senders_eq_nil {es : List DispatchEffect} (h : ∀ v q, .execute v q ∉ es) :
    senders es = [] := by
  rw [senders, List.filterMap_eq_nil_iff]
  intro e he
  cases e with
  | execute v q => exact absurd he (h v q)
  | _ => rfl

end Dispatcher

open Dispatcher

/-- A dispatcher, a server, and what is under way between them. A request goes by the worker that
waits for the answer. -/
structure Loop where
  now : Instant := 0
  dispatcher : Dispatcher
  promise : Promise := .first
  /-- Requests that have not arrived. -/
  outbound : List WorkerId := []
  /-- Requests that were accepted and have no answer. -/
  accepted : List WorkerId := []
  /-- Answers that were not read. -/
  answers : List (WorkerId × Response) := []
  /-- Requests that arrived outside of the promise. -/
  refused : List WorkerId := []

namespace Loop

/-- Nothing was submitted. -/
def begin (policy : RetryPolicy) (timeout idle : Span) : Loop :=
  { dispatcher := .new policy timeout idle }

/-- Something happens at the dispatcher; requests that begin are under way. -/
def happen (ℓ : Loop) (e : Dispatcher.Event) : Loop :=
  { ℓ with
    dispatcher := (ℓ.dispatcher.step ℓ.now e).1
    outbound := ℓ.outbound ++ senders (ℓ.dispatcher.step ℓ.now e).2 }

/-- What can happen next. -/
inductive Move where
  | wait (time : Span)
  /-- Anything at the dispatcher, except that an answer comes. -/
  | act (e : Dispatcher.Event)
  /-- A request arrives at the server. -/
  | arrive (w : WorkerId)
  /-- The server answers. -/
  | answer (w : WorkerId) (r : Response)
  /-- The worker reads the answer. -/
  | read (w : WorkerId) (r : Response) (clock : Option Span) (draw : Float)

/-- One move; one that is not possible changes nothing. -/
def move (ρ : Route) (ℓ : Loop) : Move → Loop
  | .wait time => { ℓ with now := ℓ.now + time }
  | .act e => if e.isRoutine ρ then ℓ.happen e else ℓ
  | .arrive w =>
    if w ∈ ℓ.outbound then
      match ℓ.promise.accept? ℓ.now with
      | some promise =>
        { ℓ with promise, outbound := ℓ.outbound.erase w, accepted := ℓ.accepted ++ [w] }
      | none => { ℓ with outbound := ℓ.outbound.erase w, refused := ℓ.refused ++ [w] }
    else ℓ
  | .answer w r =>
    match r.quota? with
    | some (left, span) =>
      if w ∈ ℓ.accepted then
        { ℓ with
          promise := ⟨left, ℓ.now + span, true⟩
          accepted := ℓ.accepted.erase w
          answers := ℓ.answers ++ [(w, r)] }
      else ℓ
    | none => ℓ
  | .read w r clock draw =>
    if (w, r) ∈ ℓ.answers then
      { ℓ with answers := ℓ.answers.erase (w, r) }.happen (.receive w clock draw (.response r))
    else ℓ

/-- A schedule of moves. -/
def run (ρ : Route) (ℓ : Loop) (moves : List Move) : Loop := moves.foldl (move ρ) ℓ

/-! ## The window of the server and that of the client -/

/-- What the registry knows of the promise while no request is under way: the window of the server
is over, or the bucket of the route has one that ends no earlier, with no more units left. -/
def Predicts (registry : Registry) (ρ : Route) (p : Promise) (now : Instant) : Prop :=
  p.late = true ∧ (p.ending ≤ now ∨ ∃ b left reset, registry.routes = [(ρ, b)] ∧
    registry.windowOf b = some (left, some reset) ∧ p.ending ≤ reset ∧ left ≤ p.left)

variable {d : Dispatcher} {now : Instant} {ρ : Route} {p : Promise} {e : Dispatcher.Event}
  {r : Dispatcher × List DispatchEffect}

theorem on_of_isRoutine (h : e.isRoutine ρ = true) : e.On ρ := by
  rintro id route request timeout rfl
  simpa [Dispatcher.Event.isRoutine] using h

/-- The prediction is right as long as no request begins. -/
theorem predicts_registers (h : Registers d now e r) (hs : d.Solo ρ) (he : e.isRoutine ρ = true)
    (hp : Predicts d.registry ρ p now) (hnone : senders r.2 = []) :
    Predicts r.1.registry ρ p now := by
  obtain ⟨hlate, hover | ⟨b, left, reset, hroutes, hwindow, hending, hleft⟩⟩ := hp
  · exact ⟨hlate, .inl hover⟩
  have hsame : r.1.registry.routes = d.registry.routes →
      r.1.registry.windowOf b = d.registry.windowOf b → Predicts r.1.registry ρ p now :=
    fun hr hw => ⟨hlate, .inr ⟨b, left, reset, hr.trans hroutes, hw.trans hwindow, hending, hleft⟩⟩
  cases h with
  | counts hlike _ _ => exact hsame hlike.routes (hlike.window b)
  | @resolves route hroute hlike _ _ =>
    obtain rfl : route = ρ := hs.route_eq (on_of_isRoutine he) hroute
    have hget : Table.get? route d.registry.routes = some b := by simp [hroutes, Table.get?]
    rw [Registry.resolve_of_get? hget] at hlike
    exact hsame hlike.routes (hlike.window b)
  | reserves _ _ _ _ _ _ hq => simp [hq, senders] at hnone
  | learns heq _ _ _ _ _ _ _ => simp [heq, Dispatcher.Event.isRoutine] at he
  | evicts _ hr _ _ =>
    cases hidle : d.registry.isIdle b now with
    | true =>
      -- What is idle has no open window.
      obtain ⟨x, hx, hxwindow⟩ := Option.map_eq_some_iff.mp hwindow
      obtain ⟨-, hreset⟩ := Prod.mk.inj hxwindow
      obtain ⟨⟨-, hpast⟩, -⟩ : (x.pending = 0 ∧ reset ≤ now) ∧
          d.registry.idleAfter ≤ now - x.lastUsed := by
        simpa [Registry.isIdle, hx, Bucket.isIdle, hreset] using hidle
      exact ⟨hlate, .inl (Nat.le_trans hending hpast)⟩
    | false =>
      refine hsame ?_ (by rw [hr]; rfl)
      rw [hr]
      simp [Registry.evict, hroutes, hidle]

/-- A request begins only when the promise covers it. -/
theorem covers_of_reserve {b : BucketId} {registry after : Registry}
    (hp : Predicts registry ρ p now) (hb : registry.routes = [(ρ, b)])
    (hr : registry.reserve b now = .ok after) : p.Covers now := by
  obtain ⟨hlate, hover | ⟨c, left, reset, hroutes, hwindow, hending, hleft⟩⟩ := hp
  · exact ⟨hlate, .inr hover⟩
  · obtain rfl : b = c := by simpa using hb.symm.trans hroutes
    obtain ⟨x, hx, hxwindow⟩ := Option.map_eq_some_iff.mp hwindow
    obtain ⟨rfl, hreset⟩ := Prod.mk.inj hxwindow
    by_cases hle : reset ≤ now
    · exact ⟨hlate, .inr (Nat.le_trans hending hle)⟩
    · rcases Registry.reserve_ok hr with ⟨hnone, -⟩ | ⟨y, z, hy, hz, -⟩
      · simp [hx] at hnone
      · obtain rfl : x = y := Option.some.inj (hx.symm.trans hy)
        have hopen : x.refilled now = x := by simp [Bucket.refilled, hreset, hle]
        have hexhausted := (Bucket.reserve_ok hz).1
        rw [hopen] at hexhausted
        have hpos : x.remaining ≠ 0 := by
          intro hzero
          simp [Bucket.exhaustedUntil?, hzero, hreset] at hexhausted
        exact ⟨hlate, .inl (Nat.lt_of_lt_of_le (Nat.pos_of_ne_zero hpos) hleft)⟩

theorem Predicts.mono {registry : Registry} {later : Instant} (h : Predicts registry ρ p now)
    (hle : now ≤ later) : Predicts registry ρ p later := ⟨h.1, h.2.imp_left (Nat.le_trans · hle)⟩

/-- What was read is at least as good as what was promised when the answer was given. -/
theorem predicts_of_like {b : BucketId} {limits : Limits} {left : Nat} {span : Span}
    {registry : Registry} (hs : d.Solo ρ) (hb : b < d.registry.buckets.length)
    (hroutes : d.registry.routes = [(ρ, b)]) (hremaining : limits.remaining = some left)
    (hreset : limits.resetAfter = some span) (hspan : span ≤ longestWait)
    (hlike : (d.registry.update ρ b limits now).1.Like registry) (hlate : p.late = true)
    (hleft : p.left = left) (hending : p.ending ≤ now + span) :
    Predicts registry ρ p now := by
  refine ⟨hlate, .inr ⟨b, left, deadlineAfter now span, ?_, ?_, ?_, Nat.le_of_eq hleft.symm⟩⟩
  · exact hlike.routes.trans (hs.routes_update hroutes limits now)
  · refine (hlike.window b).trans ?_
    have hx : d.registry.bucket? b = some d.registry.buckets[b] := List.getElem?_eq_getElem hb
    rw [Registry.windowOf, Registry.bucket?_update, hs.target_update hroutes,
      Registry.bucket?_modify, if_pos rfl, hx]
    simp [Bucket.apply, hremaining, hreset]
  · rwa [deadlineAfter, Nat.min_eq_left hspan]

/-- A request begins only with the turn of a worker that reserved a unit, and then it is sending. -/
theorem senders_registers (h : Registers d now e r) :
    senders r.2 = [] ∨ ∃ w b worker q registry, d.workers[w]? = some worker ∧
      worker.progress = some q ∧ q.stage = .reserving b ∧
      d.registry.reserve b now = .ok registry ∧ senders r.2 = [w] ∧
      r.1.stageAt w = some (.sending b) := by
  cases h with
  | counts _ _ hq => exact .inl (senders_eq_nil hq)
  | resolves _ _ _ hq => exact .inl (senders_eq_nil hq)
  | reserves hw hp hs hr _ hafter hq =>
    exact .inr ⟨_, _, _, _, _, hw, hp, hs, hr, by rw [hq]; rfl, hafter⟩
  | learns _ _ _ _ _ _ _ hq => exact .inl (senders_eq_nil hq)
  | evicts _ _ _ hq => exact .inl (senders_eq_nil hq)

/-- While a request is under way, none begins. -/
theorem senders_of_sending (h : Registers d now e r) (hs : d.Solo ρ) {w : WorkerId} {b : BucketId}
    (hw : d.stageAt w = some (.sending b)) : senders r.2 = [] := by
  refine (senders_registers h).resolve_right ?_
  rintro ⟨v, c, worker, q, -, hv, hq, hstage, -⟩
  obtain ⟨other, q', hw, hq', hstage'⟩ := exists_of_stageAt hw
  obtain rfl := hs.unique hv hw (Worker.tickets_ne_nil hq) (Worker.tickets_ne_nil hq')
  obtain ⟨rfl, rfl⟩ := progress_unique hv hq hw hq'
  simp [hstage] at hstage'

/-! ## Where the request is -/

/-- Where the one request is that can be under way, and what is known of it there. -/
inductive Stands (ρ : Route) (ℓ : Loop) : Prop where
  /-- There is none. -/
  | quiet (ho : ℓ.outbound = []) (ha : ℓ.accepted = []) (hn : ℓ.answers = [])
      (hp : Predicts ℓ.dispatcher.registry ρ ℓ.promise ℓ.now)
  | sent {w : WorkerId} {b : BucketId} (ho : ℓ.outbound = [w]) (ha : ℓ.accepted = [])
      (hn : ℓ.answers = []) (hs : ℓ.dispatcher.stageAt w = some (.sending b))
      (hp : ℓ.promise.Covers ℓ.now)
  | arrived {w : WorkerId} {b : BucketId} (ho : ℓ.outbound = []) (ha : ℓ.accepted = [w])
      (hn : ℓ.answers = []) (hs : ℓ.dispatcher.stageAt w = some (.sending b))
  | answered {w : WorkerId} {b : BucketId} {r : Response} {left : Nat} {span : Span}
      (ho : ℓ.outbound = []) (ha : ℓ.accepted = []) (hn : ℓ.answers = [(w, r)])
      (hs : ℓ.dispatcher.stageAt w = some (.sending b)) (hr : r.quota? = some (left, span))
      (hlate : ℓ.promise.late = true) (hleft : ℓ.promise.left = left)
      (hending : ℓ.promise.ending ≤ ℓ.now + span)

/-- What holds between two moves. -/
structure Sound (ρ : Route) (ℓ : Loop) : Prop where
  solo : ℓ.dispatcher.Solo ρ
  stands : ℓ.Stands ρ
  refused : ℓ.refused = []

theorem sound_begin (policy : RetryPolicy) (timeout idle : Span) (ρ : Route) :
    (begin policy timeout idle).Sound ρ where
  solo := solo_new policy timeout idle ρ
  stands := .quiet rfl rfl rfl ⟨rfl, .inl (Nat.le_refl _)⟩
  refused := rfl

variable {ℓ : Loop}

/-- What happens at the dispatcher apart from answers may begin a request, if there is none. -/
theorem sound_happen (h : ℓ.Sound ρ) (he : e.isRoutine ρ = true) : (ℓ.happen e).Sound ρ := by
  have hstep := happens_step ℓ.dispatcher ℓ.now e
  have hregisters := registers_happens hstep
  refine ⟨solo_happens hstep (on_of_isRoutine he) h.solo, ?_, h.refused⟩
  have houtbound : (ℓ.happen e).outbound =
    ℓ.outbound ++ senders (ℓ.dispatcher.step ℓ.now e).2 := rfl
  -- A request that is under way stays so, and none begins.
  have hsending : ∀ {w b}, ℓ.dispatcher.stageAt w = some (.sending b) →
      (ℓ.happen e).outbound = ℓ.outbound ∧
        (ℓ.happen e).dispatcher.stageAt w = some (.sending b) := by
    intro w b hw
    refine ⟨?_, sending_happens hstep hw ?_⟩
    · rw [houtbound, senders_of_sending hregisters h.solo hw, List.append_nil]
    · cases e <;> simp_all [Dispatcher.Event.isRoutine, Dispatcher.Event.ends]
  cases h.stands with
  | quiet ho ha hn hp =>
    rcases senders_registers hregisters with
      hnone | ⟨w, b, worker, q, registry, hw, hq, hs, hr, hone, hafter⟩
    · refine .quiet ?_ ha hn (predicts_registers hregisters h.solo he hp hnone)
      rw [houtbound, ho, hnone, List.append_nil]
    · have hroutes := h.solo.used.stage hw hq (by rw [hs]; rfl)
      refine .sent ?_ ha hn hafter (covers_of_reserve hp hroutes hr)
      rw [houtbound, ho, hone, List.nil_append]
  | sent ho ha hn hs hp => exact .sent ((hsending hs).1.trans ho) ha hn (hsending hs).2 hp
  | arrived ho ha hn hs => exact .arrived ((hsending hs).1.trans ho) ha hn (hsending hs).2
  | answered ho ha hn hs hr hlate hleft hending =>
    exact .answered ((hsending hs).1.trans ho) ha hn (hsending hs).2 hr hlate hleft hending

theorem sound_wait (h : ℓ.Sound ρ) (time : Span) : ({ ℓ with now := ℓ.now + time }).Sound ρ := by
  have hle : ℓ.now ≤ ℓ.now + time := Nat.le_add_right _ _
  refine ⟨h.solo, ?_, h.refused⟩
  cases h.stands with
  | quiet ho ha hn hp => exact .quiet ho ha hn (hp.mono hle)
  | sent ho ha hn hs hp => exact .sent ho ha hn hs (hp.mono hle)
  | arrived ho ha hn hs => exact .arrived ho ha hn hs
  | answered ho ha hn hs hr hlate hleft hending =>
    exact .answered ho ha hn hs hr hlate hleft
      (Nat.le_trans hending (Nat.add_le_add_right hle _))

/-- **Every move** preserves the invariant. -/
theorem sound_move (h : ℓ.Sound ρ) (m : Move) : (ℓ.move ρ m).Sound ρ := by
  cases m with
  | wait time => exact sound_wait h time
  | act e =>
    simp only [move]
    split
    case isTrue he => exact sound_happen h he
    case isFalse => exact h
  | arrive w =>
    simp only [move]
    split
    case isFalse => exact h
    case isTrue hmem =>
      cases h.stands with
      | @sent v b ho ha hn hs hp =>
        obtain rfl : w = v := by simpa [ho] using hmem
        obtain ⟨promise, haccept⟩ := hp.exists_accept
        rw [haccept]
        exact ⟨h.solo, .arrived (by simp [ho]) (by simp [ha]) hn hs, h.refused⟩
      | quiet ho _ _ _ => simp [ho] at hmem
      | arrived ho _ _ _ => simp [ho] at hmem
      | answered ho _ _ _ _ _ _ _ => simp [ho] at hmem
  | answer w r =>
    simp only [move]
    split
    case h_2 => exact h
    case h_1 left span hr =>
      split
      case isFalse => exact h
      case isTrue hmem =>
        cases h.stands with
        | @arrived v b ho ha hn hs =>
          obtain rfl : w = v := by simpa [ha] using hmem
          refine ⟨h.solo, ?_, h.refused⟩
          exact .answered ho (by simp [ha]) (by simp [hn]) hs hr rfl rfl (Nat.le_refl _)
        | quiet _ ha _ _ => simp [ha] at hmem
        | sent _ ha _ _ _ => simp [ha] at hmem
        | answered _ ha _ _ _ _ _ _ => simp [ha] at hmem
  | read w r clock draw =>
    simp only [move]
    split
    case isFalse => exact h
    case isTrue hmem =>
      cases h.stands with
      | @answered v b r' left span ho ha hn hs hr hlate hleft hending =>
        obtain ⟨rfl, rfl⟩ : w = v ∧ r = r' := by simpa [hn] using hmem
        have hstep := happens_step ℓ.dispatcher ℓ.now (.receive w clock draw (.response r))
        obtain ⟨htoo, hspan, hlimits⟩ := Response.of_quota? hr
        obtain ⟨worker, q, hw, hq, hstage⟩ := exists_of_stageAt hs
        have hroute := h.solo.routed w worker hw
        have hused := h.solo.used.stage hw hq (by rw [hstage]; rfl)
        have hb := h.solo.accounted.sound.used.stage hw hq (by rw [hstage]; rfl)
        have hlike := like_of_answer hstep hw hq hstage htoo
        rw [hroute] at hlike
        refine ⟨solo_happens hstep (by simp [Dispatcher.Event.On]) h.solo, ?_, h.refused⟩
        refine .quiet ?_ ha (by simp [hn, happen]) ?_
        · have hnone := senders_of_sending (registers_happens hstep) h.solo hs
          simp only [happen, ho, hnone, List.append_nil]
        · exact predicts_of_like h.solo hb hused (hlimits clock).1 (hlimits clock).2 hspan hlike
            hlate hleft hending
      | quiet _ _ hn _ => simp [hn] at hmem
      | sent _ _ hn _ _ => simp [hn] at hmem
      | arrived _ _ hn _ => simp [hn] at hmem

theorem sound_run (h : ℓ.Sound ρ) (moves : List Move) : (ℓ.run ρ moves).Sound ρ := by
  induction moves generalizing ℓ with
  | nil => exact h
  | cons m rest ih => exact ih (sound_move h m)

/-- **A server that keeps its promises** gets no request that it did not promise to accept, whatever
calls of one route are submitted at whatever times, and however long requests and answers take. -/
theorem refused_of_run (policy : RetryPolicy) (timeout idle : Span) (ρ : Route)
    (moves : List Move) : ((begin policy timeout idle).run ρ moves).refused = [] :=
  (sound_run (sound_begin policy timeout idle ρ) moves).refused

/-! ### Two calls and one unit -/

/-- Two calls, of which the first is carried out; nothing is left after it for a second. -/
def exhausted : List Move :=
  let turns := List.replicate 4 (.act (.proceed 0))
  let r := (Response.new 200 []).withLimits 5 0 Span.second "b"
  [.act (.submit 0 ⟨"GET", ["a"]⟩ ⟨"GET", "/a", none⟩ none),
    .act (.submit 1 ⟨"GET", ["a"]⟩ ⟨"GET", "/a", none⟩ none)] ++ turns ++
  [.wait 5, .arrive 0, .answer 0 r, .wait 5, .read 0 r none 0] ++ turns

/-- The second request begins when the second is over for the client, and the server accepts it as
the one that may come late. -/
theorem refused_of_run_exhausted :
    let ρ : Route := ⟨"GET", ["a"]⟩
    let waiting := (begin ⟨0, 0, 0, 0⟩ 0 0).run ρ exhausted
    let rest := .wait Span.second :: List.replicate 4 (.act (.proceed 0)) ++ [.arrive 0]
    waiting.outbound = [] ∧ waiting.promise = ⟨0, Span.second + 5, true⟩ ∧
      (waiting.run ρ rest).now = Span.second + 10 ∧ (waiting.run ρ rest).accepted = [0] ∧
      ((begin ⟨0, 0, 0, 0⟩ 0 0).run ρ (exhausted ++ rest)).refused = [] := by
  intro ρ waiting rest
  refine ⟨?_, ?_, ?_, ?_, refused_of_run _ _ _ ρ (exhausted ++ rest)⟩
  all_goals decide +kernel

end Loop

end Switchboard
