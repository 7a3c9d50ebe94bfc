import Mathlib.Data.List.Pairwise
import Switchboard.Proofs.Dispatch.Eviction
import Switchboard.Proofs.Dispatch.Shown
import Switchboard.Proofs.Dispatch.Timeouts

/-!
# Sides are independent

The calls of the routes on one side are carried out as if those on the other were never submitted,
whatever becomes of those: the same requests begin at the same instants, and the same is heard by
the callers. It takes two things to bring the sides together: a refusal that is for all routes, or a
token that is named to routes of both.

The run without the other side has the events of the side only. Its workers have other numbers, for
some are missing, and what sweeps count is less.

## Main definitions

* `Exchange`, `Dispatcher.exchanges`: what passes between workers and the executor of requests.
* `Dispatcher.sideOf`: what is on the side of some routes in a run.
* `Side.events`, `Side.timed`: a run and its effects, as seen from a side.

## Main results

* `Dispatcher.run_seen`: what is seen of a run is the run of what is seen.
* `Dispatcher.independent_of_run`: the sides are independent.
-/
namespace Switchboard

/-- What passes between a worker and the executor of requests. -/
inductive Exchange where
  | request (request : Request)
  /-- An answer, with what the wall clock shows then and the draw for the delay that may follow. -/
  | answer (clock : Option Span) (draw : Float) (reply : Answer)

namespace Exchange

/-- The token of a bucket that an answer names. -/
def token? : Exchange → Option String
  | .request _ => none
  | .answer clock _ reply => (Dispatcher.limitsOf clock reply).token

/-- It is a refusal that is for all routes. -/
def isGlobal : Exchange → Bool
  | .request _ => false
  | .answer clock _ reply => Dispatcher.isGlobal clock reply

end Exchange

/-- A request of the worker is under way. -/
def Worker.isSending (worker : Worker) : Bool :=
  match worker.stage? with
  | some (.sending _) => true
  | _ => false

theorem Worker.isSending_seen (s : View) (worker : Worker) :
    (worker.seen s).isSending = worker.isSending := by
  cases hp : worker.progress with
  | none => simp [isSending, stage?, seen, hp]
  | some p =>
    cases hs : p.stage <;> simp [isSending, stage?, seen, hp, Progress.seen, hs, Stage.seen]

namespace Side

/-- The events of a run that concern a side. -/
def events (s : Side) (events : List (Instant × Dispatcher.Event)) :
    List (Instant × Dispatcher.Event) :=
  events.filterMap fun x => (s.event? x.2).map (x.1, ·)

/-- What is seen of effects from a side, each with its instant. -/
def timed (s : Side) (es : List (Instant × DispatchEffect)) : List (Instant × DispatchEffect) :=
  es.filterMap fun x => (s.effect? x.2).map (x.1, ·)

variable {s : Side}

theorem events_cons_of_none {now : Instant} {e : Dispatcher.Event}
    {rest : List (Instant × Dispatcher.Event)} (h : s.event? e = none) :
    s.events ((now, e) :: rest) = s.events rest := by
  simp [events, h]

theorem events_cons_of_some {now : Instant} {e e' : Dispatcher.Event}
    {rest : List (Instant × Dispatcher.Event)} (h : s.event? e = some e') :
    s.events ((now, e) :: rest) = (now, e') :: s.events rest := by
  simp [events, h]

theorem timed_append (es fs : List (Instant × DispatchEffect)) :
    s.timed (es ++ fs) = s.timed es ++ s.timed fs := List.filterMap_append

theorem timed_map (now : Instant) (es : List DispatchEffect) :
    s.timed (es.map (now, ·)) = (s.effects es).map (now, ·) := by
  rw [timed, effects, List.filterMap_map, List.map_filterMap]
  rfl

end Side

namespace Dispatcher

variable {s : View} {c : Cooldown} {d : Dispatcher} {now : Instant} {e : Event}
  {events : List (Instant × Event)}

/-! ## What passes between workers and the executor -/

/-- A worker begins a request. -/
def spoken (d : Dispatcher) : DispatchEffect → Option (Route × Exchange)
  | .execute w q => d.workers[w]?.map fun worker => (worker.route, .request q)
  | _ => none

/-- A worker hears the answer to its request. -/
def heard (d : Dispatcher) : Event → Option (Route × Exchange)
  | .receive w clock draw answer =>
    (d.workers[w]?.filter (·.isSending)).map fun worker => (worker.route, .answer clock draw answer)
  | _ => none

/-- What passes with an event, and for which route. -/
def exchange (d : Dispatcher) (now : Instant) (e : Event) : List (Route × Exchange) :=
  (d.heard e).toList ++ (d.step now e).2.filterMap d.spoken

/-- What passes in a run, in order, each with its instant. -/
def exchanges (d : Dispatcher) : List (Instant × Event) → List (Instant × Route × Exchange)
  | [] => []
  | (now, e) :: rest => (d.exchange now e).map (now, ·) ++ exchanges (d.step now e).1 rest

theorem heard_of_sending {w : WorkerId} {clock : Option Span} {draw : Float} {answer : Answer}
    {worker : Worker} {p : Progress} {b : BucketId} (hw : d.workers[w]? = some worker)
    (hp : worker.progress = some p) (hs : p.stage = .sending b) :
    d.heard (.receive w clock draw answer) = some (worker.route, .answer clock draw answer) := by
  simp [heard, hw, Worker.isSending, Worker.stage?, hp, hs, Option.filter]

/-- What is heard on a side is heard there by what is seen. -/
theorem heard_seen (hd : d.Parted s) (e : Event) :
    (s.event? e).bind (d.seen s c).heard = (d.heard e).filter fun x => s.route x.1 := by
  cases e with
  | receive w clock draw answer =>
    cases hw : d.workers[w]? with
    | none =>
      cases hside : s.worker w with
      | false => simp [Side.event?, hside, heard, hw]
      | true => simp [Side.event?, hside, heard, hw, seen, View.getElem?_workers hside]
    | some worker =>
      have hroute : s.route worker.route = s.worker w := (hd.workers w worker hw).symm
      cases hside : s.worker w with
      | false => cases hsends : worker.isSending <;> simp [Side.event?, hside, heard, hw, hsends,
          hroute, Option.filter]
      | true => cases hsends : worker.isSending <;> simp [Side.event?, hside, heard, hw, hsends,
          hroute, Option.filter, getElem?_seen hside hw, Worker.isSending_seen]
  | submit id route request timeout => cases h : s.route route <;> simp [Side.event?, h, heard]
  | proceed w => cases h : s.worker w <;> simp [Side.event?, h, heard]
  | crash w => cases h : s.worker w <;> simp [Side.event?, h, heard]
  | settle id => cases h : s.call id <;> simp [Side.event?, h, heard]
  | sweep => rfl
  | pause ending => rfl

/-- The requests of a side begin for what is seen. -/
theorem spoken_seen (hd : d.Parted s) (es : List DispatchEffect) :
    (s.effects es).filterMap (d.seen s c).spoken =
      (es.filterMap d.spoken).filter fun x => s.route x.1 := by
  rw [Side.effects, List.filterMap_filterMap, List.filter_filterMap]
  refine List.filterMap_congr fun effect _ => ?_
  cases effect with
  | execute w q =>
    cases hw : d.workers[w]? with
    | none =>
      cases hside : s.worker w with
      | false => simp [Side.effect?, hside, spoken, hw]
      | true => simp [Side.effect?, hside, spoken, hw, seen, View.getElem?_workers hside]
    | some worker =>
      have hroute : s.route worker.route = s.worker w := (hd.workers w worker hw).symm
      cases hside : s.worker w with
      | false => simp [Side.effect?, hside, spoken, hw, hroute, Option.filter]
      | true =>
        simp [Side.effect?, hside, spoken, hw, hroute, getElem?_seen hside hw, Option.filter]
  | wakeWorker w => cases h : s.worker w <;> simp [Side.effect?, h, spoken]
  | wakeWorkerAt w time => cases h : s.worker w <;> simp [Side.effect?, h, spoken]
  | wakeCaller id => cases h : s.call id <;> simp [Side.effect?, h, spoken]
  | finished id result => cases h : s.call id <;> simp [Side.effect?, h, spoken]
  | swept n => rfl

/-- What sweeps count is no request. -/
theorem spoken_unswept (d : Dispatcher) (es : List DispatchEffect) :
    (unswept es).filterMap d.spoken = es.filterMap d.spoken := by
  rw [unswept, List.filterMap_filter]
  refine List.filterMap_congr fun effect _ => ?_
  cases effect <;> rfl

/-- What passes with an event on a side passes with what is seen of the event. -/
theorem exchange_same {e' : Event} {r' : Dispatcher × List DispatchEffect} (hd : d.Parted s)
    (hevent : s.event? e = some e') (h : Happens (d.seen s c) now e' r')
    (heffects : unswept r'.2 = s.effects (d.step now e).2) :
    (d.seen s c).exchange now e' = (d.exchange now e).filter fun x => s.route x.1 := by
  have hheard : (d.seen s c).heard e' = (d.heard e).filter fun x => s.route x.1 := by
    rw [← heard_seen hd, hevent, Option.bind_some]
  rw [exchange, step_of_happens h, hheard, ← spoken_unswept, heffects, spoken_seen hd, exchange,
    List.filter_append, Option.toList_filter]

theorem exchange_hidden (hd : d.Parted s) (hevent : s.event? e = none)
    (heffects : s.effects (d.step now e).2 = []) :
    (d.exchange now e).filter (fun x => s.route x.1) = [] := by
  have hheard : (d.heard e).filter (fun x => s.route x.1) = none := by
    rw [← heard_seen (c := .none) hd, hevent, Option.bind_none]
  rw [exchange, List.filter_append, ← spoken_seen (c := .none) hd, heffects, ← Option.toList_filter,
    hheard]
  rfl

/-- What passes for one route. -/
def log (ρ : Route) (xs : List (Instant × Route × Exchange)) : List (Instant × Exchange) :=
  xs.filterMap fun x => if x.2.1 = ρ then some (x.1, x.2.2) else none

/-- The executor follows a script for every route: what passes for a route is as its script has it,
whatever passes for others. -/
def Scripted (script : Route → List (Instant × Exchange) → Prop)
    (xs : List (Instant × Route × Exchange)) : Prop := ∀ ρ, script ρ (log ρ xs)

theorem log_filter (A : Route → Bool) (ρ : Route) (xs : List (Instant × Route × Exchange)) :
    log ρ (xs.filter fun x => A x.2.1) = if A ρ then log ρ xs else [] := by
  rw [log, List.filterMap_filter]
  split
  case isTrue hρ =>
    refine List.filterMap_congr fun x _ => ?_
    by_cases hx : x.2.1 = ρ <;> simp [hx, hρ]
  case isFalse hρ =>
    rw [List.filterMap_eq_nil_iff]
    intro x _
    by_cases hx : x.2.1 = ρ <;> simp [hx, hρ]

/-- Who follows a script for every route follows it when other routes are silent. -/
theorem Scripted.filter {script : Route → List (Instant × Exchange) → Prop}
    {xs : List (Instant × Route × Exchange)} (h : Scripted script xs) (hnil : ∀ ρ, script ρ [])
    (A : Route → Bool) : Scripted script (xs.filter fun x => A x.2.1) := by
  intro ρ
  rw [log_filter]
  split
  · exact h ρ
  · exact hnil ρ

/-! ## The part of a run -/

/-- **What is seen of a run** is the run of what is seen: the same passes between workers and the
executor, with the same effects. -/
theorem run_seen (hall : Always (Parted s) d events) (hfits : Fits s.toSide s.token d events)
    (hsorted : events.Pairwise (·.1 ≤ ·.1)) (hc : ∀ x ∈ events, c.Agrees d.cooldown x.1) :
    (d.seen s c).exchanges (s.events events) =
        (d.exchanges events).filter (fun x => s.route x.2.1) ∧
      ((d.seen s c).run (s.events events)).2.filter (!·.2.isCount) =
        s.timed (d.run events).2 := by
  induction events generalizing d c with
  | nil => exact ⟨rfl, rfl⟩
  | cons x rest ih =>
    obtain ⟨now, e⟩ := x
    obtain ⟨hd, hlater⟩ := hall
    obtain ⟨hsuits, -, hfits⟩ := hfits
    obtain ⟨hnow, hsorted⟩ := List.pairwise_cons.mp hsorted
    have hagrees : ∀ {c'}, Cooldown.Agrees c' (d.step now e).1.cooldown now →
        ∀ x ∈ rest, c'.Agrees (d.step now e).1.cooldown x.1 := fun h x hx => h.mono (hnow x hx)
    have hshown := shown_step hd hlater.head hsuits (hc _ List.mem_cons_self)
    cases hevent : s.event? e with
    | none =>
      rw [hevent] at hshown
      cases hshown with
      | hidden hstate heffects hc' =>
        obtain ⟨hexchanges, hrun⟩ := ih hlater hfits hsorted (hagrees hc')
        rw [hstate] at hexchanges hrun
        rw [Side.events_cons_of_none hevent]
        refine ⟨?_, ?_⟩
        · rw [hexchanges, exchanges, List.filter_append, List.filter_map]
          simp only [Function.comp_def, exchange_hidden hd hevent heffects]
          rfl
        · rw [hrun, run, Side.timed_append, Side.timed_map, heffects]
          rfl
    | some e' =>
      rw [hevent] at hshown
      cases hshown with
      | @same _ r' h hstate heffects hc' =>
        obtain ⟨hexchanges, hrun⟩ := ih hlater hfits hsorted (hagrees hc')
        rw [← hstate] at hexchanges hrun
        rw [Side.events_cons_of_some hevent]
        refine ⟨?_, ?_⟩
        · rw [exchanges, exchange_same hd hevent h heffects, step_of_happens h, hexchanges,
            exchanges, List.filter_append, List.filter_map]
          rfl
        · rw [run, run, step_of_happens h, List.filter_append, hrun, Side.timed_append,
            Side.timed_map, ← heffects, unswept, List.filter_map]
          rfl

/-! ## What is on a side -/

/-- The event submits the call of a number, for a route of a kind. -/
def Event.submitsOn (A : Route → Bool) (id : TicketId) : Event → Bool
  | .submit other route _ _ => other = id && A route
  | _ => false

/-- What is on the side of some routes in a run: the calls that are submitted for them, and the
workers that are made for them. -/
def sideOf (A : Route → Bool) (d : Dispatcher) (events : List (Instant × Event)) : Side where
  route := A
  call id := events.any fun x => x.2.submitsOn A id
  worker w := ((d.run events).1.workers[w]?).any fun worker => A worker.route

variable {A : Route → Bool} {token : String → Bool}

theorem eq_of_submits {id : TicketId} (hids : (submissions events).Nodup)
    {x y : Instant × Event} (hx : x ∈ events) (hy : y ∈ events) (hxid : x.2.submits? = some id)
    (hyid : y.2.submits? = some id) : x = y := by
  let Same (x y : Instant × Event) : Prop :=
    x.2.submits? = some id → y.2.submits? = some id → x = y
  have hsymm : Std.Symm Same := ⟨fun _ _ h hy hx => (h hx hy).symm⟩
  rw [submissions, List.Nodup, List.pairwise_filterMap] at hids
  have hsame : events.Pairwise Same := hids.imp fun h hi hj => absurd rfl (h id hi id hj)
  exact List.Pairwise.forall_of_forall (fun _ _ _ _ => rfl) hsame hx hy hxid hyid

/-- A call is on the side of its route. -/
theorem call_sideOf (hids : (submissions events).Nodup) {time : Instant} {id : TicketId}
    {route : Route} {request : Request} {timeout : Option Span}
    (hmem : (time, .submit id route request timeout) ∈ events) :
    (sideOf A d events).call id = A route := by
  cases hA : A route with
  | true => exact List.any_eq_true.mpr ⟨_, hmem, by simp [Event.submitsOn, hA]⟩
  | false =>
    refine List.any_eq_false.mpr fun x hx => ?_
    obtain ⟨time', e⟩ := x
    cases e with
    | submit other route' request' timeout' =>
      by_cases hid : other = id
      · subst hid
        obtain ⟨-, heq⟩ := Prod.mk.inj (eq_of_submits hids hx hmem rfl rfl)
        cases heq
        simp [Event.submitsOn, hA]
      · simp [Event.submitsOn, hid]
    | _ => simp [Event.submitsOn]

/-- A worker keeps its number and its route all through a run. -/
theorem route_run {v : WorkerId} {u : Worker} (hu : d.workers[v]? = some u)
    (events : List (Instant × Event)) :
    ∃ u', (d.run events).1.workers[v]? = some u' ∧ u'.route = u.route := by
  induction events generalizing d u with
  | nil => exact ⟨u, hu, rfl⟩
  | cons x rest ih =>
    obtain ⟨now, e⟩ := x
    obtain ⟨u₁, hu₁, hroute₁⟩ := route_shifts (shifts_happens (happens_step d now e)) hu
    obtain ⟨u₂, hu₂, hroute₂⟩ := ih hu₁
    exact ⟨u₂, hu₂, hroute₂.trans hroute₁⟩

/-- A run suits the sides if its calls, its workers and the tokens that are named in it are on the
sides of their routes. -/
theorem fits_of {s : Side}
    (hcalls : ∀ {time id route request timeout},
      (time, .submit id route request timeout) ∈ events → s.call id = s.route route)
    (hanswers : ∀ x ∈ d.exchanges events,
      (∀ name, x.2.2.token? = some name → token name = s.route x.2.1) ∧ x.2.2.isGlobal = false)
    (hworkers : Every (d.run events).1.workers fun w worker =>
      s.worker w = s.route worker.route) : Fits s token d events := by
  induction events generalizing d with
  | nil => trivial
  | cons x rest ih =>
    obtain ⟨now, e⟩ := x
    refine ⟨?_, fun w worker hw => ?_, ih (fun hmem => hcalls (List.mem_cons_of_mem _ hmem))
      (fun x hx => hanswers x (List.mem_append_right _ hx)) hworkers⟩
    · cases e with
      | submit id route request timeout => exact hcalls List.mem_cons_self
      | receive w clock draw answer =>
        intro worker p b hw hp hs
        refine hanswers (now, worker.route, .answer clock draw answer) (List.mem_append_left _ ?_)
        refine List.mem_map.mpr ⟨_, List.mem_append_left _ ?_, rfl⟩
        rw [heard_of_sending hw hp hs]
        exact List.mem_singleton_self _
      | _ => trivial
    · obtain ⟨u, hu, hroute⟩ := route_run hw rest
      rw [hworkers w u hu, hroute]

/-- What callers hear in a run, each with its instant. -/
def results (es : List (Instant × DispatchEffect)) :
    List (Instant × TicketId × Except Failure Response) :=
  es.filterMap fun
    | (time, .finished id result) => some (time, id, result)
    | _ => none

theorem results_filter (es : List (Instant × DispatchEffect)) :
    results (es.filter (!·.2.isCount)) = results es := by
  rw [results, List.filterMap_filter]
  refine List.filterMap_congr fun x _ => ?_
  obtain ⟨time, effect⟩ := x
  cases effect <;> rfl

theorem results_timed (s : Side) (es : List (Instant × DispatchEffect)) :
    results (s.timed es) = (results es).filter fun x => s.call x.2.1 := by
  rw [results, Side.timed, List.filterMap_filterMap, results, List.filter_filterMap]
  refine List.filterMap_congr fun x _ => ?_
  obtain ⟨time, effect⟩ := x
  cases effect with
  | execute w q => cases h : s.worker w <;> simp [Side.effect?, h]
  | wakeWorker w => cases h : s.worker w <;> simp [Side.effect?, h]
  | wakeWorkerAt w time => cases h : s.worker w <;> simp [Side.effect?, h]
  | wakeCaller id => cases h : s.call id <;> simp [Side.effect?, h]
  | finished id result => cases h : s.call id <;> simp [Side.effect?, h, Option.filter]
  | swept n => rfl

/-- **Sides are independent**, for the routes on one side in any run in which no refusal is for all
routes and no token is named to routes of both.

The run with the events of the side only is the same for the side: the same requests begin and the
same answers are heard on its routes at the same instants, its callers hear the same at the same
instants, and its workers and callers are woken up as before. It is a run with the same executor, if
that one follows a script for every route. -/
theorem independent_of_run (policy : RetryPolicy) (timeout idle : Span) (A : Route → Bool)
    {events : List (Instant × Event)} (hids : (submissions events).Nodup)
    (hsorted : events.Pairwise (·.1 ≤ ·.1))
    (hlocal : ∀ x ∈ (new policy timeout idle).exchanges events, x.2.2.isGlobal = false)
    (htokens : ∀ x ∈ (new policy timeout idle).exchanges events,
      ∀ y ∈ (new policy timeout idle).exchanges events, x.2.2.token?.isSome = true →
        x.2.2.token? = y.2.2.token? → A x.2.1 = A y.2.1) :
    let d := new policy timeout idle
    let s := sideOf A d events
    let alone := s.events events
    d.exchanges alone = (d.exchanges events).filter (fun x => A x.2.1) ∧
      results (d.run alone).2 = (results (d.run events).2).filter (fun x => s.call x.2.1) ∧
      (d.run alone).2.filter (!·.2.isCount) = s.timed (d.run events).2 ∧
      ∀ script : Route → List (Instant × Exchange) → Prop, (∀ ρ, script ρ []) →
        Scripted script (d.exchanges events) → Scripted script (d.exchanges alone) := by
  intro d s alone
  let token (name : String) : Bool :=
    (d.exchanges events).any fun x => x.2.2.token? = some name && A x.2.1
  have htoken : ∀ x ∈ d.exchanges events, ∀ name, x.2.2.token? = some name →
      token name = A x.2.1 := by
    intro x hx name hname
    cases hA : A x.2.1 with
    | true => exact List.any_eq_true.mpr ⟨x, hx, by simp [hname, hA]⟩
    | false =>
      refine List.any_eq_false.mpr fun y hy hyes => ?_
      obtain ⟨hyname, hyA⟩ : y.2.2.token? = some name ∧ A y.2.1 = true := by simpa using hyes
      have hsame := htokens x hx y hy (by simp [hname]) (hname.trans hyname.symm)
      rw [hA, hyA] at hsame
      exact absurd hsame (by simp)
  have hfits : Fits s token d events := by
    refine fits_of (fun hmem => call_sideOf hids hmem) (fun x hx => ⟨htoken x hx, hlocal x hx⟩) ?_
    intro w worker hw
    have hside : s.worker w = ((d.run events).1.workers[w]?).any fun worker => A worker.route := rfl
    rw [hside, hw]
    rfl
  -- Buckets are on the side of the route for which they will be made.
  obtain ⟨bucket, -, hall⟩ := exists_parted
    (parted_new { s with token, bucket := fun _ => true } policy timeout idle) hfits
  obtain ⟨hexchanges, hrun⟩ := run_seen (c := .none) hall hfits hsorted fun _ _ => .refl _ _
  have hsame : d.exchanges alone = (d.exchanges events).filter fun x => A x.2.1 := hexchanges
  refine ⟨hsame, ?_, hrun, fun script hnil hscripted => hsame ▸ hscripted.filter hnil A⟩
  rw [← results_filter, ← results_timed, ← hrun]
  rfl

/-- Two calls on two routes; the first is refused and waits for its bucket, and the second is
answered in the meantime. -/
def besides : List (Instant × Event) :=
  [(0, .submit 0 ⟨"GET", ["b"]⟩ ⟨"GET", "/b", none⟩ none),
    (0, .submit 1 ⟨"GET", ["a"]⟩ ⟨"GET", "/a", none⟩ none)] ++ turns 0 0 ++ turns 0 1 ++
  [(5, .receive 0 none 0 (.response (answerUnder 429 "y")))] ++ turns 5 0 ++
  [(10, .receive 1 none 0 (.response (answerUnder 200 "x"))), (10, .settle 1), (20, .sweep)]

/-- The call on the one route is carried out as if the other were never submitted. -/
theorem independent_of_run_besides :
    let d := new ⟨0, 1, 0, 0⟩ 100 5
    let A : Route → Bool := fun ρ => ρ = ⟨"GET", ["a"]⟩
    let alone := (sideOf A d besides).events besides
    (submissions besides).Nodup ∧ besides.Pairwise (·.1 ≤ ·.1) ∧
      (∀ x ∈ d.exchanges besides, x.2.2.isGlobal = false) ∧
      (∀ x ∈ d.exchanges besides, ∀ y ∈ d.exchanges besides, x.2.2.token?.isSome = true →
        x.2.2.token? = y.2.2.token? → A x.2.1 = A y.2.1) ∧
      (d.exchanges besides).length = 4 ∧ (d.exchanges alone).length = 2 ∧
      results (d.run alone).2 = [(10, 1, .ok (answerUnder 200 "x"))] := by
  intro d A alone
  have hids : (submissions besides).Nodup := by decide
  have hsorted : besides.Pairwise (·.1 ≤ ·.1) := by decide
  have hlocal : ∀ x ∈ d.exchanges besides, x.2.2.isGlobal = false := by decide +kernel
  have htokens : ∀ x ∈ d.exchanges besides, ∀ y ∈ d.exchanges besides,
      x.2.2.token?.isSome = true → x.2.2.token? = y.2.2.token? → A x.2.1 = A y.2.1 := by
    decide +kernel
  obtain ⟨hexchanges, hresults, -, -⟩ :=
    independent_of_run ⟨0, 1, 0, 0⟩ 100 5 A hids hsorted hlocal htokens
  refine ⟨hids, hsorted, hlocal, htokens, by decide +kernel, ?_, hresults.trans ?_⟩
  · rw [show d.exchanges alone = _ from hexchanges]
    decide +kernel
  · decide +kernel

end Dispatcher

end Switchboard
