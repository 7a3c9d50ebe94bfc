import Switchboard.Proofs.Dispatch.Eviction
import Switchboard.Proofs.Dispatch.Outcomes
import Switchboard.Proofs.Dispatch.Timeouts

/-!
# A call from its beginning to its end

Whoever watches a worker that carries out a call sees requests begin, answers come, and at last a
result. Events that are not about the worker change nothing of this, whatever they do to buckets and
pauses. So what is seen follows the answers: the result is what comes of the call by them, and no
more requests begin than the two budgets allow, and one.

## Main definitions

* `Dispatcher.Trial`: what is seen of a call.
* `Dispatcher.trial`: what is seen of the call of a worker in a run.
* `Dispatcher.Course`: what an event does to a call.
* `Dispatcher.Stands`: where a call stands, from what was seen of it.

## Main results

* `Dispatcher.course_happens`: every step does one of these things to the call of a worker.
* `Dispatcher.stands_next`, `Dispatcher.stands_watch`: what is seen follows the answers.
-/
namespace Switchboard

/-- A request of a worker is under way. -/
def Stage.isSending : Stage → Bool
  | .sending _ => true
  | _ => false

/-- A request of a worker begins. -/
def DispatchEffect.begins (w : WorkerId) : DispatchEffect → Bool
  | .execute v _ => v = w
  | _ => false

namespace Dispatcher

/-! ## What is seen of a call -/

/-- What is seen of a call that a worker carries out. -/
structure Trial where
  /-- Requests that began. -/
  requests : Nat := 0
  /-- The answers to them, in order. -/
  replies : List Reply := []
  /-- The worker does not have the call any more. -/
  finished : Bool := false
  /-- What came of the call. -/
  result : Option (Except Failure Response) := none

/-- The answer that an event brings to the request of a worker. -/
def replyTo (d : Dispatcher) (w : WorkerId) : Event → Option Reply
  | .receive v clock draw answer =>
    if v = w ∧ (d.stageAt w).any Stage.isSending then some ⟨clock, draw, answer⟩ else none
  | _ => none

/-- What is seen of a call after one more incident; once it is over, nothing more. -/
def Trial.next (τ : Trial) (d : Dispatcher) (w : WorkerId) : Incident → Trial
  | .deed _ => τ
  | .event now e =>
    if τ.finished then τ
    else
      { requests := τ.requests + (d.step now e).2.countP (·.begins w)
        replies := τ.replies ++ (d.replyTo w e).toList
        finished := ((d.step now e).1.stageAt w).isNone
        result := (d.replyTo w e).bind fun _ => (d.ended e).head?.map (·.2) }

/-- What is seen of a call after several incidents. -/
def watch (w : WorkerId) : Dispatcher → Trial → List Incident → Trial
  | _, τ, [] => τ
  | d, τ, incident :: rest => watch w (d.meets incident) (τ.next d w incident) rest

/-- What is seen of the call of a worker from now on. -/
def trial (d : Dispatcher) (w : WorkerId) (incidents : List Incident) : Trial :=
  watch w d {} incidents

variable {d : Dispatcher} {now : Instant} {w : WorkerId} {worker : Worker} {p : Progress}
  {e : Event} {r : Dispatcher × List DispatchEffect} {τ : Trial}

theorem watch_append (first second : List Incident) :
    watch w d τ (first ++ second) = watch w (d.meetsAll first) (watch w d τ first) second := by
  induction first generalizing d τ with
  | nil => rfl
  | cons incident rest ih => exact ih

theorem next_of_finished (h : τ.finished = true) (incident : Incident) :
    τ.next d w incident = τ := by
  cases incident <;> simp [Trial.next, h]

theorem countP_begins_eq_zero {es : List DispatchEffect} (h : ∀ q, .execute w q ∉ es) :
    es.countP (·.begins w) = 0 := by
  rw [List.countP_eq_zero]
  intro effect hmem hbegins
  cases effect with
  | execute v q =>
    obtain rfl : v = w := by simpa [DispatchEffect.begins] using hbegins
    exact h q hmem
  | _ => simp [DispatchEffect.begins] at hbegins

/-! ## What an event does to a call -/

/-- What an event does to the call of a worker. -/
inductive Course (d : Dispatcher) (w : WorkerId) (worker : Worker) (p : Progress) (e : Event)
    (r : Dispatcher × List DispatchEffect) : Prop where
  /-- No request begins, and no answer comes. -/
  | goes {other : Worker} {s : Stage} (hw : r.1.workers[w]? = some other)
      (hroute : other.route = worker.route) (hp : other.progress = some { p with stage := s })
      (hs : s.isSending = p.stage.isSending) (hq : ∀ q, .execute w q ∉ r.2)
      (he : d.replyTo w e = none)
  /-- A request begins. -/
  | sends {b : BucketId} (hw : r.1.workers[w]? = some (worker.on p (.sending b)))
      (hs : p.stage = .reserving b) (hq : r.2 = [.execute w p.ticket.request])
      (he : d.replyTo w e = none)
  /-- An answer comes, and another attempt will follow. -/
  | hears {x : Reply} {other : Worker} {tries : Tries} {s : Stage}
      (he : d.replyTo w e = some x) (hs : p.stage.isSending = true) (hended : d.ended e = [])
      (hj : Tries.decided (p.tries.judge d.policy worker.route (limitsOf x.clock x.answer) x.draw
        x.answer) = .inr (tries.failures, tries.refusals))
      (hw : r.1.workers[w]? = some other) (hroute : other.route = worker.route)
      (hp : other.progress = some ⟨p.ticket, tries, s⟩) (hafter : s.isSending = false)
      (hq : ∀ q, .execute w q ∉ r.2)
  /-- An answer comes that ends the call. -/
  | ends {x : Reply} {result : Except Failure Response} (he : d.replyTo w e = some x)
      (hs : p.stage.isSending = true) (hended : d.ended e = [(p.ticket.id, result)])
      (hj : Tries.decided (p.tries.judge d.policy worker.route (limitsOf x.clock x.answer) x.draw
        x.answer) = .inl result)
      (hw : r.1.stageAt w = none) (hcallers : r.1.callers = answered d.callers p.ticket.id result)
      (hq : ∀ q, .execute w q ∉ r.2)
  /-- The worker dies with the call. -/
  | dies (he : e = .crash w) (hw : r.1.stageAt w = none) (hq : ∀ q, .execute w q ∉ r.2)

theorem replyTo_receive (hw : d.workers[w]? = some worker) (hp : worker.progress = some p)
    {b : BucketId} (hs : p.stage = .sending b) (clock : Option Span) (draw : Float)
    (answer : Answer) :
    d.replyTo w (.receive w clock draw answer) = some ⟨clock, draw, answer⟩ := by
  simp [replyTo, stageAt_of_progress hw hp, hs, Stage.isSending]

theorem replyTo_receive_of_ne {v : WorkerId} (hne : v ≠ w) (clock : Option Span) (draw : Float)
    (answer : Answer) : d.replyTo w (.receive v clock draw answer) = none := by
  simp [replyTo, hne]

theorem getElem?_put_self (hw : d.workers[w]? = some worker) (other : Worker) :
    (d.put w other).workers[w]? = some other := by
  have hlt : w < d.workers.length := (List.getElem?_eq_some_iff.mp hw).1
  simp [Dispatcher.put, hlt]

theorem getElem?_put_of_ne {v : WorkerId} (hne : v ≠ w) (other : Worker) :
    (d.put v other).workers[w]? = d.workers[w]? := by
  simp [Dispatcher.put, List.getElem?_set_ne hne]

/-- **Every step** does one of these things to the call of a worker. -/
theorem course_happens (h : Happens d now e r) (hw : d.workers[w]? = some worker)
    (hp : worker.progress = some p) : Course d w worker p e r := by
  have hquiet : e ≠ .proceed w → ∀ q, .execute w q ∉ r.2 := fun hne q hmem =>
    hne (execute_of_happens h hmem).2.1
  -- The event leaves the worker as it is.
  have hsame : e ≠ .proceed w → d.replyTo w e = none → r.1.workers[w]? = d.workers[w]? →
      Course d w worker p e r := fun hne he hworkers =>
    .goes (hworkers.trans hw) rfl (by rw [hp]) rfl (hquiet hne) he
  -- It is the turn of this worker, and no request begins; or it is the turn of another one.
  have hturn : ∀ {v u q s}, e = .proceed v → d.workers[v]? = some u → u.progress = some q →
      q.stage.isSending = false → s.isSending = false →
      r.1.workers[w]? = (d.put v (u.on q s)).workers[w]? → (∀ q, .execute w q ∉ r.2) →
      Course d w worker p e r := by
    rintro v u q s rfl hv hq hbefore hafter hworkers hexecute
    by_cases heq : v = w
    · subst heq
      obtain ⟨rfl, rfl⟩ := progress_unique hw hp hv hq
      exact .goes (hworkers.trans (getElem?_put_self hv _)) rfl rfl (hafter.trans hbefore.symm)
        hexecute rfl
    · exact hsame (by simpa using heq) rfl (hworkers.trans (getElem?_put_of_ne heq _))
  -- The answer is for this worker, or for another one: a refusal that the budget allows.
  have hrefused : ∀ {v u q b clock draw response}, e = .receive v clock draw (.response response) →
      d.workers[v]? = some u → u.progress = some q → q.stage = .sending b →
      response.isTooMany = true → q.tries.refusals < d.policy.maxRateLimitRetries →
      r.1.workers[w]? = (d.put v { u with
        progress := some ⟨q.ticket, { q.tries with refusals := q.tries.refusals + 1 }, .fresh⟩
        }).workers[w]? → Course d w worker p e r := by
    rintro v u q b clock draw response rfl hv hq hs ht hbudget hworkers
    by_cases heq : v = w
    · subst heq
      obtain ⟨rfl, rfl⟩ := progress_unique hw hp hv hq
      have hj : q.tries.judge d.policy u.route (limitsOf clock (.response response)) draw
          (.response response) = _ := Tries.judge_of_isTooMany ht hbudget
      refine .hears (replyTo_receive hw hp hs ..) (by rw [hs]; rfl) ?_ (by rw [hj]; rfl)
        (hworkers.trans (getElem?_put_self hw _)) rfl rfl rfl (hquiet (by simp))
      rw [ended_receive hw hp hs, hj]
    · exact hsame (by simp) (replyTo_receive_of_ne heq ..)
        (hworkers.trans (getElem?_put_of_ne heq _))
  cases h with
  | @assign id route request timeout v u _ hv _ =>
    by_cases heq : v = w
    · subst heq
      obtain rfl := Option.some.inj (hw.symm.trans hv)
      exact .goes (getElem?_put_self (by exact hw) _) (Worker.route_accept _)
        (by rw [Worker.progress_accept, hp]) rfl (hquiet (by simp)) rfl
    · exact hsame (by simp) rfl (getElem?_put_of_ne heq _)
  | hire id route request timeout _ =>
    refine hsame (by simp) rfl ?_
    exact List.getElem?_append_left (List.getElem?_eq_some_iff.mp hw).1
  | @idle v _ => exact .goes hw rfl (by rw [hp]) rfl (by simp) rfl
  | @take v u _ _ hv _ hq _ =>
    have hne : v ≠ w := by
      rintro rfl
      obtain rfl := Option.some.inj (hw.symm.trans hv)
      simp [hp] at hq
    exact hsame (by simpa using hne) rfl (getElem?_put_of_ne hne _)
  | @retire v u hv _ hq _ _ =>
    have hne : v ≠ w := by
      rintro rfl
      obtain rfl := Option.some.inj (hw.symm.trans hv)
      simp [hp] at hq
    exact hsame (by simpa using hne) rfl (getElem?_put_of_ne hne _)
  | cool hv _ hq hs _ _ => exact hturn rfl hv hq (by rw [hs]; rfl) rfl rfl (by simp)
  | queue hv _ hq hs _ => exact hturn rfl hv hq (by rw [hs]; rfl) rfl rfl (by simp)
  | rested hv _ hq hs _ =>
    exact hturn rfl hv hq (by rcases hs with hs | hs <;> rw [hs] <;> rfl) rfl rfl (by simp)
  | first hv _ hq hs _ => exact hturn rfl hv hq (by rw [hs]; rfl) rfl rfl (by simp)
  | again hv _ hq hs _ => exact hturn rfl hv hq (by rw [hs]; rfl) rfl rfl (by simp)
  | back hv _ hq hs _ _ =>
    exact hturn rfl hv hq (by rw [hs]; rfl) rfl rfl (execute_notMem_roused _ _ _ _)
  | stall hv _ hq hs _ _ => exact hturn rfl hv hq (by rw [hs]; rfl) rfl rfl (by simp)
  | @execute v u q b hv _ hq hs _ _ _ =>
    by_cases heq : v = w
    · subst heq
      obtain ⟨rfl, rfl⟩ := progress_unique hw hp hv hq
      exact .sends (getElem?_put_self hv _) hs rfl rfl
    · exact hsame (by simpa using heq) rfl (getElem?_put_of_ne heq _)
  | stray v clock draw answer hno =>
    refine hsame (by simp) ?_ rfl
    by_cases heq : v = w
    · subst heq
      have hnot : p.stage.isSending = false := by
        cases hs : p.stage with
        | sending b => exact absurd hs (hno worker p b hw hp)
        | _ => rfl
      simp [replyTo, stageAt_of_progress hw hp, hnot]
    · exact replyTo_receive_of_ne heq ..
  | @done v clock draw answer u q b hv hq hs tries result hj =>
    by_cases heq : v = w
    · subst heq
      obtain ⟨rfl, rfl⟩ := progress_unique hw hp hv hq
      refine .ends (replyTo_receive hw hp hs ..) (by rw [hs]; rfl) ?_ (by rw [hj]; rfl) ?_ rfl
        (hquiet (by simp))
      · rw [ended_receive hw hp hs, hj]
      · exact (stageAt_of (getElem?_put_self hw _)).trans rfl
    · exact hsame (by simp) (replyTo_receive_of_ne heq ..) (getElem?_put_of_ne heq _)
  | @retry v clock draw answer u q b hv hq hs tries delay hj =>
    by_cases heq : v = w
    · subst heq
      obtain ⟨rfl, rfl⟩ := progress_unique hw hp hv hq
      refine .hears (replyTo_receive hw hp hs ..) (by rw [hs]; rfl) ?_ (by rw [hj]; rfl)
        (getElem?_put_self hw _) rfl rfl rfl (hquiet (by simp))
      rw [ended_receive hw hp hs, hj]
    · exact hsame (by simp) (replyTo_receive_of_ne heq ..) (getElem?_put_of_ne heq _)
  | pauses draw hv hq hs ht hbudget _ _ => exact hrefused rfl hv hq hs ht hbudget rfl
  | blocks draw hv hq hs ht hbudget _ _ => exact hrefused rfl hv hq hs ht hbudget rfl
  | @crash v u hv =>
    by_cases heq : v = w
    · subst heq
      exact .dies rfl ((stageAt_of (getElem?_put_self hv _)).trans rfl) (hquiet (by simp))
    · exact hsame (by simp) rfl (getElem?_put_of_ne heq _)
  | @giveUp id _ _ _ _ =>
    have hafter : (d.workers.map (·.forget id))[w]? = some (worker.forget id) := by
      rw [List.getElem?_map, hw, Option.map_some]
    exact .goes hafter rfl hp rfl (by simp) rfl
  | sweep =>
    obtain ⟨retiring, hretire⟩ := getElem?_retire (d.retired now) hw
    exact .goes hretire rfl (by rw [← hp]) rfl (by simp) rfl
  | _ => exact hsame (by simp) rfl rfl

/-! ## Where a call stands -/

/-- Where the call of a worker stands, from what was seen of it; `lost` says that the worker may
have died. -/
inductive Stands (policy : RetryPolicy) (route : Route) (t : Ticket) (lost : Prop) (w : WorkerId)
    (d : Dispatcher) (τ : Trial) : Prop where
  /-- The answers so far do not decide it. -/
  | runs {worker : Worker} {p : Progress} (hw : d.workers[w]? = some worker)
      (hroute : worker.route = route) (hp : worker.progress = some p) (ht : p.ticket = t)
      (hfinished : τ.finished = false) (hresult : τ.result = none)
      (hf : p.tries.failures ≤ policy.maxRetryAttempts)
      (hr : p.tries.refusals ≤ policy.maxRateLimitRetries)
      (hreplies : τ.replies.length = p.tries.failures + p.tries.refusals)
      (hrequests : τ.requests = τ.replies.length + p.stage.isSending.toNat)
      (hscan : ∀ rest, policy.outcome route 0 0 (τ.replies ++ rest) =
        policy.outcome route p.tries.failures p.tries.refusals rest)
  /-- The worker does not have it any more. -/
  | ended (hfinished : τ.finished = true) (hresult : τ.result = policy.outcome route 0 0 τ.replies)
      (hle : τ.replies.length ≤ τ.requests)
      (hmost : τ.requests ≤ policy.maxRetryAttempts + policy.maxRateLimitRetries + 1)
      (hlost : τ.result = none → lost)

variable {policy : RetryPolicy} {route : Route} {t : Ticket} {lost : Prop}

theorem policy_happens (h : Happens d now e r) : r.1.policy = d.policy := by
  cases h <;> rfl

theorem policy_meets (d : Dispatcher) (incident : Incident) :
    (d.meets incident).policy = d.policy := by
  cases incident with
  | event now e => exact policy_happens (happens_step d now e)
  | deed deed =>
    rw [meets]
    split <;> rfl

theorem next_event (h : τ.finished = false) (d : Dispatcher) (w : WorkerId) (now : Instant)
    (e : Event) :
    τ.next d w (.event now e) =
      { requests := τ.requests + (d.step now e).2.countP (·.begins w)
        replies := τ.replies ++ (d.replyTo w e).toList
        finished := ((d.step now e).1.stageAt w).isNone
        result := (d.replyTo w e).bind fun _ => (d.ended e).head?.map (·.2) } := by
  simp [Trial.next, h]

/-- A worker takes up a call. -/
theorem stands_new {worker : Worker} (hw : d.workers[w]? = some worker)
    (hp : worker.progress = some ⟨t, Tries.new policy, .fresh⟩) :
    Stands policy worker.route t lost w d {} :=
  .runs hw rfl hp rfl rfl rfl (Nat.zero_le _) (Nat.zero_le _) rfl rfl fun _ => rfl

/-- What came of a call so far is what the answers so far make of it. -/
theorem Stands.result_eq (h : Stands policy route t lost w d τ) :
    τ.result = policy.outcome route 0 0 τ.replies := by
  cases h with
  | ended _ hresult _ _ _ => exact hresult
  | runs _ _ _ _ _ hresult _ _ _ _ hscan =>
    have hundecided := hscan []
    rw [List.append_nil] at hundecided
    exact hresult.trans hundecided.symm

/-- **Every event** keeps a call where the answers to its attempts have brought it. -/
theorem stands_next (h : Stands policy route t lost w d τ) (hpolicy : d.policy = policy)
    (now : Instant) (e : Event) (hcrash : e = .crash w → lost) :
    Stands policy route t lost w (d.step now e).1 (τ.next d w (.event now e)) := by
  cases h with
  | ended hfinished hresult hle hmost hlost =>
    rw [next_of_finished hfinished]
    exact .ended hfinished hresult hle hmost hlost
  | @runs worker p hw hroute hp ht hfinished hresult hf hr hreplies hrequests hscan =>
    subst hroute ht hpolicy
    rw [next_event hfinished]
    cases course_happens (happens_step d now e) hw hp with
    | goes hw' hroute hp' hs hq he =>
      refine .runs hw' hroute hp' rfl ?_ ?_ hf hr ?_ ?_ ?_
      · simp [stageAt_of_progress hw' hp']
      · simp [he]
      · simpa [he] using hreplies
      · simpa [he, countP_begins_eq_zero hq, hs] using hrequests
      · simpa [he] using hscan
    | @sends b hw' hs hq he =>
      refine .runs hw' rfl rfl rfl ?_ ?_ hf hr ?_ ?_ ?_
      · rw [stageAt_of_progress hw' rfl]
        rfl
      · simp [he]
      · simpa [he] using hreplies
      · simp [he, hq, hrequests, hs, Stage.isSending, DispatchEffect.begins]
      · simpa [he, Worker.on] using hscan
    | @hears x other tries s he hs hended hj hw' hroute hp' hafter hq =>
      obtain ⟨hsum, hf', hr'⟩ := Tries.decided_judge hf hr hj
      refine .runs hw' hroute hp' rfl ?_ ?_ hf' hr' ?_ ?_ fun rest => ?_
      · simp [stageAt_of_progress hw' hp']
      · simp [hended]
      · simp only [he, Option.toList_some, List.length_append, List.length_singleton]
        omega
      · simp [he, countP_begins_eq_zero hq, hrequests, hs, hafter]
      · rw [he, Option.toList_some, List.append_assoc, List.singleton_append, hscan,
          RetryPolicy.outcome_cons hf hr, hj]
    | @ends x result he hs hended hj hw' hcallers hq =>
      have hknown : d.policy.outcome worker.route 0 0 (τ.replies ++ [x]) = some result := by
        rw [hscan, RetryPolicy.outcome_cons hf hr, hj]
      refine .ended (by rw [hw']; rfl) ?_ ?_ ?_ ?_
      · simp [he, hended, hknown]
      · simp [he, hrequests, hs]
      · simp only [countP_begins_eq_zero hq, hrequests, hs, Bool.toNat_true]
        omega
      · simp [he, hended]
    | dies he hw' hq =>
      have hnone : d.replyTo w e = none := by rw [he]; rfl
      have hbool := Bool.toNat_le p.stage.isSending
      refine .ended (by rw [hw']; rfl) ?_ ?_ ?_ fun _ => hcrash he
      · simpa [hnone, RetryPolicy.outcome] using (hscan []).symm
      · simp [hnone, hrequests, countP_begins_eq_zero hq]
      · simp only [countP_begins_eq_zero hq, hrequests]
        omega

/-- What others do with the registry is nothing to a call. -/
theorem stands_meets (h : Stands policy route t lost w d τ) (hpolicy : d.policy = policy)
    (incident : Incident) (hcrash : ∀ now, incident = .event now (.crash w) → lost) :
    Stands policy route t lost w (d.meets incident) (τ.next d w incident) := by
  cases incident with
  | event now e => exact stands_next h hpolicy now e fun he => hcrash now (by rw [he])
  | deed deed =>
    cases h with
    | ended hfinished hresult hle hmost hlost => exact .ended hfinished hresult hle hmost hlost
    | runs hw hroute hp ht hfinished hresult hf hr hreplies hrequests hscan =>
      refine .runs ?_ hroute hp ht hfinished hresult hf hr hreplies hrequests hscan
      rw [meets]
      split
      · exact hw
      · exact hw

theorem stands_watch (h : Stands policy route t lost w d τ) (hpolicy : d.policy = policy)
    {incidents : List Incident} (hcrash : ∀ now, .event now (.crash w) ∈ incidents → lost) :
    Stands policy route t lost w (d.meetsAll incidents) (watch w d τ incidents) := by
  induction incidents generalizing d τ with
  | nil => exact h
  | cons incident rest ih =>
    refine ih (stands_meets h hpolicy incident fun now he => ?_)
      ((policy_meets d incident).trans hpolicy) fun now hmem => ?_
    · exact hcrash now (he ▸ List.mem_cons_self)
    · exact hcrash now (List.mem_cons_of_mem _ hmem)

end Dispatcher

end Switchboard
