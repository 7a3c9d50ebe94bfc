import Switchboard.Proofs.Dispatch.Steps

/-!
# What comes of a call

What comes of a call depends on the answers to its attempts and on nothing else: neither on when
they come, nor on buckets and pauses, nor on the calls of others. This module says what it is, by
reading the answers one after the other and counting two things.

## Main definitions

* `Reply`: an answer as it is read.
* `Response.isForAll`, `Response.waitAt`: what a refusal says.
* `RetryPolicy.outcome`: what comes of a call.

## Main results

* `RetryPolicy.outcome_cons`: a verdict on an answer is a step of it.
* `RetryPolicy.outcome_append`: once it is known, further answers do not matter.
-/
namespace Switchboard

/-- An answer as it is read: by the wall clock, and with a draw for the delay that may follow. -/
structure Reply where
  clock : Option Span
  draw : Float
  answer : Answer

namespace Response

/-- A refusal is for all routes: one of its headers says so, or its body. -/
def isForAll (r : Response) : Bool :=
  (r.headers.text? "x-ratelimit-global").any (Text.sameLetters · "true") ||
    (Limits.readBody? r.body).any (·.2) || r.headers.text? "x-ratelimit-scope" == some "global"

/-- How long a refusal asks to wait: as one of its headers says, or else its body, or else until the
window ends, or else a second. -/
def waitAt (r : Response) (clock : Option Span) : Span :=
  let header := (Limits.float? r.headers "retry-after").bind Limits.wait?
  let body := (Limits.readBody? r.body).bind fun said => Limits.wait? said.1
  ((header.or body).or (Limits.resetAfter? r.headers clock)).getD Limits.standardWait

theorem isGlobal_withBody (r : Response) (clock : Option Span) :
    ((Limits.ofHeaders r.headers clock).withBody r.body).isGlobal = r.isForAll := by
  unfold Limits.withBody isForAll
  cases Limits.readBody? r.body <;> simp [Limits.isGlobal, Limits.ofHeaders]

theorem effectiveWait_withBody (r : Response) (clock : Option Span) :
    ((Limits.ofHeaders r.headers clock).withBody r.body).effectiveWait = r.waitAt clock := by
  unfold Limits.withBody waitAt
  cases Limits.readBody? r.body <;> simp [Limits.effectiveWait, Limits.ofHeaders]

end Response

namespace RetryPolicy

/-- What comes of a call of which so many attempts were failures and so many were refused, if its
further attempts are answered so; nothing yet, if these answers do not decide it. -/
def outcome (p : RetryPolicy) (route : Route) (failures refusals : Nat) :
    List Reply → Option (Except Failure Response)
  | [] => none
  | ⟨clock, _, answer⟩ :: rest =>
    match answer with
    | .lost failure =>
      if failures = p.maxRetryAttempts then
        some (.error (.transientServer none failure.message))
      else outcome p route (failures + 1) refusals rest
    | .response r =>
      if 200 ≤ r.status ∧ r.status < 300 then some (.ok r)
      else if 500 ≤ r.status ∧ r.status < 600 then
        if failures = p.maxRetryAttempts then
          some (.error (.transientServer (some r.status) r.text))
        else outcome p route (failures + 1) refusals rest
      else if r.status = 429 then
        if refusals = p.maxRateLimitRetries then
          some (.error (.rateLimited route.render r.isForAll (r.waitAt clock)))
        else outcome p route failures (refusals + 1) rest
      else some (.error (.requestRejected r.status r.text))

variable {p : RetryPolicy} {route : Route} {failures refusals : Nat} {rest : List Reply}
  {result : Except Failure Response}

/-- Once it is known what comes of a call, further answers do not matter. -/
theorem outcome_append {replies : List Reply}
    (h : p.outcome route failures refusals replies = some result) (more : List Reply) :
    p.outcome route failures refusals (replies ++ more) = some result := by
  induction replies generalizing failures refusals with
  | nil => simp [outcome] at h
  | cons x rest ih =>
    obtain ⟨clock, draw, answer⟩ := x
    cases answer with
    | lost failure =>
      simp only [outcome, List.cons_append] at h ⊢
      split_ifs at h ⊢ with hspent
      · exact h
      · exact ih h
    | response r =>
      simp only [outcome, List.cons_append] at h ⊢
      split_ifs at h ⊢ with hok hserver hspent htoo hspent
      · exact h
      · exact h
      · exact ih h
      · exact h
      · exact ih h
      · exact h

end RetryPolicy

namespace Tries

/-- A verdict, in so far as it decides a call: the result, or what is counted from then on. -/
def decided : Tries × Verdict → (Except Failure Response) ⊕ (Nat × Nat)
  | (_, .done result) => .inl result
  | (t, .retry _) | (t, .limited _ _) => .inr (t.failures, t.refusals)

variable {t : Tries} {p : RetryPolicy} {route : Route}

theorem decided_fail (hf : t.failures ≤ p.maxRetryAttempts) (failure : Failure) (draw : Float) :
    decided (t.fail p failure draw) =
      if t.failures = p.maxRetryAttempts then .inl (.error failure)
      else .inr (t.failures + 1, t.refusals) := by
  simp only [fail]
  split_ifs with hspent hall hall
  · rfl
  · omega
  · omega
  · rfl

theorem decided_refuse (hr : t.refusals ≤ p.maxRateLimitRetries) (limits : Limits) :
    decided (t.refuse p route limits) =
      if t.refusals = p.maxRateLimitRetries then
        .inl (.error (.rateLimited route.render limits.isGlobal limits.effectiveWait))
      else .inr (t.failures, t.refusals + 1) := by
  simp only [refuse]
  split_ifs with hspent hall hall
  · rfl
  · omega
  · omega
  · rfl

/-- A call that is attempted again counts one more answer, within its budgets. -/
theorem decided_judge {limits : Limits} {draw : Float} {answer : Answer} {failures refusals : Nat}
    (hf : t.failures ≤ p.maxRetryAttempts) (hr : t.refusals ≤ p.maxRateLimitRetries)
    (h : decided (t.judge p route limits draw answer) = .inr (failures, refusals)) :
    failures + refusals = t.failures + t.refusals + 1 ∧ failures ≤ p.maxRetryAttempts ∧
      refusals ≤ p.maxRateLimitRetries := by
  have hfail : ∀ failure, decided (t.fail p failure draw) = .inr (failures, refusals) →
      failures = t.failures + 1 ∧ refusals = t.refusals ∧ t.failures < p.maxRetryAttempts := by
    intro failure hdecided
    rw [decided_fail hf] at hdecided
    split_ifs at hdecided with hspent
    obtain ⟨rfl, rfl⟩ := Prod.mk.inj (Sum.inr.inj hdecided)
    exact ⟨rfl, rfl, by omega⟩
  cases answer with
  | lost failure =>
    obtain ⟨rfl, rfl, hlt⟩ := hfail _ h
    omega
  | response r =>
    simp only [judge] at h
    split_ifs at h with htoo hok hserver
    · rw [decided_refuse hr] at h
      split_ifs at h with hspent
      obtain ⟨rfl, rfl⟩ := Prod.mk.inj (Sum.inr.inj h)
      omega
    · simp [decided] at h
    · obtain ⟨rfl, rfl, hlt⟩ := hfail _ h
      omega
    · simp [decided] at h

end Tries

/-- A verdict on an answer is a step of what comes of the call. -/
theorem RetryPolicy.outcome_cons {p : RetryPolicy} {t : Tries}
    (hf : t.failures ≤ p.maxRetryAttempts) (hr : t.refusals ≤ p.maxRateLimitRetries)
    (route : Route) (x : Reply) (rest : List Reply) :
    p.outcome route t.failures t.refusals (x :: rest) =
      match Tries.decided (t.judge p route (Dispatcher.limitsOf x.clock x.answer) x.draw x.answer)
        with
      | .inl result => some result
      | .inr (failures, refusals) => p.outcome route failures refusals rest := by
  obtain ⟨clock, draw, answer⟩ := x
  cases answer with
  | lost failure =>
    simp only [outcome, Tries.judge, Tries.decided_fail hf]
    split_ifs <;> rfl
  | response r =>
    have hsuccess : r.isSuccess = true ↔ 200 ≤ r.status ∧ r.status < 300 := by
      simp [Response.isSuccess]
    have hserver : r.isServerError = true ↔ 500 ≤ r.status ∧ r.status < 600 := by
      simp [Response.isServerError]
    have htoo : r.isTooMany = true ↔ r.status = 429 := by simp [Response.isTooMany]
    simp only [outcome, ← hsuccess, ← hserver, ← htoo, Tries.judge, Dispatcher.limitsOf]
    cases h429 : r.isTooMany with
    | true =>
      have hstatus := htoo.mp h429
      have hnotok : r.isSuccess = false := by simp [Response.isSuccess, hstatus]
      have hnotserver : r.isServerError = false := by simp [Response.isServerError, hstatus]
      simp only [hnotok, hnotserver, if_true, Bool.false_eq_true, if_false,
        Tries.decided_refuse hr, r.isGlobal_withBody, r.effectiveWait_withBody]
      split_ifs <;> rfl
    | false =>
      simp only [Bool.false_eq_true, if_false]
      cases r.isSuccess with
      | true => rfl
      | false =>
        cases r.isServerError with
        | true =>
          simp only [Bool.false_eq_true, if_false, if_true, Tries.decided_fail hf]
          split_ifs <;> rfl
        | false => rfl

end Switchboard
