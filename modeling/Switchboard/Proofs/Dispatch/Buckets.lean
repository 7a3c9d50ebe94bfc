import Switchboard.Proofs.Dispatch.Lines
import Switchboard.Proofs.Dispatch.Owners

/-!
# What a step does to the buckets

A step resolves a route, takes a unit of a bucket, takes over what an answer says, or evicts; or it
only counts calls. Buckets that workers use come from resolving routes.

## Main definitions

* `Registry.windowOf`: what a bucket predicts.
* `Registry.SameWays`, `Registry.Like`: registries with the same ways to buckets, and those that
  differ only in the calls that they count.
* `Dispatcher.Using`: something holds of all buckets that workers use.
* `Dispatcher.Registers`: what a step does to the registry.
* `Registry.LeadsTo`: a route or a token leads to a bucket.
* `Dispatcher.Sound`: all buckets in use exist.

## Main results

* `Dispatcher.registers_happens`: every step does one of these things.
* `Dispatcher.sound_registers`: buckets in use exist.
-/
namespace Switchboard

/-- A unit is taken of a bucket that is not exhausted. -/
theorem Bucket.reserve_ok {x y : Bucket} {now : Instant} (h : x.reserve now = .ok y) :
    (x.refilled now).exhaustedUntil? = none ∧
      y = { x.refilled now with remaining := (x.refilled now).remaining - 1, lastUsed := now } := by
  simp only [reserve] at h
  split at h
  case h_1 => simp at h
  case h_2 hnone => exact ⟨hnone, (Except.ok.inj h).symm⟩

/-! ## Registries -/

namespace Registry

variable {r r' r'' : Registry} {b id : BucketId} {now : Instant}

/-- What a bucket predicts: the units left, and the end of the window. -/
def windowOf (r : Registry) (b : BucketId) : Option (Nat × Option Instant) :=
  (r.bucket? b).map fun x => (x.remaining, x.resetAt)

/-- Changes to a bucket that leave its prediction alone. -/
theorem windowOf_modify {f : Bucket → Bucket} (hremaining : ∀ x, (f x).remaining = x.remaining)
    (hreset : ∀ x, (f x).resetAt = x.resetAt) : (r.modify id f).windowOf b = r.windowOf b := by
  rw [windowOf, bucket?_modify, windowOf]
  split
  case isTrue => cases r.bucket? b <;> simp [hremaining, hreset]
  case isFalse => rfl

/-- The same ways to as many buckets. -/
structure SameWays (r r' : Registry) : Prop where
  routes : r'.routes = r.routes
  tokens : r'.tokens = r.tokens
  length : r'.buckets.length = r.buckets.length

/-- Registries that differ in the calls that they count: the predictions are the same, too. -/
structure Like (r r' : Registry) : Prop extends r.SameWays r' where
  window : ∀ b, r'.windowOf b = r.windowOf b

theorem SameWays.trans (h : r.SameWays r') (h' : r'.SameWays r'') : r.SameWays r'' where
  routes := h'.routes.trans h.routes
  tokens := h'.tokens.trans h.tokens
  length := h'.length.trans h.length

theorem Like.refl (r : Registry) : r.Like r := ⟨⟨rfl, rfl, rfl⟩, fun _ => rfl⟩

theorem Like.trans (h : r.Like r') (h' : r'.Like r'') : r.Like r'' where
  toSameWays := h.toSameWays.trans h'.toSameWays
  window b := (h'.window b).trans (h.window b)

theorem sameWays_block (r : Registry) (id : BucketId) (ending : Instant) :
    r.SameWays (r.block id ending) := ⟨rfl, rfl, length_buckets_modify ..⟩

theorem like_hold (r : Registry) (id : BucketId) : r.Like (r.hold id) where
  routes := rfl
  tokens := rfl
  length := length_buckets_modify ..
  window _ := windowOf_modify (fun _ => rfl) fun _ => rfl

theorem like_release (r : Registry) (id : BucketId) (now : Instant) :
    r.Like (r.release id now) where
  routes := rfl
  tokens := rfl
  length := length_buckets_modify ..
  window _ := windowOf_modify (fun _ => rfl) fun _ => rfl

/-- A route that leads to a bucket is not resolved anew. -/
theorem resolve_of_get? {route : Route} (h : Table.get? route r.routes = some id) :
    r.resolve route now = (r, id) := by
  simp [resolve, h]

theorem resolve_of_none {route : Route} (h : Table.get? route r.routes = none) :
    r.resolve route now = ({ r with
      buckets := r.buckets ++ [Bucket.fresh route.render now]
      routes := Table.put route r.buckets.length r.routes }, r.buckets.length) := by
  simp [resolve, h]

/-- A route or a token leads to a bucket. -/
def LeadsTo (r : Registry) (b : BucketId) : Prop :=
  (∃ route, (route, b) ∈ r.routes) ∨ ∃ token, (token, b) ∈ r.tokens

theorem SameWays.leadsTo (h : r.SameWays r') (hb : r'.LeadsTo b) : r.LeadsTo b := by
  rw [LeadsTo, ← h.routes, ← h.tokens]
  exact hb

theorem leadsTo_resolve {route : Route} (h : (r.resolve route now).1.LeadsTo b) :
    r.LeadsTo b ∨ b = (r.resolve route now).2 := by
  cases hroute : Table.get? route r.routes with
  | some id =>
    rw [resolve_of_get? hroute] at h
    exact .inl h
  | none =>
    rw [resolve_of_none hroute] at h ⊢
    rcases h with ⟨other, h⟩ | h
    · rcases Table.mem_put h with heq | h
      · exact .inr (Prod.mk.inj heq).2
      · exact .inl (.inl ⟨other, h⟩)
    · exact .inl (.inr h)

/-- Whoever learns a token comes to the bucket that has it, or stays. -/
theorem leadsTo_update {route : Route} {limits : Limits}
    (h : (r.update route id limits now).1.LeadsTo b) : r.LeadsTo b ∨ b = id := by
  cases htoken : limits.token with
  | none =>
    simp only [update, htoken] at h
    exact .inl h
  | some token =>
    simp only [update, htoken] at h
    have htarget : ∀ {target}, target = (Table.get? token r.tokens).getD id →
        r.LeadsTo target ∨ target = id := by
      rintro target rfl
      cases hget : Table.get? token r.tokens with
      | none => exact .inr rfl
      | some target => exact .inl (.inr ⟨token, Table.mem_of_get? hget⟩)
    rcases h with ⟨other, h⟩ | ⟨other, h⟩
    · rcases Table.mem_put h with heq | h
      · exact htarget (Prod.mk.inj heq).2
      · exact .inl (.inl ⟨other, h⟩)
    · rcases Table.mem_put h with heq | h
      · exact htarget (Prod.mk.inj heq).2
      · exact .inl (.inr ⟨other, h⟩)

/-- What is left after an eviction was not idle. -/
theorem leadsTo_evict (h : (r.evict now).1.LeadsTo b) : r.LeadsTo b ∧ r.isIdle b now = false := by
  rcases h with ⟨route, h⟩ | ⟨token, h⟩
  · obtain ⟨hmem, hidle⟩ := List.mem_filter.mp h
    exact ⟨.inl ⟨route, hmem⟩, by simpa using hidle⟩
  · obtain ⟨hmem, hidle⟩ := List.mem_filter.mp h
    exact ⟨.inr ⟨token, hmem⟩, by simpa using hidle⟩

theorem length_buckets_resolve (r : Registry) (route : Route) (now : Instant) :
    r.buckets.length ≤ (r.resolve route now).1.buckets.length := by
  unfold resolve
  split <;> simp

@[simp] theorem length_buckets_update (r : Registry) (route : Route) (id : BucketId)
    (limits : Limits) (now : Instant) :
    (r.update route id limits now).1.buckets.length = r.buckets.length := by
  unfold update
  split <;> simp

/-- What a response says is taken over by the bucket that the route has then. -/
theorem bucket?_update (r : Registry) (route : Route) (id : BucketId) (limits : Limits)
    (now : Instant) (b : BucketId) :
    (r.update route id limits now).1.bucket? b =
      (r.modify (r.update route id limits now).2 (·.apply limits now)).bucket? b := by
  unfold update
  split <;> rfl

/-- The bucket of a route exists. -/
theorem resolve_lt (h : ∀ b, r.LeadsTo b → b < r.buckets.length) (route : Route)
    (now : Instant) : (r.resolve route now).2 < (r.resolve route now).1.buckets.length := by
  cases hroute : Table.get? route r.routes with
  | some id =>
    rw [resolve_of_get? hroute]
    exact h id (.inl ⟨route, Table.mem_of_get? hroute⟩)
  | none => simp [resolve_of_none hroute]

/-- A unit that is taken changes one bucket. -/
theorem reserve_ok (h : r.reserve id now = .ok r') :
    (r.bucket? id = none ∧ r' = r) ∨ ∃ x y, r.bucket? id = some x ∧ x.reserve now = .ok y ∧
      r' = { r with buckets := r.buckets.set id y } := by
  unfold reserve at h
  split at h
  case h_1 hnone => exact .inl ⟨hnone, (Except.ok.inj h).symm⟩
  case h_2 x hx =>
    cases hy : x.reserve now with
    | error ending => simp [hy, Except.map] at h
    | ok y =>
      rw [hy] at h
      exact .inr ⟨x, y, hx, hy, (Except.ok.inj h).symm⟩

theorem sameWays_reserve (h : r.reserve id now = .ok r') : r.SameWays r' := by
  rcases reserve_ok h with ⟨-, rfl⟩ | ⟨x, y, -, -, rfl⟩
  · exact (Like.refl _).toSameWays
  · exact ⟨rfl, rfl, List.length_set⟩

end Registry

/-! ## Workers -/

namespace Worker

variable {worker other : Worker} {b : BucketId}

/-- A worker stands in the line of a bucket, or has a call that is pending on it. -/
def Uses (worker : Worker) (b : BucketId) : Prop :=
  worker.stage?.bind Stage.bucket? = some b ∨ ∃ t ∈ worker.tickets, t.bucket = b

theorem uses_of_ticket {t : Ticket} (ht : t ∈ worker.tickets) : worker.Uses t.bucket :=
  .inr ⟨t, ht, rfl⟩

theorem uses_of_stage {p : Progress} (hp : worker.progress = some p)
    (hs : p.stage.bucket? = some b) : worker.Uses b := by
  refine .inl ?_
  rw [stage?, hp]
  exact hs

theorem Uses.mono (h : other.Uses b)
    (hs : other.stage?.bind Stage.bucket? = some b → worker.stage?.bind Stage.bucket? = some b)
    (ht : ∀ t ∈ other.tickets, t ∈ worker.tickets) : worker.Uses b := by
  rcases h with h | ⟨t, hmem, rfl⟩
  · exact .inl (hs h)
  · exact uses_of_ticket (ht t hmem)

theorem Uses.of_accept {t : Ticket} (h : (worker.accept t).Uses b) :
    worker.Uses b ∨ b = t.bucket := by
  rcases h with h | ⟨u, hu, rfl⟩
  · rw [stage?, progress_accept] at h
    exact .inl (.inl h)
  · rcases mem_tickets_accept hu with hmem | rfl
    · exact .inl (uses_of_ticket hmem)
    · exact .inr rfl

end Worker

namespace Dispatcher

variable {d : Dispatcher} {now : Instant} {w : WorkerId} {worker other : Worker}
  {b : BucketId} {P : BucketId → Prop}

/-- Something holds of all buckets that workers use. -/
def Using (workers : List Worker) (P : BucketId → Prop) : Prop :=
  Every workers fun _ worker => ∀ b, worker.Uses b → P b

theorem Using.put (h : Using d.workers P) (hP : ∀ b, other.Uses b → P b) :
    Using (d.put w other).workers P := Every.put h hP

/-- A worker that uses no further bucket. -/
theorem Using.less (h : Using d.workers P) (hw : d.workers[w]? = some worker)
    (hs : ∀ b, other.stage?.bind Stage.bucket? = some b → worker.stage?.bind Stage.bucket? = some b)
    (ht : ∀ t ∈ other.tickets, t ∈ worker.tickets) : Using (d.put w other).workers P :=
  h.put fun b hb => h w worker hw b (hb.mono (hs b) ht)

/-- A worker that goes on with its call, in its line or in none. -/
theorem Using.goes {p p' : Progress} (h : Using d.workers P) (hw : d.workers[w]? = some worker)
    (hp : worker.progress = some p) (ht : p'.ticket = p.ticket)
    (hs : p'.stage.bucket? = none ∨ p'.stage.bucket? = p.stage.bucket?) :
    Using (d.put w { worker with progress := some p' }).workers P := by
  refine h.less hw (fun b hb => ?_) fun t hmem => ?_
  · have hafter : p'.stage.bucket? = some b := hb
    rw [Worker.stage?, hp]
    rcases hs with hs | hs
    · simp [hs] at hafter
    · exact hs.symm.trans hafter
  · simpa [Worker.tickets, Worker.running, hp, ht] using hmem

/-- What a step does to the registry. -/
inductive Registers (d : Dispatcher) (now : Instant) (e : Event)
    (r : Dispatcher × List DispatchEffect) : Prop where
  /-- Nothing, except that calls are counted. -/
  | counts (hlike : d.registry.Like r.1.registry)
      (huse : ∀ P, Using d.workers P → Using r.1.workers P) (hq : ∀ v q, .execute v q ∉ r.2)
  /-- The bucket of a route is used. -/
  | resolves {ρ : Route} (hρ : (∃ id request timeout, e = .submit id ρ request timeout) ∨
        ∃ (v : WorkerId) (worker : Worker), d.workers[v]? = some worker ∧ worker.route = ρ)
      (hlike : (d.registry.resolve ρ now).1.Like r.1.registry)
      (huse : ∀ P, Using d.workers P → P (d.registry.resolve ρ now).2 → Using r.1.workers P)
      (hq : ∀ v q, .execute v q ∉ r.2)
  /-- A unit is taken, and a request begins. -/
  | reserves {w : WorkerId} {worker : Worker} {p : Progress} {b : BucketId}
      (hw : d.workers[w]? = some worker) (hp : worker.progress = some p)
      (hs : p.stage = .reserving b) (hr : d.registry.reserve b now = .ok r.1.registry)
      (huse : ∀ P, Using d.workers P → Using r.1.workers P)
      (hafter : r.1.stageAt w = some (.sending b)) (hq : r.2 = [.execute w p.ticket.request])
  /-- What an answer says is taken over. -/
  | learns {w : WorkerId} {clock : Option Span} {draw : Float} {answer : Answer} {worker : Worker}
      {p : Progress} {b : BucketId} {limits : Limits} (he : e = .receive w clock draw answer)
      (hw : d.workers[w]? = some worker) (hp : worker.progress = some p)
      (hs : p.stage = .sending b) (hl : limits.token = (limitsOf clock answer).token)
      (hways : (d.registry.update worker.route b limits now).1.SameWays r.1.registry)
      (huse : ∀ P, Using d.workers P → Using r.1.workers P) (hq : ∀ v q, .execute v q ∉ r.2)
  /-- What is idle is evicted. -/
  | evicts (he : e = .sweep) (hr : r.1.registry = (d.registry.evict now).1)
      (huse : ∀ P, Using d.workers P → Using r.1.workers P) (hq : ∀ v q, .execute v q ∉ r.2)

theorem like_freed (r : Registry) (now : Instant) (ts : List Ticket) :
    r.Like (freed r now ts) := by
  induction ts generalizing r with
  | nil => exact .refl r
  | cons t rest ih => exact (r.like_release t.bucket now).trans (ih _)

/-- What is learned from an answer: what it says about the bucket, or nothing. -/
theorem like_learned (d : Dispatcher) (now : Instant) (route : Route) (b : BucketId)
    (limits : Limits) (answer : Answer) :
    d.registry.Like (d.learned now route b limits answer) ∨
      (d.registry.update route b limits now).1.Like (d.learned now route b limits answer) := by
  cases answer with
  | lost f => exact .inl (.refl _)
  | response r =>
    cases hr : r.isTooMany with
    | true => exact .inl (by simpa [learned, hr] using Registry.Like.refl _)
    | false => exact .inr (by simpa [learned, hr] using Registry.Like.refl _)

/-- Every step does one of these things to the registry. -/
theorem registers_happens {e : Event} {r : Dispatcher × List DispatchEffect}
    (h : Happens d now e r) : Registers d now e r := by
  have hsame : d.registry.Like d.registry := .refl _
  -- A call that a worker has now is one that it had.
  have hless : ∀ {w worker other}, d.workers[w]? = some worker →
      (∀ b, other.stage?.bind Stage.bucket? = some b → worker.stage?.bind Stage.bucket? = some b) →
      (∀ t ∈ other.tickets, t ∈ worker.tickets) →
      ∀ P, Using d.workers P → Using (d.put w other).workers P :=
    fun hw hs ht P hP => hP.less hw hs ht
  have hgoes : ∀ {w worker} {p p' : Progress}, d.workers[w]? = some worker →
      worker.progress = some p → p'.ticket = p.ticket →
      p'.stage.bucket? = none ∨ p'.stage.bucket? = p.stage.bucket? →
      ∀ P, Using d.workers P → Using (d.put w { worker with progress := some p' }).workers P :=
    fun hw hp ht hs P hP => hP.goes hw hp ht hs
  have hnone : (∀ v, e ≠ .proceed v) → ∀ v q, .execute v q ∉ r.2 :=
    fun he v q hq => he v (execute_of_happens h hq).2.1
  cases h with
  | @assign id route request timeout w worker _ hw _ =>
    refine .resolves (.inl ⟨id, request, timeout, rfl⟩) (Registry.like_hold _ _) ?_
      (hnone (by simp))
    refine fun P hP hnew => hP.put fun b hb => ?_
    rcases hb.of_accept with hb | rfl
    · exact hP w worker hw b hb
    · exact hnew
  | hire id route request timeout _ =>
    refine .resolves (.inl ⟨id, request, timeout, rfl⟩) (Registry.like_hold _ _) ?_
      (hnone (by simp))
    refine fun P hP hnew => Every.append hP fun b hb => ?_
    rcases hb.of_accept with hb | rfl
    · simp [Worker.Uses, Worker.stage?, Worker.tickets, Worker.running] at hb
    · exact hnew
  | idle _ => exact .counts hsame (fun _ hP => hP) (by simp)
  | take hw _ hp hm =>
    refine .counts hsame (hless hw ?_ ?_) (by simp)
    · simp [Worker.stage?, Worker.takes, Stage.bucket?]
    · rw [Worker.tickets_takes hp hm]
      exact fun _ ht => ht
  | retire hw _ _ _ _ => exact .counts hsame (hless hw (fun _ h => h) fun _ h => h) (by simp)
  | cool hw _ hp _ _ _ => exact .counts hsame (hgoes hw hp rfl (.inl rfl)) (by simp)
  | @queue w worker p hw _ hp _ _ =>
    refine .resolves (.inr ⟨w, worker, hw, rfl⟩) (.refl _) (fun P hP hnew => hP.put fun b hb => ?_)
      (by simp)
    rcases hb with hb | ⟨t, ht, rfl⟩
    · obtain rfl := Option.some.inj hb
      exact hnew
    · rw [Worker.tickets_on hp] at ht
      exact hP w worker hw _ (Worker.uses_of_ticket ht)
  | rested hw _ hp _ _ => exact .counts hsame (hgoes hw hp rfl (.inl rfl)) (by simp)
  | first hw _ hp hs _ => exact .counts hsame (hgoes hw hp rfl (.inr (by rw [hs]; rfl))) (by simp)
  | again hw _ hp hs _ => exact .counts hsame (hgoes hw hp rfl (.inr (by rw [hs]; rfl))) (by simp)
  | back hw _ hp _ _ _ =>
    exact .counts hsame (hgoes hw hp rfl (.inl rfl)) fun _ _ => execute_notMem_roused _ _ _ _ _
  | execute hw _ hp hs _ hr =>
    refine .reserves hw hp hs hr (hgoes hw hp rfl (.inr (by rw [hs]; rfl))) ?_ rfl
    refine (stageAt_put hw _ _).trans ?_
    simp [Worker.stage?, Worker.on]
  | stall hw _ hp hs _ _ => exact .counts hsame (hgoes hw hp rfl (.inr (by rw [hs]; rfl))) (by simp)
  | stray _ _ _ _ _ => exact .counts hsame (fun _ hP => hP) (by simp)
  | @done w clock draw answer worker p b hw hp hs _ _ _ =>
    have huse : ∀ P, Using d.workers P →
        Using (d.put w { worker with progress := none }).workers P :=
      hless hw (by simp [Worker.stage?]) (by simp [Worker.tickets, Worker.running]; tauto)
    have hrelease := Registry.like_release
      (d.learned now worker.route b (limitsOf clock answer) answer) p.ticket.bucket now
    rcases d.like_learned now worker.route b (limitsOf clock answer) answer with hl | hl
    · exact .counts (hl.trans hrelease) huse (hnone (by simp))
    · exact .learns rfl hw hp hs rfl (hl.trans hrelease).toSameWays huse (hnone (by simp))
  | @retry w clock draw answer worker p b hw hp hs _ _ _ =>
    rcases d.like_learned now worker.route b (limitsOf clock answer) answer with hl | hl
    · exact .counts hl (hgoes hw hp rfl (.inl rfl)) (hnone (by simp))
    · exact .learns rfl hw hp hs rfl hl.toSameWays (hgoes hw hp rfl (.inl rfl)) (hnone (by simp))
  | pauses _ hw hp _ _ _ _ _ =>
    exact .counts hsame (hgoes hw hp rfl (.inl rfl)) (hnone (by simp))
  | blocks _ hw hp hs _ _ hl _ =>
    exact .learns rfl hw hp hs (by simp [hl, limitsOf]) (Registry.sameWays_block ..)
      (hgoes hw hp rfl (.inl rfl)) (hnone (by simp))
  | nobody _ _ => exact .counts hsame (fun _ hP => hP) (by simp)
  | crash hw =>
    refine .counts (like_freed _ _ _) (hless hw ?_ ?_) (hnone (by simp))
    · simp [Worker.stage?]
    · simp [Worker.tickets, Worker.running]
  | patient _ => exact .counts hsame (fun _ hP => hP) (by simp)
  | report _ _ => exact .counts hsame (fun _ hP => hP) (by simp)
  | giveUp _ _ _ =>
    refine .counts (like_freed _ _ _) (fun P hP => Every.map hP fun _ worker hall b hb => ?_)
      (by simp)
    refine hall b (hb.mono (fun h => h) fun t ht => ?_)
    simp only [Worker.tickets, Worker.running, Worker.forget, List.mem_append, List.mem_filter]
      at ht ⊢
    tauto
  | sweep =>
    exact .evicts rfl rfl (fun P hP => Every.retire hP _ fun _ _ hall => hall) (by simp)
  | pause _ => exact .counts hsame (fun _ hP => hP) (by simp)

/-- Who reads an answer that is no refusal takes over what it says. -/
theorem like_of_answer {w : WorkerId} {clock : Option Span} {draw : Float} {response : Response}
    {r : Dispatcher × List DispatchEffect}
    (h : Happens d now (.receive w clock draw (.response response)) r) {worker : Worker}
    {p : Progress} {b : BucketId} (hw : d.workers[w]? = some worker)
    (hp : worker.progress = some p) (hs : p.stage = .sending b)
    (hr : response.isTooMany = false) :
    (d.registry.update worker.route b (.ofHeaders response.headers clock) now).1.Like
      r.1.registry := by
  have hsame : ∀ {worker' p' b'}, d.workers[w]? = some worker' → worker'.progress = some p' →
      p'.stage = .sending b' → worker' = worker ∧ b' = b := by
    intro worker' p' b' hw' hp' hs'
    obtain ⟨rfl, rfl⟩ := progress_unique hw hp hw' hp'
    exact ⟨rfl, by simpa [hs] using hs'.symm⟩
  have hlearned : d.learned now worker.route b (limitsOf clock (.response response))
      (.response response) =
        (d.registry.update worker.route b (.ofHeaders response.headers clock) now).1 := by
    simp [learned, hr, limitsOf]
  cases h with
  | stray _ _ _ _ hno => exact absurd hs (hno worker p b hw hp)
  | @done w clock draw answer worker' p' b' hw' hp' hs' _ _ _ =>
    obtain ⟨rfl, rfl⟩ := hsame hw' hp' hs'
    rw [← hlearned]
    exact Registry.like_release ..
  | @retry w clock draw answer worker' p' b' hw' hp' hs' _ _ _ =>
    obtain ⟨rfl, rfl⟩ := hsame hw' hp' hs'
    rw [← hlearned]
    exact .refl _
  | pauses _ _ _ _ ht _ _ _ => simp [hr] at ht
  | blocks _ _ _ _ ht _ _ _ => simp [hr] at ht

/-! ## Buckets in use -/

/-- All buckets in use exist. -/
structure Sound (d : Dispatcher) : Prop where
  leads : ∀ b, d.registry.LeadsTo b → b < d.registry.buckets.length
  used : Using d.workers (· < d.registry.buckets.length)

theorem sound_new (policy : RetryPolicy) (timeout idle : Span) :
    (new policy timeout idle).Sound := by
  constructor <;> simp [new, Registry.new, Registry.LeadsTo, Using, Every]

theorem Using.imp {workers : List Worker} {Q : BucketId → Prop} (h : Using workers P)
    (himp : ∀ b, P b → Q b) : Using workers Q :=
  Every.imp h fun _ _ hall b hb => himp b (hall b hb)

/-- The bucket to which a worker has the right. -/
theorem Using.stage (h : Using d.workers P) {p : Progress} (hw : d.workers[w]? = some worker)
    (hp : worker.progress = some p) (hs : p.stage.bucket? = some b) : P b :=
  h w worker hw b (Worker.uses_of_stage hp hs)

/-- Every step uses buckets that exist. -/
theorem sound_registers {e : Event} {r : Dispatcher × List DispatchEffect}
    (h : Registers d now e r) (hs : d.Sound) : r.1.Sound := by
  have hkeeps : d.registry.buckets.length ≤ r.1.registry.buckets.length →
      (∀ P, Using d.workers P → Using r.1.workers P) →
      Using r.1.workers (· < r.1.registry.buckets.length) := fun hle huse =>
    (huse _ hs.used).imp fun _ hb => Nat.lt_of_lt_of_le hb hle
  cases h with
  | counts hlike huse _ =>
    refine ⟨fun b hb => ?_, hkeeps (Nat.le_of_eq hlike.length.symm) huse⟩
    rw [hlike.length]
    exact hs.leads b (hlike.leadsTo hb)
  | @resolves ρ _ hlike huse _ =>
    have hle := d.registry.length_buckets_resolve ρ now
    have hnew := Registry.resolve_lt hs.leads ρ now
    refine ⟨fun b hb => ?_, ?_⟩ <;> rw [hlike.length]
    · rcases Registry.leadsTo_resolve (hlike.leadsTo hb) with hb | rfl
      · exact Nat.lt_of_lt_of_le (hs.leads b hb) hle
      · exact hnew
    · exact huse _ (hs.used.imp fun _ hb => Nat.lt_of_lt_of_le hb hle) hnew
  | reserves _ _ _ hr huse _ _ =>
    have hways := Registry.sameWays_reserve hr
    refine ⟨fun b hb => ?_, hkeeps (Nat.le_of_eq hways.length.symm) huse⟩
    rw [hways.length]
    exact hs.leads b (hways.leadsTo hb)
  | learns _ hw hp hstage _ hways huse _ =>
    have hb := hs.used.stage hw hp (by rw [hstage]; rfl)
    have hlength := hways.length
    rw [Registry.length_buckets_update] at hlength
    refine ⟨fun c hc => ?_, hkeeps (Nat.le_of_eq hlength.symm) huse⟩
    rw [hlength]
    rcases Registry.leadsTo_update (hways.leadsTo hc) with hc | rfl
    · exact hs.leads c hc
    · exact hb
  | evicts _ hr huse _ =>
    have hlength : r.1.registry.buckets.length = d.registry.buckets.length := by
      rw [hr]
      rfl
    refine ⟨fun b hb => ?_, hkeeps (Nat.le_of_eq hlength.symm) huse⟩
    rw [hlength]
    exact hs.leads b (Registry.leadsTo_evict (hr ▸ hb)).1

end Dispatcher

end Switchboard
