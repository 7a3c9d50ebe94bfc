import Switchboard.Proofs.Dispatch.Buckets

/-!
# Tokens and buckets

The server names buckets by tokens, and the registry follows: routes for which it named the same
token last lead to one bucket, the one to which the token leads. So a token and all of its routes
are evicted together.

The converse needs more. A token that the registry does not know gets the bucket for which it was
named, even if that belongs to another token already; from then on the two tokens share a bucket,
and what the server says about one is applied to the routes of the other. As long as this does not
happen to two tokens, their routes lead to different buckets, and nobody learns what is not meant
for them.

## Main definitions

* `Registry.Deed`, `Registry.perform`: what can be done with a registry.
* `Registry.Keyed`: a route and a token lead to one bucket each.
* `Placements`: a registry, with the token under which the server placed each route last.
* `Placements.Apart`: a run never gives one of two tokens the bucket of the other.

## Main results

* `Placements.faithful_next`: what a deed does to routes and their tokens.
* `Placements.bucket_of_token`: routes with one token lead to one bucket, and are evicted with it.
* `Placements.Faithful.shared_of_joins`: if one of two tokens gets the bucket of the other, their
  routes share it.
* `Placements.buckets_of_tokens`: routes with different tokens lead to different buckets, if these
  were kept apart.
-/
namespace Switchboard

namespace Registry

/-! ## What can be done with a registry -/

/-- Something that is done with a registry. -/
inductive Deed where
  | resolve (route : Route) (now : Instant)
  | update (route : Route) (id : BucketId) (limits : Limits) (now : Instant)
  | reserve (id : BucketId) (now : Instant)
  | apply (id : BucketId) (limits : Limits) (now : Instant)
  | block (id : BucketId) (ending : Instant)
  | hold (id : BucketId)
  | release (id : BucketId) (now : Instant)
  | evict (now : Instant)

namespace Deed

/-- It changes one bucket, and no way to any. -/
def isLocal : Deed → Bool
  | .resolve _ _ | .update _ _ _ _ | .evict _ => false
  | .reserve _ _ | .apply _ _ _ | .block _ _ | .hold _ | .release _ _ => true

/-- It neither takes over an answer with what that says about the bucket of a route, nor evicts. -/
def isQuiet : Deed → Bool
  | .update _ _ _ _ | .evict _ => false
  | _ => true

/-- An answer names a token that is not known, for a bucket to which another token leads. -/
def Joins (r : Registry) (token other : String) : Deed → Prop
  | .update _ id limits _ => limits.token = some token ∧ Table.get? token r.tokens = none ∧
      Table.get? other r.tokens = some id
  | _ => False

instance (r : Registry) (token other : String) (deed : Deed) :
    Decidable (deed.Joins r token other) := by
  cases deed <;> simp only [Joins] <;> infer_instance

end Deed

/-- The registry after something was done; a unit that there is not is not taken. -/
def perform (r : Registry) : Deed → Registry
  | .resolve route now => (r.resolve route now).1
  | .update route id limits now => (r.update route id limits now).1
  | .reserve id now => (r.reserve id now).toOption.getD r
  | .apply id limits now => r.modify id (·.apply limits now)
  | .block id ending => r.block id ending
  | .hold id => r.hold id
  | .release id now => r.release id now
  | .evict now => (r.evict now).1

/-- The registry after several things were done. -/
def performAll (r : Registry) (deeds : List Deed) : Registry := deeds.foldl perform r

variable {r r' : Registry} {b id : BucketId} {now : Instant} {ρ : Route}

theorem sameWays_modify (r : Registry) (id : BucketId) (f : Bucket → Bucket) :
    r.SameWays (r.modify id f) := ⟨rfl, rfl, length_buckets_modify ..⟩

theorem sameWays_perform {deed : Deed} (h : deed.isLocal = true) :
    r.SameWays (r.perform deed) := by
  cases deed with
  | reserve id now =>
    cases hr : r.reserve id now with
    | ok r' =>
      simp only [perform, hr]
      exact sameWays_reserve hr
    | error ending =>
      simp only [perform, hr]
      exact (Like.refl r).toSameWays
  | apply id limits now => exact sameWays_modify r id _
  | block id ending => exact sameWays_modify r id _
  | hold id => exact sameWays_modify r id _
  | release id now => exact sameWays_modify r id _
  | resolve _ _ => simp [Deed.isLocal] at h
  | update _ _ _ _ => simp [Deed.isLocal] at h
  | evict _ => simp [Deed.isLocal] at h

/-! ## One bucket for a route and for a token -/

/-- A route and a token lead to one bucket each. -/
structure Keyed (r : Registry) : Prop where
  routes : (Table.keys r.routes).Nodup
  tokens : (Table.keys r.tokens).Nodup

theorem keyed_new (idle : Span) : (new idle).Keyed := by
  constructor <;> simp [new]

theorem Keyed.of_sameWays (h : r.Keyed) (hways : r.SameWays r') : r'.Keyed where
  routes := by rw [hways.routes]; exact h.routes
  tokens := by rw [hways.tokens]; exact h.tokens

theorem Keyed.resolve (h : r.Keyed) (ρ : Route) (now : Instant) : (r.resolve ρ now).1.Keyed := by
  unfold Registry.resolve
  split
  · exact h
  · exact ⟨Table.nodup_put h.routes _ _, h.tokens⟩

theorem Keyed.update (h : r.Keyed) (ρ : Route) (id : BucketId) (limits : Limits) (now : Instant) :
    (r.update ρ id limits now).1.Keyed := by
  unfold Registry.update
  split
  · exact ⟨h.routes, h.tokens⟩
  · exact ⟨Table.nodup_put h.routes _ _, Table.nodup_put h.tokens _ _⟩

theorem Keyed.evict (h : r.Keyed) (now : Instant) : (r.evict now).1.Keyed where
  routes := Table.nodup_filter h.routes _
  tokens := Table.nodup_filter h.tokens _

theorem Keyed.perform (h : r.Keyed) (deed : Deed) : (r.perform deed).Keyed := by
  cases deed with
  | resolve ρ now => exact h.resolve ρ now
  | update ρ id limits now => exact h.update ρ id limits now
  | evict now => exact h.evict now
  | _ => exact h.of_sameWays (sameWays_perform rfl)

/-- An eviction drops the ways to idle buckets. -/
theorem Keyed.get?_routes_evict (h : r.Keyed) (now : Instant) (ρ : Route) :
    Table.get? ρ (r.evict now).1.routes =
      (Table.get? ρ r.routes).filter fun b => !r.isIdle b now :=
  Table.get?_filter h.routes _ ρ

theorem Keyed.get?_tokens_evict (h : r.Keyed) (now : Instant) (token : String) :
    Table.get? token (r.evict now).1.tokens =
      (Table.get? token r.tokens).filter fun b => !r.isIdle b now :=
  Table.get?_filter h.tokens _ token

/-- The routes that an eviction drops are those of idle buckets. -/
theorem Keyed.mem_evict (h : r.Keyed) (now : Instant) (ρ : Route) :
    ρ ∈ (r.evict now).2 ↔ ∃ b, Table.get? ρ r.routes = some b ∧ r.isIdle b now = true := by
  simp only [Registry.evict, List.mem_map, List.mem_filter]
  constructor
  · rintro ⟨⟨route, b⟩, ⟨hmem, hidle⟩, rfl⟩
    exact ⟨b, Table.get?_of_mem h.routes hmem, hidle⟩
  · rintro ⟨b, hget, hidle⟩
    exact ⟨(ρ, b), ⟨Table.mem_of_get? hget, hidle⟩, rfl⟩

/-! ## What becomes of the ways -/

/-- A route that is resolved leads to a bucket; the others lead where they led. -/
theorem get?_routes_resolve_of_ne {other : Route} (h : other ≠ ρ) (now : Instant) :
    Table.get? other (r.resolve ρ now).1.routes = Table.get? other r.routes := by
  unfold Registry.resolve
  split
  · rfl
  · exact Table.get?_put_of_ne h _ _

@[simp] theorem tokens_resolve (r : Registry) (ρ : Route) (now : Instant) :
    (r.resolve ρ now).1.tokens = r.tokens := by
  unfold Registry.resolve
  split <;> rfl

/-- An answer that names no token is taken over by the bucket. -/
theorem update_of_none {limits : Limits} (h : limits.token = none) :
    r.update ρ id limits now = (r.modify id (·.apply limits now), id) := by
  simp [update, h]

/-- An answer that names a token is taken over by the bucket to which the token leads, if it is
known, and the route leads there then. -/
theorem update_of_some {limits : Limits} {token : String} (h : limits.token = some token) :
    r.update ρ id limits now =
      ({ r.modify ((Table.get? token r.tokens).getD id) (·.apply limits now) with
          tokens := Table.put token ((Table.get? token r.tokens).getD id) r.tokens
          routes := Table.put ρ ((Table.get? token r.tokens).getD id) r.routes },
        (Table.get? token r.tokens).getD id) := by
  simp [update, h]

theorem get?_tokens_update {limits : Limits} {token : String}
    (h : limits.token = some token) (other : String) :
    Table.get? other (r.update ρ id limits now).1.tokens =
      if other = token then some (r.update ρ id limits now).2 else Table.get? other r.tokens := by
  simp [update_of_some h, Table.get?_put]

theorem get?_routes_update {limits : Limits} {token : String}
    (h : limits.token = some token) (other : Route) :
    Table.get? other (r.update ρ id limits now).1.routes =
      if other = ρ then some (r.update ρ id limits now).2 else Table.get? other r.routes := by
  simp [update_of_some h, Table.get?_put]

/-- An answer that names a known token is taken over by the bucket to which that leads. -/
theorem update_of_known {limits : Limits} {token : String} (h : limits.token = some token)
    (hknown : Table.get? token r.tokens = some b) : (r.update ρ id limits now).2 = b := by
  simp [update_of_some h, hknown]

/-- One that names a new token is taken over by the bucket for which it was given. -/
theorem update_of_new {limits : Limits} {token : String} (h : limits.token = some token)
    (hnew : Table.get? token r.tokens = none) : (r.update ρ id limits now).2 = id := by
  simp [update_of_some h, hnew]

/-- Without an answer or an eviction, a route that leads to a bucket keeps leading there. -/
theorem get?_routes_perform {deed : Deed} (hquiet : deed.isQuiet = true)
    (h : Table.get? ρ r.routes = some b) : Table.get? ρ (r.perform deed).routes = some b := by
  cases deed with
  | resolve other now =>
    by_cases heq : ρ = other
    · subst heq
      rw [perform, resolve_of_get? h, h]
    · rw [perform, get?_routes_resolve_of_ne heq, h]
  | update _ _ _ _ => simp [Deed.isQuiet] at hquiet
  | evict _ => simp [Deed.isQuiet] at hquiet
  | _ => rw [(sameWays_perform rfl).routes, h]

theorem get?_routes_performAll {deeds : List Deed} (hquiet : ∀ deed ∈ deeds, deed.isQuiet = true)
    (h : Table.get? ρ r.routes = some b) : Table.get? ρ (r.performAll deeds).routes = some b := by
  induction deeds generalizing r with
  | nil => exact h
  | cons deed rest ih =>
    apply ih
    · intro other hmem
      exact hquiet other (List.mem_cons_of_mem _ hmem)
    · exact get?_routes_perform (hquiet deed List.mem_cons_self) h

end Registry

/-! ## Routes and their tokens -/

open Registry

/-- A registry, with the token under which the server placed each route last. -/
structure Placements where
  registry : Registry
  /-- The token in the last answer for a route that named one, since the route last came into the
  registry. -/
  placed : Route → Option String := fun _ => none

namespace Placements

/-- Nothing was done. -/
def begin (idle : Span) : Placements := { registry := .new idle }

/-- Another token for a route, or none. -/
def place (p : Placements) (ρ : Route) (token : Option String) (other : Route) : Option String :=
  if other = ρ then token else p.placed other

/-- Something is done: a route that comes into the registry has no token, and an answer that names
one places its route. -/
def next (p : Placements) (deed : Deed) : Placements where
  registry := p.registry.perform deed
  placed := match deed with
    | .resolve ρ _ => if (Table.get? ρ p.registry.routes).isNone then p.place ρ none else p.placed
    | .update ρ _ limits _ =>
      if limits.token.isSome then p.place ρ limits.token else p.placed
    | _ => p.placed

/-- Several things are done. -/
def run (p : Placements) (deeds : List Deed) : Placements := deeds.foldl next p

/-- A route that was placed under a token leads to the bucket to which the token leads. -/
structure Faithful (p : Placements) : Prop where
  keyed : p.registry.Keyed
  leads : ∀ ρ b token, Table.get? ρ p.registry.routes = some b → p.placed ρ = some token →
    Table.get? token p.registry.tokens = some b

variable {p : Placements} {ρ ρ' : Route} {b b' : BucketId} {token other : String} {now : Instant}

theorem faithful_begin (idle : Span) : (begin idle).Faithful where
  keyed := keyed_new idle
  leads := by simp [begin]

theorem placed_next_of_isLocal {deed : Deed} (h : deed.isLocal = true) :
    (p.next deed).placed = p.placed := by
  cases deed <;> first | rfl | simp [Deed.isLocal] at h

/-- **Every deed** keeps routes and tokens together. -/
theorem faithful_next (h : p.Faithful) (deed : Deed) : (p.next deed).Faithful := by
  refine ⟨h.keyed.perform deed, ?_⟩
  intro ρ b token hroute hplaced
  by_cases hlocal : deed.isLocal = true
  · have hways := sameWays_perform (r := p.registry) hlocal
    rw [placed_next_of_isLocal hlocal] at hplaced
    simp only [next, hways.routes, hways.tokens] at hroute ⊢
    exact h.leads ρ b token hroute hplaced
  cases deed with
  | resolve route now =>
    simp only [next, perform, tokens_resolve] at hroute hplaced ⊢
    by_cases heq : ρ = route
    · subst heq
      cases hget : Table.get? ρ p.registry.routes with
      | none => simp [hget, place] at hplaced
      | some c =>
        rw [resolve_of_get? hget] at hroute
        simp only [hget, Option.isNone_some, Bool.false_eq_true, if_false] at hplaced
        exact h.leads ρ b token hroute hplaced
    · rw [get?_routes_resolve_of_ne heq] at hroute
      have hbefore : p.placed ρ = some token := by
        split at hplaced
        · simpa [place, heq] using hplaced
        · exact hplaced
      exact h.leads ρ b token hroute hbefore
  | update route id limits now =>
    cases htoken : limits.token with
    | none =>
      simp only [next, perform, update_of_none htoken, htoken] at hroute hplaced ⊢
      exact h.leads ρ b token hroute hplaced
    | some named =>
      simp only [next, perform, update_of_some htoken, htoken, Option.isSome_some, if_true,
        Table.get?_put] at hroute hplaced ⊢
      by_cases heq : ρ = route
      · obtain rfl : named = token := by simpa [place, heq] using hplaced
        simpa [heq] using hroute
      · rw [if_neg heq] at hroute
        have hleads : Table.get? token p.registry.tokens = some b :=
          h.leads ρ b token hroute (by simpa [place, heq] using hplaced)
        by_cases hsame : token = named
        · -- A token that is known keeps its bucket.
          subst hsame
          simp [hleads]
        · rw [if_neg hsame]
          exact hleads
  | evict now =>
    simp only [next, perform] at hroute hplaced ⊢
    rw [h.keyed.get?_routes_evict, Option.filter_eq_some_iff] at hroute
    obtain ⟨hroute, hidle⟩ := hroute
    rw [h.keyed.get?_tokens_evict, h.leads ρ b token hroute hplaced]
    simpa using hidle
  | _ => exact absurd rfl hlocal

theorem faithful_run (h : p.Faithful) (deeds : List Deed) : (p.run deeds).Faithful := by
  induction deeds generalizing p with
  | nil => exact h
  | cons deed rest ih =>
    apply ih
    exact faithful_next h deed

/-- A route that was placed under a token goes with it. -/
theorem Faithful.evicted_iff (h : p.Faithful) (hroute : Table.get? ρ p.registry.routes = some b)
    (hplaced : p.placed ρ = some token) (now : Instant) :
    (ρ ∈ (p.registry.evict now).2 ↔
        Table.get? token (p.registry.evict now).1.tokens = none) ∧
      (Table.get? ρ (p.registry.evict now).1.routes = none ↔ ρ ∈ (p.registry.evict now).2) := by
  have htoken := h.leads ρ b token hroute hplaced
  rw [h.keyed.mem_evict, h.keyed.get?_tokens_evict, h.keyed.get?_routes_evict, htoken, hroute]
  constructor <;> simp

/-- **Same token, same bucket**, whatever was done with the registry, with whatever buckets.

Two routes that were placed last under one token lead to one bucket, to which the token leads. An
eviction drops such a route if and only if it drops the token, and so all of them. A route that is
resolved twice has the same bucket if no answer and no eviction came between. -/
theorem bucket_of_token (idle : Span) (deeds : List Deed) :
    let p := (begin idle).run deeds
    (∀ ρ ρ' b b' token, Table.get? ρ p.registry.routes = some b →
      Table.get? ρ' p.registry.routes = some b' → p.placed ρ = some token →
      p.placed ρ' = some token → b = b' ∧ Table.get? token p.registry.tokens = some b) ∧
    (∀ ρ b token now, Table.get? ρ p.registry.routes = some b → p.placed ρ = some token →
      (ρ ∈ (p.registry.evict now).2 ↔
          Table.get? token (p.registry.evict now).1.tokens = none) ∧
        (Table.get? ρ (p.registry.evict now).1.routes = none ↔ ρ ∈ (p.registry.evict now).2)) ∧
    ∀ ρ now later between, (∀ deed ∈ between, deed.isQuiet = true) →
      (((p.registry.resolve ρ now).1.performAll between).resolve ρ later).2 =
        (p.registry.resolve ρ now).2 := by
  intro p
  have h : p.Faithful := faithful_run (faithful_begin idle) deeds
  refine ⟨?_, ?_, ?_⟩
  · intro ρ ρ' b b' token hroute hroute' hplaced hplaced'
    have htoken := h.leads ρ b token hroute hplaced
    have htoken' := h.leads ρ' b' token hroute' hplaced'
    exact ⟨Option.some.inj (htoken.symm.trans htoken'), htoken⟩
  · intro ρ b token now hroute hplaced
    exact h.evicted_iff hroute hplaced now
  · intro ρ now later between hquiet
    have hget := get?_routes_resolve p.registry ρ now
    rw [resolve_of_get? (get?_routes_performAll hquiet hget)]

/-! ### Two routes under one token -/

/-- An answer that names a token and leaves a number of units. -/
def naming (token : String) (remaining : Nat) : Limits :=
  { token := some token, remaining := some remaining }

/-- Two routes are resolved, and the server names the same token for both. -/
def merged : List Deed :=
  [.resolve ⟨"GET", ["a"]⟩ 0, .update ⟨"GET", ["a"]⟩ 0 (naming "x" 4) 0,
    .resolve ⟨"GET", ["b"]⟩ 0, .update ⟨"GET", ["b"]⟩ 1 (naming "x" 3) 0]

/-- The second route moves to the bucket of the first, and an eviction drops both with their
token. -/
theorem bucket_of_token_merged :
    let p := (begin 10).run merged
    p.placed ⟨"GET", ["a"]⟩ = some "x" ∧ p.placed ⟨"GET", ["b"]⟩ = some "x" ∧
      Table.get? "x" p.registry.tokens = some 0 ∧
      Table.get? ⟨"GET", ["b"]⟩ p.registry.routes = some 0 ∧
      Table.get? "x" (p.registry.evict 10).1.tokens = none ∧
      ⟨"GET", ["a"]⟩ ∈ (p.registry.evict 10).2 ∧
      (((p.registry.resolve ⟨"GET", ["b"]⟩ 0).1.performAll [.hold 0]).resolve ⟨"GET", ["b"]⟩ 9).2 =
        (p.registry.resolve ⟨"GET", ["b"]⟩ 0).2 := by
  intro p
  obtain ⟨hbucket, hevicted, hresolved⟩ := bucket_of_token 10 merged
  have ha : Table.get? ⟨"GET", ["a"]⟩ p.registry.routes = some 0 := by decide +kernel
  have hb : Table.get? ⟨"GET", ["b"]⟩ p.registry.routes = some 0 := by decide +kernel
  have hplaced : p.placed ⟨"GET", ["a"]⟩ = some "x" := by decide +kernel
  have hplaced' : p.placed ⟨"GET", ["b"]⟩ = some "x" := by decide +kernel
  have hdropped : Table.get? "x" (p.registry.evict 10).1.tokens = none := by decide +kernel
  refine ⟨hplaced, hplaced', (hbucket _ _ _ _ _ ha hb hplaced hplaced').2, hb, hdropped, ?_, ?_⟩
  · exact (hevicted _ _ _ 10 ha hplaced).1.mpr hdropped
  · exact hresolved _ 0 9 [.hold 0] (by decide)

/-! ## Different tokens -/

/-- Whenever something is done in a run, none of two tokens gets the bucket of the other. -/
def Apart (token other : String) : Placements → List Deed → Prop
  | _, [] => True
  | p, deed :: rest => ¬ deed.Joins p.registry token other ∧ ¬ deed.Joins p.registry other token ∧
      Apart token other (p.next deed) rest

instance decidableApart (token other : String) :
    ∀ p deeds, Decidable (Apart token other p deeds)
  | _, [] => .isTrue trivial
  | p, deed :: rest =>
    have := decidableApart token other (p.next deed) rest
    inferInstanceAs (Decidable (_ ∧ _ ∧ _))

/-- Two tokens do not lead to one bucket. -/
def Separate (r : Registry) (token other : String) : Prop :=
  ∀ b, Table.get? token r.tokens = some b → Table.get? other r.tokens ≠ some b

theorem Separate.symm {r : Registry} (h : Separate r token other) : Separate r other token :=
  fun b hother htoken => h b htoken hother

/-- What is said about one of two tokens is not taken over by the bucket of the other. -/
theorem Separate.target_ne {r : Registry} {id : BucketId} {limits : Limits}
    (h : Separate r token other) (hnamed : limits.token = some token)
    (hjoins : ¬ (Deed.update ρ id limits now).Joins r token other)
    (hother : Table.get? other r.tokens = some b) : (r.update ρ id limits now).2 ≠ b := by
  rintro rfl
  cases htoken : Table.get? token r.tokens with
  | some c =>
    rw [update_of_known hnamed htoken] at hother
    exact h c htoken hother
  | none =>
    rw [update_of_new hnamed htoken] at hother
    exact hjoins ⟨hnamed, htoken, hother⟩

/-- **Every deed** that gives none of two tokens the bucket of the other keeps them separate. -/
theorem separate_perform {r : Registry} (h : Separate r token other) (hr : r.Keyed)
    (hne : token ≠ other) {deed : Deed} (hjoins : ¬ deed.Joins r token other)
    (hjoins' : ¬ deed.Joins r other token) : Separate (r.perform deed) token other := by
  intro b htoken hother
  by_cases hlocal : deed.isLocal = true
  · have hways := sameWays_perform (r := r) hlocal
    rw [hways.tokens] at htoken hother
    exact h b htoken hother
  cases deed with
  | resolve ρ now =>
    simp only [perform, tokens_resolve] at htoken hother
    exact h b htoken hother
  | evict now =>
    simp only [perform, hr.get?_tokens_evict, Option.filter_eq_some_iff] at htoken hother
    exact h b htoken.1 hother.1
  | update ρ id limits now =>
    cases hnamed : limits.token with
    | none =>
      simp only [perform, update_of_none hnamed] at htoken hother
      exact h b htoken hother
    | some named =>
      simp only [perform, get?_tokens_update hnamed] at htoken hother
      by_cases heq : token = named
      · subst heq
        rw [if_pos rfl, Option.some.injEq] at htoken
        rw [if_neg (Ne.symm hne)] at hother
        exact h.target_ne hnamed hjoins hother htoken
      · rw [if_neg heq] at htoken
        by_cases heq' : other = named
        · subst heq'
          rw [if_pos rfl, Option.some.injEq] at hother
          exact h.symm.target_ne hnamed hjoins' htoken hother
        · rw [if_neg heq'] at hother
          exact h b htoken hother
  | _ => exact absurd rfl hlocal

theorem separate_run (h : Separate p.registry token other) (hp : p.Faithful) (hne : token ≠ other)
    {deeds : List Deed} (hapart : Apart token other p deeds) :
    Separate (p.run deeds).registry token other := by
  induction deeds generalizing p with
  | nil => exact h
  | cons deed rest ih =>
    obtain ⟨hjoins, hjoins', hrest⟩ := hapart
    exact ih (separate_perform h hp.keyed hne hjoins hjoins') (faithful_next hp deed) hrest

/-- Two tokens of which one gets the bucket of the other: the route that the answer is for shares
its bucket with every route that was placed under the other token. -/
theorem Faithful.shared_of_joins (h : p.Faithful) {id : BucketId} {limits : Limits}
    (hjoins : (Deed.update ρ id limits now).Joins p.registry token other)
    (hroute : Table.get? ρ' p.registry.routes = some b) (hplaced : p.placed ρ' = some other)
    (hne : ρ' ≠ ρ) :
    let after := p.next (.update ρ id limits now)
    after.placed ρ = some token ∧ after.placed ρ' = some other ∧
      Table.get? ρ after.registry.routes = some id ∧
      Table.get? ρ' after.registry.routes = some id := by
  obtain ⟨hnamed, hnew, hother⟩ := hjoins
  obtain rfl : b = id := Option.some.inj ((h.leads ρ' b other hroute hplaced).symm.trans hother)
  refine ⟨?_, ?_, ?_, ?_⟩
  · simp [next, hnamed, place]
  · simp [next, hnamed, place, hne, hplaced]
  · simp only [next, perform, get?_routes_update hnamed, if_true, update_of_new hnamed hnew]
  · simp only [next, perform, get?_routes_update hnamed, if_neg hne, hroute]

/-- **Different tokens, different buckets**, for two tokens of which none is ever named for the
bucket of the other while it is new.

Two routes that were placed last under the one and under the other lead to different buckets. What
the server says about the one is not taken over by the bucket of any route that was placed under the
other; in particular, a route that was itself placed under the other is led away from its bucket. -/
theorem buckets_of_tokens (idle : Span) (deeds : List Deed) (token other : String)
    (hne : token ≠ other) (hapart : Apart token other (begin idle) deeds) :
    let p := (begin idle).run deeds
    (∀ ρ ρ' b b', Table.get? ρ p.registry.routes = some b →
      Table.get? ρ' p.registry.routes = some b' → p.placed ρ = some token →
      p.placed ρ' = some other → b ≠ b') ∧
    ∀ ρ id limits now, limits.token = some token →
      ¬ (Deed.update ρ id limits now).Joins p.registry token other →
      ∀ ρ' b', Table.get? ρ' p.registry.routes = some b' → p.placed ρ' = some other →
        (p.registry.update ρ id limits now).2 ≠ b' ∧
          (p.registry.update ρ id limits now).1.bucket? b' = p.registry.bucket? b' := by
  intro p
  have h : p.Faithful := faithful_run (faithful_begin idle) deeds
  have hseparate : Separate p.registry token other := by
    apply separate_run _ (faithful_begin idle) hne hapart
    simp [Separate, begin, Registry.new]
  refine ⟨?_, ?_⟩
  · intro ρ ρ' b b' hroute hroute' hplaced hplaced' heq
    subst heq
    exact hseparate b (h.leads ρ b token hroute hplaced) (h.leads ρ' b other hroute' hplaced')
  · intro ρ id limits now hnamed hjoins ρ' b' hroute' hplaced'
    have htarget := hseparate.target_ne hnamed hjoins (h.leads ρ' b' other hroute' hplaced')
    refine ⟨htarget, ?_⟩
    rw [bucket?_update, bucket?_modify, if_neg htarget]

/-! ### A token that changes -/

/-- The server names two tokens for three routes, and then the token of the first for the third. -/
def moved : List Deed :=
  [.resolve ⟨"GET", ["a"]⟩ 0, .update ⟨"GET", ["a"]⟩ 0 (naming "x" 4) 0,
    .resolve ⟨"GET", ["b"]⟩ 0, .update ⟨"GET", ["b"]⟩ 1 (naming "y" 3) 0,
    .resolve ⟨"GET", ["c"]⟩ 0, .update ⟨"GET", ["c"]⟩ 2 (naming "y" 2) 0,
    .update ⟨"GET", ["c"]⟩ 1 (naming "x" 1) 0]

/-- The third route is led away from the second; were it named the second token again, it would come
back, and the first would learn nothing. -/
theorem buckets_of_tokens_moved :
    let p := (begin 10).run moved
    Apart "y" "x" (begin 10) moved ∧ p.placed ⟨"GET", ["c"]⟩ = some "x" ∧
      Table.get? ⟨"GET", ["c"]⟩ p.registry.routes = some 0 ∧
      Table.get? ⟨"GET", ["b"]⟩ p.registry.routes = some 1 ∧ (1 : BucketId) ≠ 0 ∧
      (p.registry.update ⟨"GET", ["c"]⟩ 0 (naming "y" 0) 0).2 = 1 ∧
      (p.registry.update ⟨"GET", ["c"]⟩ 0 (naming "y" 0) 0).1.bucket? 0 = p.registry.bucket? 0 := by
  intro p
  have hapart : Apart "y" "x" (begin 10) moved := by decide +kernel
  obtain ⟨hbuckets, hlearns⟩ := buckets_of_tokens 10 moved "y" "x" (by decide) hapart
  have hb : Table.get? ⟨"GET", ["b"]⟩ p.registry.routes = some 1 := by decide +kernel
  have hc : Table.get? ⟨"GET", ["c"]⟩ p.registry.routes = some 0 := by decide +kernel
  have hplaced : p.placed ⟨"GET", ["b"]⟩ = some "y" := by decide +kernel
  have hplaced' : p.placed ⟨"GET", ["c"]⟩ = some "x" := by decide +kernel
  have hback := hlearns ⟨"GET", ["c"]⟩ 0 (naming "y" 0) 0 rfl (by decide +kernel) _ _ hc hplaced'
  exact ⟨hapart, hplaced', hc, hb, hbuckets _ _ _ _ hb hc hplaced hplaced', by decide +kernel,
    hback.2⟩

/-- A new token for a route that shares its bucket: the route stays with those of the old token, and
what the server says about the new one is theirs, too. -/
theorem buckets_of_tokens_split :
    let p := (begin 10).run merged
    let after := p.next (.update ⟨"GET", ["b"]⟩ 0 (naming "y" 0) 0)
    Table.get? ⟨"GET", ["b"]⟩ p.registry.routes = some 0 ∧
      after.placed ⟨"GET", ["a"]⟩ = some "x" ∧ after.placed ⟨"GET", ["b"]⟩ = some "y" ∧
      Table.get? ⟨"GET", ["a"]⟩ after.registry.routes = some 0 ∧
      Table.get? ⟨"GET", ["b"]⟩ after.registry.routes = some 0 ∧
      (p.registry.bucket? 0).map (·.remaining) = some 3 ∧
      (after.registry.bucket? 0).map (·.remaining) = some 0 := by
  decide +kernel

end Placements

end Switchboard
