import Switchboard.Dispatch.Bucket
import Switchboard.Dispatch.Route

/-!
# The registry of buckets

Which bucket a route uses. A route begins with a bucket of its own; when the server names a bucket
that another route already has, the route moves there. Buckets are named by the order in which they
were made and are never forgotten; what eviction removes is the way to them.

## Main definitions

* `Registry`: the buckets, and which one a route or a token leads to.
* `Registry.resolve`: the bucket of a route.
* `Registry.update`: what a response says, with the move to another bucket.
* `Registry.evict`: removes what is idle.
-/
namespace Switchboard

/-- The number of a bucket. -/
abbrev BucketId := Nat

/-- The buckets, and which one a route or a token leads to. -/
structure Registry where
  /-- How long a bucket must be unused before it is removed. -/
  idleAfter : Span
  /-- All buckets ever made, by number. -/
  buckets : List Bucket := []
  routes : Table Route BucketId := []
  tokens : Table String BucketId := []
deriving Repr

namespace Registry

/-- No bucket was made. -/
def new (idleAfter : Span) : Registry := { idleAfter }

/-- The bucket of a number. -/
def bucket? (r : Registry) (id : BucketId) : Option Bucket := r.buckets[id]?

/-- Changes a bucket. -/
def modify (r : Registry) (id : BucketId) (f : Bucket → Bucket) : Registry :=
  { r with buckets := r.buckets.modify id f }

/-- The bucket of a route; on first sight a fresh one is made. -/
def resolve (r : Registry) (route : Route) (now : Instant) : Registry × BucketId :=
  match Table.get? route r.routes with
  | some id => (r, id)
  | none =>
    let id := r.buckets.length
    ({ r with
        buckets := r.buckets ++ [Bucket.fresh route.render now]
        routes := Table.put route id r.routes }, id)

/-- Takes a unit of a bucket at `now`, or says when there will be one. -/
def reserve (r : Registry) (id : BucketId) (now : Instant) : Except Instant Registry :=
  match r.bucket? id with
  | none => .ok r
  | some b => (b.reserve now).map fun b => { r with buckets := r.buckets.set id b }

/-- Takes over what a response for a route said about its bucket, and says which bucket the route
has now: the one that the token named in the response already has, if there is one. -/
def update (r : Registry) (route : Route) (id : BucketId) (limits : Limits) (now : Instant) :
    Registry × BucketId :=
  match limits.token with
  | none => (r.modify id (·.apply limits now), id)
  | some token =>
    let target := (Table.get? token r.tokens).getD id
    let r := r.modify target (·.apply limits now)
    ({ r with
        tokens := Table.put token target r.tokens
        routes := Table.put route target r.routes }, target)

/-- Holds everybody off a bucket until `ending` at least. -/
def block (r : Registry) (id : BucketId) (ending : Instant) : Registry :=
  r.modify id (·.block ending)

/-- A request on a bucket was submitted. -/
def hold (r : Registry) (id : BucketId) : Registry := r.modify id Bucket.hold

/-- A request on a bucket is done. -/
def release (r : Registry) (id : BucketId) (now : Instant) : Registry := r.modify id (·.release now)

/-- The bucket is idle at `now`. -/
def isIdle (r : Registry) (id : BucketId) (now : Instant) : Bool :=
  (r.bucket? id).any (·.isIdle now r.idleAfter)

/-- Removes the routes and tokens of idle buckets, and says which routes went. -/
def evict (r : Registry) (now : Instant) : Registry × List Route :=
  ({ r with
      routes := r.routes.filter fun p => !r.isIdle p.2 now
      tokens := r.tokens.filter fun p => !r.isIdle p.2 now },
    (r.routes.filter fun p => r.isIdle p.2 now).map (·.1))

@[simp] theorem routes_modify (r : Registry) (id : BucketId) (f : Bucket → Bucket) :
    (r.modify id f).routes = r.routes := rfl

@[simp] theorem tokens_modify (r : Registry) (id : BucketId) (f : Bucket → Bucket) :
    (r.modify id f).tokens = r.tokens := rfl

@[simp] theorem length_buckets_modify (r : Registry) (id : BucketId) (f : Bucket → Bucket) :
    (r.modify id f).buckets.length = r.buckets.length := by simp [modify]

theorem bucket?_modify (r : Registry) (id other : BucketId) (f : Bucket → Bucket) :
    (r.modify id f).bucket? other =
      if id = other then (r.bucket? other).map f else r.bucket? other := by
  simp only [bucket?, modify, List.getElem?_modify]
  split <;> simp

theorem get?_routes_resolve (r : Registry) (route : Route) (now : Instant) :
    Table.get? route (r.resolve route now).1.routes = some (r.resolve route now).2 := by
  unfold resolve
  split <;> simp_all

end Registry

end Switchboard
