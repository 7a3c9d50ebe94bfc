import Switchboard.Dispatch.Call
import Switchboard.Dispatch.Registry
import Switchboard.Pacing.Cooldown

/-!
# The dispatcher

Calls of one route are carried out one after the other, in the order in which they were submitted,
by the worker of the route. Workers share the buckets and the cooldown; of the workers that use the
same bucket, only the first in its line may have a request under way.

The dispatcher is a state and a step for every point at which something becomes visible. Time and
chance come from outside: each step is told the instant at which it happens, a step that needs a
draw gets one, and the answers to requests arrive as steps. Whoever drives it decides in which order
workers go on; what they ask for in return is a list of effects.

## Main definitions

* `Ticket`, `Worker`, `Caller`: a submitted call, who carries it out, and who waits for it.
* `Dispatcher`: the state.
* `Dispatcher.submit`, `Dispatcher.proceed`, `Dispatcher.receive`, `Dispatcher.crash`,
  `Dispatcher.settle`, `Dispatcher.sweep`: the steps.
* `Dispatcher.step`: all of them as one function of an event.
-/
namespace Switchboard

/-- The number of a worker. -/
abbrev WorkerId := Nat

/-- The number of a submitted call. -/
abbrev TicketId := Nat

/-- A submitted call, with the bucket on which it is pending. -/
structure Ticket where
  id : TicketId
  request : Request
  bucket : BucketId
deriving DecidableEq, Repr

/-- Where a worker stands with its call. -/
inductive Stage where
  /-- At the beginning of an attempt. -/
  | fresh
  /-- Waiting for the cooldown to end. -/
  | cooling (ending : Instant)
  /-- In the line of a bucket. -/
  | queued (bucket : BucketId)
  /-- First in the line, without a unit of the bucket. -/
  | reserving (bucket : BucketId)
  /-- First in the line, waiting for the window of the bucket to end. -/
  | stalled (bucket : BucketId) (ending : Instant)
  /-- First in the line, with a request under way. -/
  | sending (bucket : BucketId)
  /-- Waiting before another attempt. -/
  | resting (ending : Instant)
deriving DecidableEq, Repr

/-- A call that is being carried out. -/
structure Progress where
  ticket : Ticket
  tries : Tries
  stage : Stage

/-- The worker of a route. -/
structure Worker where
  route : Route
  progress : Option Progress := none
  /-- Calls in order of submission. -/
  mailbox : List Ticket := []
  /-- Calls for which the mailbox had no room yet. -/
  overflow : List Ticket := []
  /-- No further call will come; the worker ends with the last. -/
  retiring : Bool := false
  alive : Bool := true

/-- Who waits for a call. -/
structure Caller where
  route : Route
  timeout : Span
  deadline : Instant
  /-- The result, as soon as there is one. -/
  reply : Option (Except Failure Response) := none

/-- The state of a dispatcher. -/
structure Dispatcher where
  policy : RetryPolicy
  defaultTimeout : Span
  registry : Registry
  cooldown : Cooldown
  /-- All workers ever made, by number. -/
  workers : List Worker := []
  /-- The worker that takes the calls of a route. -/
  roster : Table Route WorkerId := []
  /-- For each bucket the workers in its line; the first may send. -/
  lines : Table BucketId (List WorkerId) := []
  callers : Table TicketId Caller := []

/-- What a step asks for. -/
inductive DispatchEffect where
  /-- The request begins. -/
  | execute (worker : WorkerId) (request : Request)
  /-- The worker can go on now. -/
  | wakeWorker (worker : WorkerId)
  /-- The worker can go on at that instant. -/
  | wakeWorkerAt (worker : WorkerId) (time : Instant)
  /-- There is a result for the caller. -/
  | wakeCaller (ticket : TicketId)
  /-- The call is over for its caller. -/
  | finished (ticket : TicketId) (result : Except Failure Response)
  /-- A sweep retired so many routes. -/
  | swept (count : Nat)

/-- Calls that a mailbox has room for. -/
def mailboxRoom : Nat := 64

namespace Worker

/-- Adds a call at the end. -/
def accept (w : Worker) (t : Ticket) : Worker :=
  if w.mailbox.length < mailboxRoom then { w with mailbox := w.mailbox ++ [t] }
  else { w with overflow := w.overflow ++ [t] }

/-- Takes the next call out of the mailbox; the first that had no room moves in. -/
def next? (w : Worker) : Option (Ticket × Worker) :=
  match w.mailbox with
  | [] => none
  | t :: rest =>
    some (t, { w with mailbox := rest ++ w.overflow.take 1, overflow := w.overflow.drop 1 })

/-- The call is carried out from its beginning. -/
def undertake (w : Worker) (p : RetryPolicy) (t : Ticket) : Worker :=
  { w with progress := some ⟨t, Tries.new p, .fresh⟩ }

/-- Where the worker stands, if it has a call. -/
def stage? (w : Worker) : Option Stage := w.progress.map (·.stage)

/-- Moves on to a stage. -/
def enter (w : Worker) (stage : Stage) : Worker :=
  { w with progress := w.progress.map fun p => { p with stage } }

end Worker

namespace Dispatcher

/-- A dispatcher without calls. -/
def new (policy : RetryPolicy) (defaultTimeout idleAfter : Span) : Dispatcher :=
  { policy, defaultTimeout, registry := .new idleAfter, cooldown := .none }

/-- The dispatcher of a configuration. -/
def ofConfig (c : Config) : Dispatcher :=
  new (.ofConfig c) (Span.ofMillis c.requestTimeoutDefaultMs)
    (Span.ofMillis c.bucketIdleEvictionIntervalMs)

/-- Changes a worker. -/
def modifyWorker (d : Dispatcher) (w : WorkerId) (f : Worker → Worker) : Dispatcher :=
  { d with workers := d.workers.modify w f }

/-- The workers in the line of a bucket. -/
def line (d : Dispatcher) (bucket : BucketId) : List WorkerId :=
  (Table.get? bucket d.lines).getD []

/-- A worker joins the line of a bucket. -/
def join (d : Dispatcher) (bucket : BucketId) (w : WorkerId) : Dispatcher :=
  { d with lines := Table.put bucket (d.line bucket ++ [w]) d.lines }

/-- A worker leaves the line of a bucket, and the one that is first then can go on. -/
def leave (d : Dispatcher) (bucket : BucketId) (w : WorkerId) : Dispatcher × List DispatchEffect :=
  let rest := (d.line bucket).erase w
  ({ d with lines := Table.put bucket rest d.lines }, (rest.take 1).map .wakeWorker)

/-! ## Submission -/

/-- The worker that takes the calls of a route; one that is not there or not alive is made anew. -/
def workerFor (d : Dispatcher) (route : Route) : Dispatcher × WorkerId :=
  let known := (Table.get? route d.roster).filter fun w => (d.workers[w]?).any (·.alive)
  match known with
  | some w => (d, w)
  | none =>
    let w := d.workers.length
    ({ d with workers := d.workers ++ [{ route }], roster := Table.put route w d.roster }, w)

/-- A call is submitted: it is pending on the bucket that the route has now, and waits for its turn.
-/
def submit (d : Dispatcher) (now : Instant) (id : TicketId) (route : Route) (request : Request)
    (timeout : Option Span) : Dispatcher × List DispatchEffect :=
  let timeout := timeout.getD d.defaultTimeout
  let (registry, bucket) := d.registry.resolve route now
  let d := { d with registry := registry.hold bucket }
  let (d, w) := d.workerFor route
  let d := d.modifyWorker w (·.accept ⟨id, request, bucket⟩)
  ({ d with callers := Table.put id { route, timeout, deadline := now + timeout } d.callers },
    [.wakeWorker w])

/-! ## The work of a worker -/

/-- The result of a call reaches its caller, if that one still waits. -/
def deliver (d : Dispatcher) (id : TicketId) (result : Except Failure Response) :
    Dispatcher × List DispatchEffect :=
  match Table.get? id d.callers with
  | some c => ({ d with callers := Table.put id { c with reply := some result } d.callers },
      [.wakeCaller id])
  | none => (d, [])

/-- A call is over: it is not pending any more, and its worker is free. -/
def complete (d : Dispatcher) (now : Instant) (w : WorkerId) (t : Ticket)
    (result : Except Failure Response) : Dispatcher × List DispatchEffect :=
  let d := { d with registry := d.registry.release t.bucket now }
  (d.modifyWorker w ({ · with progress := none })).deliver t.id result

/-- At the beginning of an attempt: waits for the cooldown, and joins the line of the bucket that
the route has now. -/
def beginAttempt (d : Dispatcher) (now : Instant) (w : WorkerId) (route : Route) :
    Dispatcher × List DispatchEffect :=
  let (cooldown, left) := d.cooldown.remaining now
  let d := { d with cooldown }
  match left with
  | some wait =>
    (d.modifyWorker w (·.enter (.cooling (now + wait))), [.wakeWorkerAt w (now + wait)])
  | none =>
    let (registry, bucket) := d.registry.resolve route now
    ((({ d with registry }).join bucket w).modifyWorker w (·.enter (.queued bucket)), [])

/-- First in the line: under a cooldown the attempt begins anew; with a unit of the bucket the
request goes out; without one, the worker waits for the end of the window. -/
def tryReserve (d : Dispatcher) (now : Instant) (w : WorkerId) (bucket : BucketId)
    (request : Request) : Dispatcher × List DispatchEffect :=
  let (cooldown, left) := d.cooldown.remaining now
  let d := { d with cooldown }
  if left.isSome then (d.modifyWorker w (·.enter .fresh)).leave bucket w
  else
    match d.registry.reserve bucket now with
    | .ok registry =>
      (({ d with registry }).modifyWorker w (·.enter (.sending bucket)), [.execute w request])
    | .error ending =>
      (d.modifyWorker w (·.enter (.stalled bucket ending)), [.wakeWorkerAt w ending])

/-- A worker with a call goes on; `none` when it has to wait. -/
def proceedWith (d : Dispatcher) (now : Instant) (w : WorkerId) (route : Route) (p : Progress) :
    Option (Dispatcher × List DispatchEffect) :=
  let resume (stage : Stage) := some (d.modifyWorker w (·.enter stage), [])
  match p.stage with
  | .fresh => some (d.beginAttempt now w route)
  | .cooling ending => if ending ≤ now then resume .fresh else none
  | .queued bucket => if (d.line bucket).head? = some w then resume (.reserving bucket) else none
  | .reserving bucket => some (d.tryReserve now w bucket p.ticket.request)
  | .stalled bucket ending => if ending ≤ now then resume (.reserving bucket) else none
  | .sending _ => none
  | .resting ending => if ending ≤ now then resume .fresh else none

/-- A worker goes on by one step; `none` when it has to wait. -/
def proceed (d : Dispatcher) (now : Instant) (w : WorkerId) :
    Option (Dispatcher × List DispatchEffect) :=
  match d.workers[w]? with
  | none => none
  | some worker =>
    if !worker.alive then none
    else
      match worker.progress with
      | some p => d.proceedWith now w worker.route p
      | none =>
        match worker.next? with
        | some (t, _) =>
          some (d.modifyWorker w fun worker =>
            ((worker.next?.map (·.2)).getD worker).undertake d.policy t, [])
        | none =>
          if worker.retiring then some (d.modifyWorker w ({ · with alive := false }), []) else none

/-- What a refusal under a rate limit changes: everybody waits, or everybody on the bucket that the
route has then. -/
def applyRefusal (d : Dispatcher) (now : Instant) (route : Route) (bucket : BucketId)
    (limits : Limits) (wait : Span) : Dispatcher :=
  let ending := deadlineAfter now wait
  if limits.isGlobal then { d with cooldown := d.cooldown.trigger ending }
  else
    let (registry, target) := d.registry.update route bucket limits now
    { d with registry := registry.block target ending }

/-- What an answer tells about the bucket of the request. -/
def learn (d : Dispatcher) (now : Instant) (route : Route) (bucket : BucketId) (limits : Limits) :
    Answer → Dispatcher
  | .response r =>
    if r.isTooMany then d
    else { d with registry := (d.registry.update route bucket limits now).1 }
  | .lost _ => d

/-- What the headers of an answer say. -/
def limitsOf (clock : Option Span) : Answer → Limits
  | .response r => .ofHeaders r.headers clock
  | .lost _ => {}

/-- The answer to the request of a worker arrives. -/
def receive (d : Dispatcher) (now : Instant) (w : WorkerId) (clock : Option Span) (draw : Float)
    (answer : Answer) : Dispatcher × List DispatchEffect :=
  match d.workers[w]? with
  | some ⟨route, some ⟨ticket, tries, .sending bucket⟩, _, _, _, _⟩ =>
    let limits := limitsOf clock answer
    let d := d.learn now route bucket limits answer
    let (tries, verdict) := tries.judge d.policy route limits draw answer
    let keep (stage : Stage) (d : Dispatcher) :=
      d.modifyWorker w ({ · with progress := some ⟨ticket, tries, stage⟩ })
    match verdict with
    | .done result =>
      let (d, woken) := d.leave bucket w
      let (d, told) := d.complete now w ticket result
      (d, woken ++ told)
    | .retry delay =>
      let (d, woken) := d.leave bucket w
      (keep (.resting (now + delay)) d, woken ++ [.wakeWorkerAt w (now + delay)])
    | .limited limits wait =>
      let (d, woken) := (d.applyRefusal now route bucket limits wait).leave bucket w
      (keep .fresh d, woken)
  | _ => (d, [])

/-! ## The end of workers -/

/-- What the caller of a call hears when the worker of the route died with it. -/
def orphaned (route : Route) : Failure :=
  .unavailable ("route worker for " ++ route.render ++ " stopped")

/-- Calls that will never be carried out are over with this failure. -/
def abandon (d : Dispatcher) (now : Instant) (failure : Failure) :
    List Ticket → Dispatcher × List DispatchEffect
  | [] => (d, [])
  | t :: rest =>
    let d := { d with registry := d.registry.release t.bucket now }
    let (d, told) := d.deliver t.id (.error failure)
    let (d, more) := abandon d now failure rest
    (d, told ++ more)

/-- A worker dies in the middle of a call, and all its calls with it. -/
def crash (d : Dispatcher) (now : Instant) (w : WorkerId) : Dispatcher × List DispatchEffect :=
  match d.workers[w]? with
  | none => (d, [])
  | some worker =>
    let (d, woken) := match worker.stage? with
      | some (.queued bucket) | some (.reserving bucket) | some (.stalled bucket _)
      | some (.sending bucket) => d.leave bucket w
      | _ => (d, [])
    let d := d.modifyWorker w fun worker => { route := worker.route, alive := false }
    let running := (worker.progress.map (·.ticket)).toList
    let (d, told) := d.abandon now (orphaned worker.route) (running ++ worker.mailbox)
    let (d, more) := d.abandon now .notRunning worker.overflow
    (d, woken ++ told ++ more)

/-- Removes the idle buckets and sends the workers of their routes into retirement. -/
def sweep (d : Dispatcher) (now : Instant) : Dispatcher × List DispatchEffect :=
  let (registry, retired) := d.registry.evict now
  let workers := retired.filterMap fun route => Table.get? route d.roster
  let d := { d with
    registry
    roster := d.roster.filter fun p => !retired.contains p.1 }
  (workers.foldl (fun d w => d.modifyWorker w ({ · with retiring := true })) d,
    workers.map .wakeWorker ++ [.swept retired.length])

/-! ## The caller -/

/-- What a caller hears that waited long enough. -/
def overdue (c : Caller) : Failure :=
  .timeout (c.route.render ++ " after " ++ toString (Span.toMillis c.timeout) ++ "ms")

/-- A call that still waits for room in a mailbox is withdrawn. -/
def withdraw (d : Dispatcher) (now : Instant) (id : TicketId) : Dispatcher :=
  let waiting := d.workers.flatMap fun worker => worker.overflow.filter (·.id = id)
  { d with
    registry := waiting.foldl (fun r t => r.release t.bucket now) d.registry
    workers := d.workers.map fun worker =>
      { worker with overflow := worker.overflow.filter (·.id ≠ id) } }

/-- A caller looks for its result. At its deadline it gives up, while the call keeps its place;
`none` when it has to wait. -/
def settle (d : Dispatcher) (now : Instant) (id : TicketId) :
    Option (Dispatcher × List DispatchEffect) :=
  match Table.get? id d.callers with
  | none => none
  | some c =>
    match c.reply with
    | some result => some ({ d with callers := Table.erase id d.callers }, [.finished id result])
    | none =>
      if c.deadline ≤ now then
        some (({ d with callers := Table.erase id d.callers }).withdraw now id,
          [.finished id (.error (overdue c))])
      else none

/-! ## Events -/

/-- Everybody waits until an instant at least. -/
def pause (d : Dispatcher) (ending : Instant) : Dispatcher :=
  { d with cooldown := d.cooldown.trigger ending }

/-- Something that happens to a dispatcher. -/
inductive Event where
  | submit (id : TicketId) (route : Route) (request : Request) (timeout : Option Span)
  | proceed (worker : WorkerId)
  | receive (worker : WorkerId) (clock : Option Span) (draw : Float) (answer : Answer)
  | crash (worker : WorkerId)
  | settle (ticket : TicketId)
  | sweep
  | pause (ending : Instant)

/-- What happens when an event takes place at `now`; one that is not due changes nothing. -/
def step (d : Dispatcher) (now : Instant) : Event → Dispatcher × List DispatchEffect
  | .submit id route request timeout => d.submit now id route request timeout
  | .proceed w => (d.proceed now w).getD (d, [])
  | .receive w clock draw answer => d.receive now w clock draw answer
  | .crash w => d.crash now w
  | .settle id => (d.settle now id).getD (d, [])
  | .sweep => d.sweep now
  | .pause ending => (d.pause ending, [])

/-- The state after a list of events, and what was asked for on the way, each with its instant. -/
def run (d : Dispatcher) : List (Instant × Event) → Dispatcher × List (Instant × DispatchEffect)
  | [] => (d, [])
  | (now, e) :: rest =>
    let (d, effects) := d.step now e
    let (d, later) := run d rest
    (d, effects.map (now, ·) ++ later)

end Dispatcher

end Switchboard
