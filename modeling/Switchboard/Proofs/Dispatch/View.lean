import Mathlib.Data.Nat.Count
import Switchboard.Proofs.Dispatch.Buckets

/-!
# A dispatcher as seen from a side

The routes of a dispatcher are on two sides. What is seen from one of them is a dispatcher, too: it
has the calls, workers and buckets of that side only, numbered among themselves.

## Main definitions

* `place`, `pick`: the numbers of a kind among themselves, and the entries of a list at them.
* `Table.part`: the entries of a table whose keys are of a kind, with other names.
* `Side`, `View`: what is on a side.
* `Dispatcher.seen`: a dispatcher as seen from a side.

## Main results

* `Registry.seen_resolve`, `Registry.seen_update`, `Registry.seen_evict` and others: what is done to
  the registry on a side is done to what is seen of it, and what is done on the other side is not
  seen.
* `View.workers_set`, `View.callers_answered`, `Dispatcher.lines_without` and others: the same for
  workers, callers and lines.
-/
namespace Switchboard

/-! ## Numbers of a kind -/

section Pick

variable {α β : Type} {p : Nat → Bool} {n : Nat} {x : α} {f : α → α}

/-- The place of a number among those of a kind. -/
def place (p : Nat → Bool) (n : Nat) : Nat := Nat.count (fun k => p k = true) n

/-- The entries of a list at the numbers of a kind. -/
def pick (p : Nat → Bool) : List α → List α
  | [] => []
  | x :: rest =>
    if p 0 then x :: pick (fun n => p (n + 1)) rest else pick (fun n => p (n + 1)) rest

theorem place_inj {m : Nat} (hm : p m = true) (hn : p n = true) (h : place p m = place p n) :
    m = n := Nat.count_injective hm hn h

theorem place_succ (p : Nat → Bool) (n : Nat) :
    place p (n + 1) = place (fun k => p (k + 1)) n + if p 0 then 1 else 0 :=
  Nat.count_succ' ..

theorem getElem?_pick (h : p n = true) (l : List α) : (pick p l)[place p n]? = l[n]? := by
  induction l generalizing p n with
  | nil => rfl
  | cons x rest ih =>
    cases n with
    | zero => simp [pick, h, place]
    | succ n =>
      rw [place_succ, List.getElem?_cons_succ, ← ih (p := fun k => p (k + 1)) h]
      cases h0 : p 0 <;> simp [pick, h0]

theorem length_pick (p : Nat → Bool) (l : List α) : (pick p l).length = place p l.length := by
  induction l generalizing p with
  | nil => rfl
  | cons x rest ih => cases h0 : p 0 <;> simp [pick, h0, place_succ, ih]

theorem pick_map (p : Nat → Bool) (f : α → β) (l : List α) :
    pick p (l.map f) = (pick p l).map f := by
  induction l generalizing p with
  | nil => rfl
  | cons x rest ih => cases h0 : p 0 <;> simp [pick, h0, ih]

theorem pick_append (p : Nat → Bool) (l : List α) (x : α) :
    pick p (l ++ [x]) = pick p l ++ if p l.length then [x] else [] := by
  induction l generalizing p with
  | nil => simp [pick]
  | cons y rest ih => cases h0 : p 0 <;> simp [pick, h0, ih]

/-- What is picked depends on the entries at the numbers of the kind. -/
theorem pick_congr {l l' : List α} (hlen : l'.length = l.length)
    (h : ∀ n, p n = true → l'[n]? = l[n]?) : pick p l' = pick p l := by
  induction l generalizing p l' with
  | nil => rw [List.eq_nil_of_length_eq_zero hlen]
  | cons x rest ih =>
    obtain ⟨y, rest', rfl⟩ := List.exists_cons_of_length_eq_add_one hlen
    have hrest : pick (fun n => p (n + 1)) rest' = pick (fun n => p (n + 1)) rest :=
      ih (by simpa using hlen) fun n hn => by simpa using h (n + 1) hn
    cases h0 : p 0 with
    | false => simp [pick, h0, hrest]
    | true =>
      obtain rfl : y = x := by simpa using h 0 h0
      simp [pick, h0, hrest]

theorem pick_modify (h : p n = true) (l : List α) :
    pick p (l.modify n f) = (pick p l).modify (place p n) f := by
  induction l generalizing p n with
  | nil => simp [pick]
  | cons x rest ih =>
    cases n with
    | zero => simp [pick, h, place]
    | succ n =>
      have hrest := ih (p := fun k => p (k + 1)) h
      cases h0 : p 0 <;> simp [pick, h0, place_succ, hrest]

theorem pick_set (h : p n = true) (l : List α) :
    pick p (l.set n x) = (pick p l).set (place p n) x := by
  rw [List.set_eq_modify, pick_modify h, List.set_eq_modify]

theorem pick_modify_of_not (h : p n = false) (l : List α) : pick p (l.modify n f) = pick p l := by
  refine pick_congr (List.length_modify ..) fun m hm => ?_
  have hne : n ≠ m := by
    rintro rfl
    simp [h] at hm
  simp [hne]

theorem pick_set_of_not (h : p n = false) (l : List α) : pick p (l.set n x) = pick p l := by
  rw [List.set_eq_modify, pick_modify_of_not h]

/-- Entries that give nothing need not be picked. -/
theorem flatMap_pick {g : α → List β} {l : List α}
    (h : ∀ n x, l[n]? = some x → p n = false → g x = []) : (pick p l).flatMap g = l.flatMap g := by
  induction l generalizing p with
  | nil => rfl
  | cons x rest ih =>
    have hrest := ih (p := fun n => p (n + 1)) fun n y hy hn => h (n + 1) y (by simpa using hy) hn
    cases h0 : p 0 with
    | true => simp [pick, h0, hrest]
    | false => simp [pick, h0, hrest, h 0 x rfl h0]

end Pick

/-! ## Parts of tables -/

namespace Table

variable {κ κ' α β : Type} {p : κ → Bool} {f : κ → κ'} {g : α → β} {key : κ}

/-- The entries whose keys are of a kind, with other names for keys and values. -/
def part (p : κ → Bool) (f : κ → κ') (g : α → β) (t : Table κ α) : Table κ' β :=
  (t.filter fun x => p x.1).map fun x => (f x.1, g x.2)

/-- Different keys of the kind have different names. -/
def Names (p : κ → Bool) (f : κ → κ') : Prop :=
  ∀ k k', p k = true → p k' = true → f k = f k' → k = k'

theorem names_id (p : κ → Bool) : Names p id := fun _ _ _ _ h => h

theorem part_cons (k : κ) (v : α) (rest : Table κ α) :
    part p f g ((k, v) :: rest) =
      if p k then (f k, g v) :: part p f g rest else part p f g rest := by
  cases h : p k <;> simp [part, h]

variable [DecidableEq κ] [DecidableEq κ']

theorem get?_part (hf : Names p f) (h : p key = true) (t : Table κ α) :
    get? (f key) (part p f g t) = (get? key t).map g := by
  induction t with
  | nil => rfl
  | cons x rest ih =>
    obtain ⟨k, v⟩ := x
    rw [part_cons]
    by_cases hk : k = key
    · subst hk
      simp [h, get?]
    · have hne : p k = true → f k ≠ f key := fun hp heq => hk (hf k key hp h heq)
      cases hp : p k with
      | false => simp [get?, hk, ih]
      | true => simp [get?, hk, hne hp, ih]

theorem part_put (hf : Names p f) (h : p key = true) (value : α) (t : Table κ α) :
    part p f g (put key value t) = put (f key) (g value) (part p f g t) := by
  induction t with
  | nil => simp [put, part, h]
  | cons x rest ih =>
    obtain ⟨k, v⟩ := x
    rw [part_cons, put]
    by_cases hk : k = key
    · subst hk
      simp [part_cons, h, put]
    · have hne : p k = true → f k ≠ f key := fun hp heq => hk (hf k key hp h heq)
      cases hp : p k with
      | false => simp [hk, part_cons, hp, ih]
      | true => simp [hk, part_cons, hp, put, hne hp, ih]

omit [DecidableEq κ'] in
theorem part_put_of_not (h : p key = false) (value : α) (t : Table κ α) :
    part p f g (put key value t) = part p f g t := by
  induction t with
  | nil => simp [put, part, h]
  | cons x rest ih =>
    obtain ⟨k, v⟩ := x
    rw [put]
    by_cases hk : k = key
    · subst hk
      simp [part_cons, h]
    · simp [hk, part_cons, ih]

omit [DecidableEq κ] [DecidableEq κ'] in
/-- Entries are kept or go as the entries of the part do. -/
theorem part_filter {q : κ × α → Bool} {u : κ' × β → Bool} {t : Table κ α}
    (h : ∀ x ∈ t, p x.1 = true → u (f x.1, g x.2) = q x) :
    part p f g (t.filter q) = (part p f g t).filter u := by
  rw [part, part, List.filter_map, List.filter_filter, List.filter_filter]
  refine congrArg _ (List.filter_congr fun x hx => ?_)
  cases hp : p x.1 with
  | false => simp
  | true => simp [h x hx hp]

theorem part_erase (hf : Names p f) (h : p key = true) (t : Table κ α) :
    part p f g (erase key t) = erase (f key) (part p f g t) := by
  refine part_filter fun x _ hx => ?_
  by_cases hk : x.1 = key
  · simp [hk]
  · have hne : f x.1 ≠ f key := fun heq => hk (hf _ _ hx h heq)
    simp [hk, hne]

omit [DecidableEq κ'] in
theorem part_erase_of_not (h : p key = false) (t : Table κ α) :
    part p f g (erase key t) = part p f g t := by
  have hall : part p f g t = (part p f g t).filter fun _ => true := by simp
  rw [hall]
  refine part_filter fun x _ hx => ?_
  have hk : x.1 ≠ key := by
    rintro rfl
    simp [h] at hx
  simp [hk]

end Table

/-! ## Sides -/

/-- What is on a side, as far as it is known outside of the dispatcher. -/
structure Side where
  route : Route → Bool
  call : TicketId → Bool
  worker : WorkerId → Bool

/-- The number of a worker among those of the side. -/
def Side.number (s : Side) (w : WorkerId) : WorkerId := place s.worker w

/-- What is on a side, with what is known inside only. -/
structure View extends Side where
  token : String → Bool
  bucket : BucketId → Bool

/-- The number of a bucket among those of the side. -/
def View.rank (s : View) (b : BucketId) : BucketId := place s.bucket b

/-! ## The registry -/

namespace Registry

variable {s : View} {r r' : Registry} {ρ : Route} {b : BucketId} {limits : Limits} {now : Instant}
  {x : Bool}

/-- A registry as seen from a side. -/
def seen (s : View) (r : Registry) : Registry where
  idleAfter := r.idleAfter
  buckets := pick s.bucket r.buckets
  routes := Table.part s.route id s.rank r.routes
  tokens := Table.part s.token id s.rank r.tokens

/-- Routes and tokens lead to buckets of their own side. -/
structure Parted (s : View) (r : Registry) : Prop where
  routes : ∀ ρ b, (ρ, b) ∈ r.routes → s.bucket b = s.route ρ
  tokens : ∀ token b, (token, b) ∈ r.tokens → s.bucket b = s.token token

theorem bucket?_seen (h : s.bucket b = true) : (r.seen s).bucket? (s.rank b) = r.bucket? b :=
  getElem?_pick h _

theorem seen_modify (h : s.bucket b = true) (f : Bucket → Bucket) :
    (r.modify b f).seen s = (r.seen s).modify (s.rank b) f := by
  simp only [seen, modify, pick_modify h, View.rank]

theorem seen_release (h : s.bucket b = true) :
    (r.release b now).seen s = (r.seen s).release (s.rank b) now := seen_modify h _

theorem seen_modify_of_not (h : s.bucket b = false) (f : Bucket → Bucket) :
    (r.modify b f).seen s = r.seen s := by
  simp only [seen, modify, pick_modify_of_not h]

theorem get?_routes_seen (h : s.route ρ = true) :
    Table.get? ρ (r.seen s).routes = (Table.get? ρ r.routes).map s.rank :=
  Table.get?_part (Table.names_id _) h _

theorem seen_resolve (h : s.route ρ = true) (hb : s.bucket (r.resolve ρ now).2 = true) :
    (r.seen s).resolve ρ now = ((r.resolve ρ now).1.seen s, s.rank (r.resolve ρ now).2) := by
  have hseen := get?_routes_seen (r := r) h
  cases hget : Table.get? ρ r.routes with
  | some id =>
    rw [hget] at hseen
    rw [resolve_of_get? hseen, resolve_of_get? hget]
  | none =>
    rw [hget] at hseen
    rw [resolve_of_none hget] at hb ⊢
    rw [resolve_of_none hseen]
    have hlen : (r.seen s).buckets.length = s.rank r.buckets.length := length_pick ..
    have hput := Table.part_put (g := s.rank) (Table.names_id _) h r.buckets.length r.routes
    rw [hlen]
    simp only [seen, pick_append, hb, if_true, hput, id]

theorem seen_resolve_of_not (h : s.route ρ = false)
    (hb : s.bucket (r.resolve ρ now).2 = false) : (r.resolve ρ now).1.seen s = r.seen s := by
  cases hget : Table.get? ρ r.routes with
  | some id => rw [resolve_of_get? hget]
  | none =>
    rw [resolve_of_none hget] at hb ⊢
    simp [seen, pick_append, hb, Table.part_put_of_not h]

theorem seen_reserve (h : s.bucket b = true) :
    (r.seen s).reserve (s.rank b) now = (r.reserve b now).map (·.seen s) := by
  rw [reserve, bucket?_seen h, reserve]
  cases r.bucket? b with
  | none => rfl
  | some y =>
    cases hy : y.reserve now with
    | error ending => simp only [hy, Except.map]
    | ok z => simp only [hy, Except.map, seen, pick_set h, View.rank]

theorem seen_reserve_of_not (h : s.bucket b = false) (hr : r.reserve b now = .ok r') :
    r'.seen s = r.seen s := by
  rcases reserve_ok hr with ⟨-, rfl⟩ | ⟨x, y, -, -, rfl⟩
  · rfl
  · simp only [seen, pick_set_of_not h]

/-- A response leads its route to a bucket of its side, if the token that it names is of that
side. -/
theorem bucket_update (ρ : Route) (now : Instant) (hp : r.Parted s) (hb : s.bucket b = x)
    (ht : ∀ token, limits.token = some token → s.token token = x) :
    s.bucket (r.update ρ b limits now).2 = x := by
  cases htoken : limits.token with
  | none => simpa [update, htoken] using hb
  | some token =>
    simp only [update, htoken]
    cases hget : Table.get? token r.tokens with
    | none => exact hb
    | some target => exact (hp.tokens token target (Table.mem_of_get? hget)).trans (ht token htoken)

theorem seen_update (hp : r.Parted s) (h : s.route ρ = true) (hb : s.bucket b = true)
    (ht : ∀ token, limits.token = some token → s.token token = true) :
    (r.seen s).update ρ (s.rank b) limits now =
      ((r.update ρ b limits now).1.seen s, s.rank (r.update ρ b limits now).2) := by
  have htarget := bucket_update ρ now hp hb ht
  cases htoken : limits.token with
  | none => simp only [update, htoken, seen_modify hb]
  | some token =>
    have hget : Table.get? token (r.seen s).tokens = (Table.get? token r.tokens).map s.rank :=
      Table.get?_part (Table.names_id _) (ht token htoken) _
    have hgetD : ((Table.get? token r.tokens).map s.rank).getD (s.rank b) =
        s.rank ((Table.get? token r.tokens).getD b) := by
      cases Table.get? token r.tokens <;> rfl
    simp only [update, htoken] at htarget ⊢
    rw [hget, hgetD, ← seen_modify htarget]
    simp only [seen, Table.part_put (Table.names_id _) h,
      Table.part_put (Table.names_id _) (ht token htoken), id]

theorem seen_update_of_not (hp : r.Parted s) (h : s.route ρ = false) (hb : s.bucket b = false)
    (ht : ∀ token, limits.token = some token → s.token token = false) :
    (r.update ρ b limits now).1.seen s = r.seen s := by
  have htarget := bucket_update ρ now hp hb ht
  cases htoken : limits.token with
  | none => simp only [update, htoken, seen_modify_of_not hb]
  | some token =>
    simp only [update, htoken] at htarget ⊢
    have hmodify := seen_modify_of_not (r := r) htarget (·.apply limits now)
    simp only [seen, Table.part_put_of_not h, Table.part_put_of_not (ht token htoken)] at hmodify ⊢
    exact hmodify

theorem isIdle_seen (h : s.bucket b = true) :
    (r.seen s).isIdle (s.rank b) now = r.isIdle b now := by
  rw [isIdle, bucket?_seen h, isIdle]
  rfl

theorem seen_evict (hp : r.Parted s) :
    (r.seen s).evict now = ((r.evict now).1.seen s, (r.evict now).2.filter s.route) := by
  have hroutes : ∀ y ∈ r.routes, s.route y.1 = true →
      (r.seen s).isIdle (s.rank y.2) now = r.isIdle y.2 now := fun y hy hρ =>
    isIdle_seen ((hp.routes y.1 y.2 hy).trans hρ)
  have htokens : ∀ y ∈ r.tokens, s.token y.1 = true →
      (r.seen s).isIdle (s.rank y.2) now = r.isIdle y.2 now := fun y hy ht =>
    isIdle_seen ((hp.tokens y.1 y.2 hy).trans ht)
  have hkept : (r.evict now).1.seen s = ((r.seen s).evict now).1 := by
    simp only [evict, seen]
    rw [Table.part_filter (u := fun p => !(r.seen s).isIdle p.2 now) fun y hy hρ => by
        simp [hroutes y hy hρ],
      Table.part_filter (u := fun p => !(r.seen s).isIdle p.2 now) fun y hy ht => by
        simp [htokens y hy ht]]
    rfl
  have hgone : (r.evict now).2.filter s.route = ((r.seen s).evict now).2 := by
    simp only [evict, seen]
    rw [← Table.part_filter (q := fun p => r.isIdle p.2 now) hroutes, Table.part, List.filter_map,
      List.map_map]
    rfl
  rw [hkept, hgone]

end Registry

/-! ## Workers -/

/-- A call as seen from a side. -/
def Ticket.seen (s : View) (t : Ticket) : Ticket := { t with bucket := s.rank t.bucket }

/-- A stage as seen from a side. -/
def Stage.seen (s : View) : Stage → Stage
  | .fresh => .fresh
  | .cooling ending => .cooling ending
  | .queued b => .queued (s.rank b)
  | .reserving b => .reserving (s.rank b)
  | .stalled b ending => .stalled (s.rank b) ending
  | .sending b => .sending (s.rank b)
  | .resting ending => .resting ending

/-- A call that is being carried out, as seen from a side. -/
def Progress.seen (s : View) (p : Progress) : Progress := ⟨p.ticket.seen s, p.tries, p.stage.seen s⟩

namespace Worker

variable {s : View} {worker : Worker}

/-- A worker as seen from a side. -/
def seen (s : View) (worker : Worker) : Worker :=
  { worker with
    progress := worker.progress.map (·.seen s)
    mailbox := worker.mailbox.map (·.seen s)
    overflow := worker.overflow.map (·.seen s) }

@[simp] theorem route_seen (s : View) (worker : Worker) :
    (worker.seen s).route = worker.route := rfl

theorem seen_accept (t : Ticket) :
    (worker.accept t).seen s = (worker.seen s).accept (t.seen s) := by
  by_cases h : worker.mailbox.length < mailboxRoom <;> simp [accept, seen, h]

theorem seen_takes (policy : RetryPolicy) (t : Ticket) (rest : List Ticket) :
    (worker.takes policy t rest).seen s =
      (worker.seen s).takes policy (t.seen s) (rest.map (·.seen s)) := by
  simp [takes, seen, Progress.seen, Stage.seen]

theorem seen_forget (id : TicketId) :
    (worker.forget id).seen s = (worker.seen s).forget id := by
  simp only [forget, seen, List.filter_map]
  rfl

theorem running_seen (worker : Worker) :
    (worker.seen s).running = worker.running.map (·.seen s) := by
  cases hp : worker.progress <;> simp [running, seen, hp, Progress.seen]

theorem tickets_seen (worker : Worker) :
    (worker.seen s).tickets = worker.tickets.map (·.seen s) := by
  simp only [tickets, running_seen, List.map_append]
  rfl

theorem stage_seen (worker : Worker) :
    (worker.seen s).stage?.bind Stage.bucket? =
      (worker.stage?.bind Stage.bucket?).map s.rank := by
  cases hp : worker.progress with
  | none => simp [stage?, seen, hp]
  | some p => cases hs : p.stage <;> simp [stage?, seen, hp, Progress.seen, hs, Stage.seen,
      Stage.bucket?]

end Worker

/-! ## Effects -/

namespace Side

/-- An effect as seen from a side. What a sweep counts is not. -/
def effect? (s : Side) : DispatchEffect → Option DispatchEffect
  | .execute w q => if s.worker w then some (.execute (s.number w) q) else none
  | .wakeWorker w => if s.worker w then some (.wakeWorker (s.number w)) else none
  | .wakeWorkerAt w time => if s.worker w then some (.wakeWorkerAt (s.number w) time) else none
  | .wakeCaller id => if s.call id then some (.wakeCaller id) else none
  | .finished id result => if s.call id then some (.finished id result) else none
  | .swept _ => none

/-- What effects are seen from a side. -/
def effects (s : Side) (es : List DispatchEffect) : List DispatchEffect := es.filterMap s.effect?

variable {s : Side}

theorem effects_append (es fs : List DispatchEffect) :
    s.effects (es ++ fs) = s.effects es ++ s.effects fs := List.filterMap_append

theorem effects_wakeWorker (ws : List WorkerId) :
    s.effects (ws.map .wakeWorker) = ((ws.filter s.worker).map s.number).map .wakeWorker := by
  induction ws with
  | nil => rfl
  | cons w rest ih =>
    rw [effects] at ih
    cases h : s.worker w <;> simp [effects, effect?, h, ih]

/-- Workers of the side keep their order. -/
theorem map_erase_number {ws : List WorkerId} {w : WorkerId} (hws : ∀ v ∈ ws, s.worker v = true)
    (hw : s.worker w = true) :
    (ws.erase w).map s.number = (ws.map s.number).erase (s.number w) := by
  induction ws with
  | nil => rfl
  | cons v rest ih =>
    have hrest := ih fun u hu => hws u (List.mem_cons_of_mem _ hu)
    by_cases hv : v = w
    · simp [hv]
    · have hne : s.number v ≠ s.number w := fun h =>
        hv (place_inj (hws v List.mem_cons_self) hw h)
      simp [hv, hne, hrest]

end Side

/-! ## The dispatcher -/

namespace View

/-- The workers of a side. -/
def workers (s : View) (ws : List Worker) : List Worker := (pick s.worker ws).map (·.seen s)

/-- The roster of a side. -/
def roster (s : View) (t : Table Route WorkerId) : Table Route WorkerId :=
  Table.part s.route id s.number t

/-- The lines of a side. -/
def lines (s : View) (t : Table BucketId (List WorkerId)) : Table BucketId (List WorkerId) :=
  Table.part s.bucket s.rank (·.map s.number) t

/-- The callers of a side. -/
def callers (s : View) (t : Table TicketId Caller) : Table TicketId Caller :=
  Table.part s.call id id t

variable {s : View} {w : WorkerId} {worker : Worker} {ws : List Worker} {b : BucketId}
  {id : TicketId} {callers : Table TicketId Caller} {result : Except Failure Response}
  {failure : Failure} {ts : List Ticket}

/-! ### Workers -/

theorem getElem?_workers (h : s.worker w = true) (ws : List Worker) :
    (s.workers ws)[s.number w]? = ws[w]?.map (·.seen s) := by
  rw [workers, List.getElem?_map]
  exact congrArg _ (getElem?_pick h _)

theorem length_workers (ws : List Worker) : (s.workers ws).length = s.number ws.length := by
  rw [workers, List.length_map, length_pick, Side.number]

theorem workers_set (h : s.worker w = true) :
    s.workers (ws.set w worker) = (s.workers ws).set (s.number w) (worker.seen s) := by
  simp only [workers, pick_set h, List.map_set, Side.number]

theorem workers_set_of_not (h : s.worker w = false) :
    s.workers (ws.set w worker) = s.workers ws := by
  simp only [workers, pick_set_of_not h]

theorem workers_modify {f : Worker → Worker} (h : s.worker w = true)
    (hf : ∀ worker, (f worker).seen s = f (worker.seen s)) :
    s.workers (ws.modify w f) = (s.workers ws).modify (s.number w) f := by
  rw [workers, pick_modify h]
  refine List.ext_getElem? fun n => ?_
  simp only [workers, List.getElem?_map, List.getElem?_modify]
  split <;> simp [Function.comp_def, Side.number, *]

theorem workers_append (h : s.worker ws.length = true) :
    s.workers (ws ++ [worker]) = s.workers ws ++ [worker.seen s] := by
  simp only [workers, pick_append, h, if_true, List.map_append, List.map_cons, List.map_nil]

theorem workers_append_of_not (h : s.worker ws.length = false) :
    s.workers (ws ++ [worker]) = s.workers ws := by
  simp [workers, pick_append, h]

theorem workers_map {f : Worker → Worker} (hf : ∀ worker, (f worker).seen s = f (worker.seen s)) :
    s.workers (ws.map f) = (s.workers ws).map f := by
  simp only [workers, pick_map, List.map_map]
  exact List.map_congr_left fun worker _ => hf worker

/-- A change that is not seen of any worker of the side. -/
theorem workers_map_of_not {f : Worker → Worker}
    (hf : ∀ n worker, ws[n]? = some worker → s.worker n = true → f worker = worker) :
    s.workers (ws.map f) = s.workers ws := by
  refine congrArg (List.map (Worker.seen s)) (pick_congr (List.length_map _) fun n hn => ?_)
  cases hw : ws[n]? with
  | none => simp [hw]
  | some worker => simp [hw, hf n worker hw hn]

theorem workers_retire (ws : List Worker) (gone : List WorkerId) :
    s.workers (Dispatcher.retire ws gone) =
      Dispatcher.retire (s.workers ws) ((gone.filter s.worker).map s.number) := by
  induction gone generalizing ws with
  | nil => rfl
  | cons w rest ih =>
    refine (ih _).trans ?_
    cases h : s.worker w with
    | false => simp [workers, pick_modify_of_not h, h]
    | true =>
      have hmodify : s.workers (ws.modify w ({ · with retiring := true })) =
          (s.workers ws).modify (s.number w) ({ · with retiring := true }) :=
        workers_modify h fun _ => rfl
      rw [hmodify, List.filter_cons_of_pos h]
      rfl

/-! ### The roster -/

theorem get?_roster {ρ : Route} (h : s.route ρ = true) (t : Table Route WorkerId) :
    Table.get? ρ (s.roster t) = (Table.get? ρ t).map s.number :=
  Table.get?_part (Table.names_id _) h t

theorem roster_put {ρ : Route} (h : s.route ρ = true) (t : Table Route WorkerId) :
    s.roster (Table.put ρ w t) = Table.put ρ (s.number w) (s.roster t) :=
  Table.part_put (Table.names_id _) h w t

/-! ### Lines -/

theorem names_rank (s : View) : Table.Names s.bucket s.rank := fun _ _ h h' heq =>
  place_inj h h' heq

theorem get?_lines (h : s.bucket b = true) (t : Table BucketId (List WorkerId)) :
    Table.get? (s.rank b) (s.lines t) = (Table.get? b t).map (·.map s.number) :=
  Table.get?_part s.names_rank h t

theorem lines_put (h : s.bucket b = true) (line : List WorkerId)
    (t : Table BucketId (List WorkerId)) :
    s.lines (Table.put b line t) = Table.put (s.rank b) (line.map s.number) (s.lines t) :=
  Table.part_put s.names_rank h line t

/-! ### Callers -/

theorem get?_callers (h : s.call id = true) (t : Table TicketId Caller) :
    Table.get? id (s.callers t) = Table.get? id t :=
  (Table.get?_part (g := fun c : Caller => c) (Table.names_id s.call) h t).trans (by simp)

theorem callers_put (h : s.call id = true) (c : Caller) (t : Table TicketId Caller) :
    s.callers (Table.put id c t) = Table.put id c (s.callers t) :=
  Table.part_put (Table.names_id _) h c t

theorem callers_answered (h : s.call id = true) (t : Table TicketId Caller) :
    s.callers (Dispatcher.answered t id result) = Dispatcher.answered (s.callers t) id result := by
  rw [Dispatcher.answered, Dispatcher.answered, get?_callers h]
  cases Table.get? id t with
  | none => rfl
  | some c => exact callers_put h _ t

theorem callers_answered_of_not (h : s.call id = false) (t : Table TicketId Caller) :
    s.callers (Dispatcher.answered t id result) = s.callers t := by
  rw [Dispatcher.answered]
  cases Table.get? id t with
  | none => rfl
  | some c => exact Table.part_put_of_not h _ t

theorem callers_disappointed (h : ∀ t ∈ ts, s.call t.id = true) (t : Table TicketId Caller) :
    s.callers (Dispatcher.disappointed t failure ts) =
      Dispatcher.disappointed (s.callers t) failure (ts.map (·.seen s)) := by
  induction ts generalizing t with
  | nil => rfl
  | cons u rest ih =>
    refine (ih (fun v hv => h v (List.mem_cons_of_mem _ hv)) _).trans ?_
    rw [callers_answered (h u List.mem_cons_self)]
    rfl

theorem callers_disappointed_of_not (h : ∀ t ∈ ts, s.call t.id = false)
    (t : Table TicketId Caller) :
    s.callers (Dispatcher.disappointed t failure ts) = s.callers t := by
  induction ts generalizing t with
  | nil => rfl
  | cons u rest ih =>
    refine (ih (fun v hv => h v (List.mem_cons_of_mem _ hv)) _).trans ?_
    exact callers_answered_of_not (h u List.mem_cons_self) t

theorem effects_told (h : s.call id = true) (t : Table TicketId Caller) :
    s.effects (Dispatcher.told t id) = Dispatcher.told (s.callers t) id := by
  rw [Dispatcher.told, Dispatcher.told, get?_callers h]
  cases Table.get? id t <;> simp [Side.effects, Side.effect?, h]

theorem effects_told_of_not (h : s.call id = false) (t : Table TicketId Caller) :
    s.effects (Dispatcher.told t id) = [] := by
  rw [Dispatcher.told]
  cases Table.get? id t <;> simp [Side.effects, Side.effect?, h]

theorem effects_flatMap_told (h : ∀ t ∈ ts, s.call t.id = true) (t : Table TicketId Caller) :
    s.effects (ts.flatMap fun u => Dispatcher.told t u.id) =
      (ts.map (·.seen s)).flatMap fun u => Dispatcher.told (s.callers t) u.id := by
  induction ts with
  | nil => rfl
  | cons u rest ih =>
    rw [List.flatMap_cons, Side.effects_append, effects_told (h u List.mem_cons_self),
      ih fun v hv => h v (List.mem_cons_of_mem _ hv)]
    rfl

theorem effects_flatMap_told_of_not (h : ∀ t ∈ ts, s.call t.id = false)
    (t : Table TicketId Caller) :
    s.effects (ts.flatMap fun u => Dispatcher.told t u.id) = [] := by
  induction ts with
  | nil => rfl
  | cons u rest ih =>
    rw [List.flatMap_cons, Side.effects_append, effects_told_of_not (h u List.mem_cons_self),
      ih fun v hv => h v (List.mem_cons_of_mem _ hv)]
    rfl

/-! ### Counts of calls -/

theorem seen_freed {now : Instant} (h : ∀ t ∈ ts, s.bucket t.bucket = true) (r : Registry) :
    (Dispatcher.freed r now ts).seen s = Dispatcher.freed (r.seen s) now (ts.map (·.seen s)) := by
  induction ts generalizing r with
  | nil => rfl
  | cons u rest ih =>
    refine (ih (fun v hv => h v (List.mem_cons_of_mem _ hv)) _).trans ?_
    exact congrArg (Dispatcher.freed · now (rest.map (·.seen s)))
      (Registry.seen_modify (h u List.mem_cons_self) _)

theorem seen_freed_of_not {now : Instant} (h : ∀ t ∈ ts, s.bucket t.bucket = false)
    (r : Registry) : (Dispatcher.freed r now ts).seen s = r.seen s := by
  induction ts generalizing r with
  | nil => rfl
  | cons u rest ih =>
    refine (ih (fun v hv => h v (List.mem_cons_of_mem _ hv)) _).trans ?_
    exact Registry.seen_modify_of_not (h u List.mem_cons_self) _

end View

namespace Dispatcher

variable {s : View} {d v : Dispatcher} {c : Cooldown} {w : WorkerId} {b : BucketId}
  {id : TicketId} {now : Instant}

/-- A dispatcher as seen from a side, with a cooldown. -/
def seen (s : View) (c : Cooldown) (d : Dispatcher) : Dispatcher where
  policy := d.policy
  defaultTimeout := d.defaultTimeout
  registry := d.registry.seen s
  cooldown := c
  workers := s.workers d.workers
  roster := s.roster d.roster
  lines := s.lines d.lines
  callers := s.callers d.callers

/-- What is seen is determined by its parts. -/
theorem eq_seen (hp : v.policy = d.policy) (ht : v.defaultTimeout = d.defaultTimeout)
    (hr : v.registry = d.registry.seen s) (hw : v.workers = s.workers d.workers)
    (hroster : v.roster = s.roster d.roster) (hl : v.lines = s.lines d.lines)
    (hcallers : v.callers = s.callers d.callers) : v = d.seen s v.cooldown := by
  cases v
  subst hp ht hr hw hroster hl hcallers
  rfl

/-! ### Lines -/

theorem line_seen (h : s.bucket b = true) :
    (d.seen s c).line (s.rank b) = (d.line b).map s.number := by
  rw [line, seen, View.get?_lines h, line]
  cases Table.get? b d.lines <;> rfl

theorem lines_join (h : s.bucket b = true) :
    s.lines (d.join b w).lines = ((d.seen s c).join (s.rank b) (s.number w)).lines := by
  rw [join, View.lines_put h, join, line_seen h, List.map_append]
  rfl

theorem lines_without (h : s.bucket b = true) (hw : s.worker w = true)
    (hl : ∀ v ∈ d.line b, s.worker v = true) :
    s.lines (d.without b w) = (d.seen s c).without (s.rank b) (s.number w) := by
  rw [without, View.lines_put h, Side.map_erase_number hl hw, without, line_seen h]
  rfl

theorem lines_without_of_not (h : s.bucket b = false) : s.lines (d.without b w) = s.lines d.lines :=
  Table.part_put_of_not h _ _

theorem effects_roused (h : s.bucket b = true) (hw : s.worker w = true)
    (hl : ∀ v ∈ d.line b, s.worker v = true) :
    s.effects (d.roused b w) = (d.seen s c).roused (s.rank b) (s.number w) := by
  have hall : (((d.line b).erase w).take 1).filter s.worker = ((d.line b).erase w).take 1 :=
    List.filter_eq_self.mpr fun v hv => hl v (List.mem_of_mem_erase (List.mem_of_mem_take hv))
  rw [roused, Side.effects_wakeWorker, hall, List.map_take, Side.map_erase_number hl hw, roused,
    line_seen h]

theorem effects_roused_of_not (hl : ∀ v ∈ d.line b, s.worker v = false) :
    s.effects (d.roused b w) = [] := by
  have hnone : (((d.line b).erase w).take 1).filter s.worker = [] := by
    rw [List.filter_eq_nil_iff]
    intro v hv
    simp [hl v (List.mem_of_mem_erase (List.mem_of_mem_take hv))]
  rw [roused, Side.effects_wakeWorker, hnone]
  rfl

end Dispatcher

end Switchboard
