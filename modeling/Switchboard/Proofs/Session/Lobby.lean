import Mathlib.Data.List.Nodup
import Switchboard.Proofs.Session.FreshHandshake
import Switchboard.Proofs.Session.Handshakes

/-!
# Waits for an admission

A session that needs an admission begins a wait for it, and the wait goes on by itself: it takes a
token when there is one, and reports. The report may be under way while the session does something
else, for instance end the wait and begin another one.

A lobby is a session with its waits and with the reports that are under way. As long as no report is
heard while a later wait is held, there is one wait at most, and it is the one that the session
holds.

## Main definitions

* `Session.asks`: the connections for which a session begins a wait.
* `Session.Tends`: what a step does to the wait that the session holds.
* `Lobby`: the state; `Lobby.Move` is what can happen, and `Lobby.next` what comes of it.
* `Lobby.Attended`, `Lobby.Paid`: what holds of the waits and of the tokens.

## Main results

* `Session.tends_happens`: every step is one of four as far as waits go.
* `Lobby.waits_of_run`: one wait at most, and a token for each fresh handshake.
-/
namespace Switchboard

/-- A wait for an admission. -/
structure Wait where
  task : Nat
  connection : Nat
  /-- What came of it. -/
  answer : Option (Except Failure Unit) := none

namespace Wait

/-- A wait for this connection that has no answer. -/
def isOpen (k : Nat) (x : Wait) : Bool := x.connection = k && x.answer.isNone

/-- A wait for this connection that took a token. -/
def isGranted (k : Nat) (x : Wait) : Bool := x.connection = k && x.answer.any (·.isOk)

/-- Does what a session asks for. -/
def obey (going : List Wait) : Session.Effect → List Wait
  | .beginIdentify task k => going ++ [⟨task, k, none⟩]
  | .endIdentify task => going.filter (·.task ≠ task)
  | _ => going

end Wait

namespace Session

/-- The connections for which a session begins a wait: the one that is heard, when it is greeted or
rejected with nothing to take up. -/
def asks (s : Session) : Input → List Nat
  | .inbound k (.received text) =>
    if s.connection = some k then
      match Message.parse text with
      | .ok (.hello _) => if s.Unshaken ∧ s.canResume = false then [k] else []
      | .ok (.invalidSession resumable) => if resumable && s.canResume then [] else [k]
      | _ => []
    else []
  | _ => []

/-- The effect begins or ends a wait. -/
def Effect.isWaiting : Effect → Bool
  | .beginIdentify .. | .endIdentify _ => true
  | _ => false

/-- The effects that begin and end waits. -/
abbrev waiting (es : List Effect) : List Effect := select (Option.guard Effect.isWaiting) es

theorem foldl_waiting (es : List Effect) (going : List Wait) :
    es.foldl Wait.obey going = (waiting es).foldl Wait.obey going := by
  induction es generalizing going with
  | nil => rfl
  | cons e es ih =>
    cases hw : e.isWaiting with
    | true => simp [hw, ih]
    | false =>
      have he : Wait.obey going e = going := by
        cases e <;> simp_all [Wait.obey, Effect.isWaiting]
      simp [hw, he, ih]

/-- The effects of ending the wait that is held. -/
def waitEnds (s : Session) : List Effect := s.identifyTask.toList.map .endIdentify

@[simp] theorem waiting_taskEnds (s : Session) : waiting s.taskEnds = s.waitEnds := by
  cases hb : s.heartbeatTask <;> cases hi : s.identifyTask <;>
    simp [taskEnds, waitEnds, hb, hi, Effect.isWaiting]

@[simp] theorem waiting_farewell (s : Session) (code : Nat) (reason : String) :
    waiting (s.farewell code reason) = [] := by
  cases hl : s.link.current <;> simp [farewell, hl, Effect.isWaiting]

@[simp] theorem waiting_release (s : Session) (code : Nat) (reason : String) :
    waiting (s.release code reason) = s.waitEnds := by
  simp [release]

@[simp] theorem waiting_beat (s : Session) (k : Nat) (interval : Span) :
    waiting (s.beat k interval) = [] := by
  cases hb : s.heartbeatTask <;> simp [beat, hb, Effect.isWaiting]

@[simp] theorem waiting_waitEnds (s : Session) : waiting s.waitEnds = s.waitEnds := by
  cases hi : s.identifyTask <;> simp [waitEnds, hi, Effect.isWaiting]

theorem waiting_await (s : Session) (k : Nat) :
    waiting (s.await k).2 = s.waitEnds ++ [.beginIdentify s.tasks k] := by
  have hends : waiting (s.identifyTask.toList.map .endIdentify) = s.waitEnds := waiting_waitEnds s
  simp [await, hends, Effect.isWaiting]

@[simp] theorem waiting_sends (k : Option Nat) (p : String) :
    waiting (k.toList.map (.send · p)) = [] := by
  cases k <;> simp [Effect.isWaiting]

variable {c : Config} {m : Moment} {s : Session} {i : Input}

/-! ## What a step does to the wait that is held -/

/-- What a step does to the wait that is held. -/
inductive Tends (s : Session) (i : Input) (r : Session × List Effect) : Prop where
  | keep (hk : r.1.identifyTask = s.identifyTask) (hc : r.1.connection = s.connection)
      (ht : s.tasks ≤ r.1.tasks) (hw : waiting r.2 = [])
  /-- The connection is given up, and its wait ends. -/
  | drop (hk : r.1.identifyTask = none) (ht : s.tasks ≤ r.1.tasks) (hw : waiting r.2 = s.waitEnds)
  /-- Another wait begins in the place of the one that is held. -/
  | ask (k task : Nat) (ht : s.tasks ≤ task) (hlt : task < r.1.tasks)
      (hk : r.1.identifyTask = some task) (hc : r.1.connection = some k)
      (hw : waiting r.2 = s.waitEnds ++ [.beginIdentify task k])
  /-- A wait is over. -/
  | hear (k : Nat) (outcome : Except Failure Unit) (hi : i = .admitted k outcome)
      (hk : r.1.identifyTask = none) (ht : s.tasks ≤ r.1.tasks) (hw : waiting r.2 = [])

/-- The connection of a session with its wait is given up. -/
theorem tends_retreat {t : Session} (before : List Effect) (ht : s.tasks ≤ t.tasks)
    (hw : waiting before ++ t.waitEnds = s.waitEnds) {reason : String} :
    Tends s i (following before (t.retreat c m reason)) := by
  unfold retreat
  split <;> exact .drop rfl ht (by simp [Effect.isWaiting, ← hw])

theorem tends_leave {t : Session} (ht : s.tasks ≤ t.tasks) (hw : t.waitEnds = s.waitEnds)
    {reason : String} : Tends s i (t.leave c m reason) := by
  unfold leave
  split
  · exact .drop rfl ht (by simp [redial, Effect.isWaiting, hw])
  · exact tends_retreat [] ht hw

theorem tends_lose {code : Option Nat} {reason : String} : Tends s i (s.lose c m code reason) := by
  have hlost : (s.lost code).waitEnds = [] := rfl
  have hbefore : waiting (s.taskEnds ++ [.announce (.disconnected code reason)]) ++ [] =
      s.waitEnds := by simp [Effect.isWaiting]
  have hfail (cause : FatalCause) : Tends s i
      (following (s.taskEnds ++ [.announce (.disconnected code reason)])
        ((s.lost code).fail cause)) :=
    .drop rfl (Nat.le_refl _) (by simp [fail, Effect.isWaiting, hlost])
  unfold lose
  cases CloseAction.ofCode code with
  | authenticationFailed => exact hfail _
  | fatal => exact hfail _
  | reidentify =>
    exact tends_retreat (s := s) (t := (s.lost code).forget) _ (Nat.le_refl _) hbefore
  | resume => exact tends_retreat (s := s) (t := s.lost code) _ (Nat.le_refl _) hbefore

theorem tends_deliver {t : Session} (before : List Effect) {p : String}
    (hk : t.identifyTask = s.identifyTask) (hc : t.connection = s.connection)
    (ht : s.tasks ≤ t.tasks) (hw : waiting before = []) :
    Tends s i (following before (t.deliver c m p)) := by
  unfold deliver
  split
  · exact .keep hk hc ht (by simp [hw])
  · exact tends_retreat before ht (by simp [hw, waitEnds, hk])

theorem tends_accept (kind : String) (q : Nat) (data : Json) :
    Tends s i (s.accept kind q data) := by
  obtain ⟨_, _, _, _, _, told, h⟩ := exists_accept s kind q data
  rw [h]
  refine .keep rfl rfl (Nat.le_refl _) ?_
  have htold : waiting (told.map .announce) = [] := by
    simp [select_guard, List.filter_eq_nil_iff, Effect.isWaiting]
  simp [htold, Effect.isWaiting]

theorem tends_meets {k : Nat} (hk : s.connection = some k) {message : Message}
    {r : Session × List Effect} (h : Meets c m s k message r) : Tends s i r := by
  cases h with
  | greet ms _ => exact .keep rfl rfl (Nat.le_succ _) (by simp)
  | resume ms _ _ _ => exact tends_deliver _ rfl rfl (Nat.le_succ _) (by simp)
  | ask ms _ _ =>
    refine .ask k (s.tasks + 1) (Nat.le_succ _) (Nat.lt_succ_self _) rfl hk ?_
    simp only [snd_following, select_append, waiting_beat, waiting_await]
    rfl
  | pulse => exact tends_deliver [] rfl rfl (Nat.le_refl _) rfl
  | ack => exact .keep rfl rfl (Nat.le_refl _) rfl
  | leave => exact tends_leave (Nat.le_refl _) rfl
  | redial _ => exact .drop rfl (Nat.le_refl _) (by simp [redial, Effect.isWaiting])
  | reject _ _ =>
    refine .ask k s.tasks (Nat.le_refl _) (Nat.lt_succ_self _) rfl hk ?_
    rw [waiting_await]
    rfl
  | accept kind q data _ => exact tends_accept kind q data
  | skip _ _ _ _ => exact .keep rfl rfl (Nat.le_refl _) rfl
  | unknown _ => exact .keep rfl rfl (Nat.le_refl _) rfl

/-- To have heard a message is nothing to a wait. -/
theorem Tends.of_heard {r : Session × List Effect} (h : Tends (s.heard m) i r) : Tends s i r := by
  cases h with
  | keep hk hc ht hw => exact .keep hk hc ht hw
  | drop hk ht hw => exact .drop hk ht hw
  | ask k task ht hlt hk hc hw => exact .ask k task ht hlt hk hc hw
  | hear k outcome hi hk ht hw => exact .hear k outcome hi hk ht hw

/-- A session that heard of its wait holds none, and has none to end. -/
theorem tends_heard {t : Session} {k : Nat} {outcome : Except Failure Unit}
    (hi : i = .admitted k outcome) (hk : t.identifyTask = none) (ht : s.tasks ≤ t.tasks)
    {reason : String} : Tends s i (t.retreat c m reason) := by
  have hends : t.waitEnds = [] := by simp [waitEnds, hk]
  unfold retreat
  split <;> exact .hear k outcome hi rfl ht (by simp [hends, Effect.isWaiting])

/-- Every step keeps the wait that is held, ends it, begins another one in its place, or hears of
one that is over. -/
theorem tends_happens {r : Session × List Effect} (h : Happens c m s i r) : Tends s i r := by
  cases h with
  | start _ => exact .drop rfl (Nat.le_refl _) (by simp [dial, Effect.isWaiting])
  | restart =>
    have hrenewed : s.renewed.waitEnds = [] := rfl
    exact .drop rfl (Nat.le_refl _) (by simp [dial, hrenewed, Effect.isWaiting])
  | shutdown => exact .drop rfl (Nat.le_refl _) (by simp)
  | stop => exact .drop rfl (Nat.le_refl _) (by simp)
  | refuse _ _ _ _ => exact .keep rfl rfl (Nat.le_refl _) rfl
  | command _ _ _ _ _ _ => exact .keep rfl rfl (Nat.le_refl _) (by simp [Effect.isWaiting])
  | opened _ _ => exact .keep rfl rfl (Nat.le_refl _) rfl
  | message _ _ hk _ hr => exact (tends_meets (s := s.heard m) hk hr).of_heard
  | close _ _ _ _ => exact tends_lose
  | fail _ _ _ _ => exact tends_retreat [] (Nat.le_refl _) rfl
  | due _ _ _ => exact tends_deliver [] rfl rfl (Nat.le_refl _) rfl
  | @dead _ _ b _ _ =>
    exact tends_leave (s := s) (t := { s with heartbeat := b }) (Nat.le_refl _) rfl
  | late k outcome _ => exact .hear k outcome rfl rfl (Nat.le_refl _) rfl
  | denied k failure _ _ =>
    exact tends_heard (s := s) (t := { s with identifyTask := none }) rfl rfl (Nat.le_refl _)
  | identify k _ _ =>
    unfold deliver
    split
    · exact .hear k (.ok ()) rfl rfl (Nat.le_refl _) (by simp)
    · exact tends_heard (s := s)
        (t := { s with identifyTask := none, handshakeSent := true }) rfl rfl (Nat.le_refl _)
  | reconnect _ _ _ => exact .drop rfl (Nat.le_refl _) (by simp [dial, Effect.isWaiting])
  | _ => exact .keep rfl rfl (Nat.le_refl _) rfl

/-! ## Which waits begin -/

@[simp] theorem waits_deliver (p : String) : waits (s.deliver c m p).2 = [] := by
  unfold deliver
  split
  · cases s.link.current <;> simp [Effect.wait?]
  · exact leaves_retreat.waits

theorem waits_meets {k : Nat} {text : String} (hk : s.connection = some k) {message : Message}
    (ht : Message.parse text = .ok message) {r : Session × List Effect}
    (h : Meets c m (s.heard m) k message r) :
    waits r.2 = s.asks (.inbound k (.received text)) := by
  cases h with
  | greet ms hu =>
    have hu' : ¬ s.Unshaken := hu
    simp [asks, hk, ht, hu']
  | resume ms hu hid hq =>
    have hr : s.canResume = true := canResume_eq_true.mpr ⟨_, _, hid, hq⟩
    simp [asks, hk, ht, hr]
  | ask ms hu hr =>
    have hask : s.Unshaken ∧ s.canResume = false := ⟨hu, hr⟩
    simp [asks, hk, ht, hask, Effect.wait?]
  | leave => simp [asks, hk, ht, leaves_leave.waits]
  | redial hr =>
    have hr' : s.canResume = true := hr
    simp [asks, hk, ht, hr', leaves_redial.waits]
  | reject resumable hr =>
    have hr' : (resumable && s.canResume) = false := hr
    simp [asks, hk, ht, hr', Effect.wait?]
  | _ => simp [asks, hk, ht]

/-- A wait begins exactly for what the session asks. -/
theorem waits_happens {r : Session × List Effect} (h : Happens c m s i r) :
    waits r.2 = s.asks i := by
  cases h with
  | start _ => exact leaves_dial.waits
  | restart => simp [asks, leaves_dial.waits]
  | reconnect _ _ _ => exact leaves_dial.waits
  | command _ _ _ _ _ _ => cases hl : s.link.current <;> simp [asks, Effect.wait?]
  | stale k e hk => cases e <;> simp [asks, hk]
  | mumble _ _ hk _ ht => simp [asks, hk, ht]
  | message _ _ hk ht hr => exact waits_meets hk ht hr
  | close _ _ _ _ => exact leaves_lose.waits
  | fail _ _ _ _ => exact leaves_retreat.waits
  | dead _ _ _ => exact leaves_leave.waits
  | denied _ _ _ _ => exact leaves_retreat.waits
  | _ => simp [asks, Effect.wait?]

end Session

open Session

/-- A session with its waits and with the reports that are under way. -/
structure Lobby where
  session : Session
  /-- The waits that go on. -/
  going : List Wait := []
  /-- The waits that reported, and were not heard yet. -/
  posted : List Wait := []
  /-- The connections of the waits that took a token, one for each token. -/
  tokens : List Nat := []
  /-- The connections for which the session asked, one for each wait. -/
  asked : List Nat := []
  effects : List Effect := []

namespace Lobby

/-- What can happen. -/
inductive Move where
  /-- Anything but the report of a wait happens to the session. -/
  | handle (m : Moment) (i : Input)
  /-- A wait is over: it took a token, or was turned down. -/
  | answer (n : Nat) (outcome : Except Failure Unit)
  /-- A wait that is over reports. -/
  | report (n : Nat)
  /-- The session hears a report. -/
  | hear (n : Nat) (m : Moment)

/-- A lobby at its beginning. -/
def begin (c : Config) (shard : Shard) (now : Instant) : Lobby := { session := .new c shard now }

/-- The session handles an input, and its waits do what it asks for. -/
def handled (c : Config) (w : Lobby) (m : Moment) (i : Input) : Lobby :=
  let r := step c w.session m i
  { w with
    session := r.1
    going := r.2.foldl Wait.obey w.going
    asked := w.asked ++ w.session.asks i
    effects := w.effects ++ r.2 }

/-- The input is the report of a wait. -/
def isReport : Input → Bool
  | .admitted .. => true
  | _ => false

/-- The token that an answer is worth. -/
def token (k : Nat) (outcome : Except Failure Unit) : List Nat := if outcome.isOk then [k] else []

/-- What comes of a move; one that is not possible changes nothing. -/
def next (c : Config) (w : Lobby) : Move → Lobby
  | .handle m i => if isReport i then w else w.handled c m i
  | .answer n outcome =>
    match w.going[n]? with
    | some ⟨task, k, none⟩ =>
      { w with
        going := w.going.take n ++ ⟨task, k, some outcome⟩ :: w.going.drop (n + 1)
        tokens := w.tokens ++ token k outcome }
    | _ => w
  | .report n =>
    match w.going[n]? with
    | some ⟨task, k, some outcome⟩ =>
      { w with
        going := w.going.take n ++ w.going.drop (n + 1)
        posted := w.posted ++ [⟨task, k, some outcome⟩] }
    | _ => w
  | .hear n m =>
    match w.posted[n]? with
    | some ⟨_, k, some outcome⟩ =>
      ({ w with posted := w.posted.take n ++ w.posted.drop (n + 1) } : Lobby).handled c m
        (.admitted k outcome)
    | _ => w

/-- More moves. -/
def run (c : Config) (w : Lobby) (moves : List Move) : Lobby := moves.foldl (next c) w

/-- No report is heard while the session holds a later wait. -/
def timely (w : Lobby) : Move → Bool
  | .hear n _ => (w.posted[n]?).all fun x => w.session.identifyTask.all (· = x.task)
  | _ => true

/-- Reports are heard before the session holds a later wait. -/
def orderly (c : Config) : Lobby → List Move → Bool
  | _, [] => true
  | w, x :: rest => w.timely x && orderly c (w.next c x) rest

/-- The session does not end. -/
def Move.goesOn : Move → Prop
  | .handle _ i => i ≠ .stop
  | _ => True

variable {c : Config} {w : Lobby} {m : Moment} {i : Input}

/-- What a move can be. -/
inductive Moved (c : Config) (w : Lobby) : Move → Lobby → Prop where
  | nothing (x : Move) : Moved c w x w
  | handle (m : Moment) (i : Input) (hi : isReport i = false) :
    Moved c w (.handle m i) (w.handled c m i)
  | answer (n : Nat) (outcome : Except Failure Unit) {before after : List Wait} {task k : Nat}
      (hx : w.going = before ++ ⟨task, k, none⟩ :: after) :
    Moved c w (.answer n outcome)
      { w with
        going := before ++ ⟨task, k, some outcome⟩ :: after
        tokens := w.tokens ++ token k outcome }
  | report (n : Nat) {before after : List Wait} {task k : Nat} {outcome : Except Failure Unit}
      (hx : w.going = before ++ ⟨task, k, some outcome⟩ :: after) :
    Moved c w (.report n)
      { w with going := before ++ after, posted := w.posted ++ [⟨task, k, some outcome⟩] }
  | hear (n : Nat) (m : Moment) {before after : List Wait} {task k : Nat}
      {outcome : Except Failure Unit} (hn : w.posted[n]? = some ⟨task, k, some outcome⟩)
      (hx : w.posted = before ++ ⟨task, k, some outcome⟩ :: after) :
    Moved c w (.hear n m)
      (({ w with posted := before ++ after } : Lobby).handled c m (.admitted k outcome))

theorem split_of_getElem? {l : List Wait} {n : Nat} {x : Wait} (h : l[n]? = some x) :
    l = l.take n ++ x :: l.drop (n + 1) := by
  obtain ⟨hn, rfl⟩ := List.getElem?_eq_some_iff.mp h
  rw [← List.drop_eq_getElem_cons hn, List.take_append_drop]

/-- Every move is one of those that are possible, or changes nothing. -/
theorem moved_next (c : Config) (w : Lobby) (x : Move) : Moved c w x (w.next c x) := by
  cases x with
  | handle m i =>
    cases hi : isReport i with
    | true =>
      simp only [next, hi, if_true]
      exact .nothing _
    | false =>
      simp only [next, hi, Bool.false_eq_true, if_false]
      exact .handle m i hi
  | answer n outcome =>
    simp only [next]
    split
    case h_1 task k hx => exact .answer n outcome (split_of_getElem? hx)
    case h_2 => exact .nothing _
  | report n =>
    simp only [next]
    split
    case h_1 task k outcome hx => exact .report n (split_of_getElem? hx)
    case h_2 => exact .nothing _
  | hear n m =>
    simp only [next]
    split
    case h_1 task k outcome hx => exact .hear n m hx (split_of_getElem? hx)
    case h_2 => exact .nothing _

/-! ## One wait at most -/

/-- The tasks of the waits that go on or were not heard. -/
def tasks (w : Lobby) : List Nat := (w.going ++ w.posted).map (·.task)

/-- What holds of the waits between two moves. -/
structure Attended (w : Lobby) : Prop where
  coupled : w.session.Coupled
  /-- A wait that goes on is the one that the session holds, and is for the connection that it
  hears. -/
  held : ∀ x ∈ w.going, w.session.identifyTask = some x.task ∧
    w.session.connection = some x.connection
  /-- Waits are told apart by their tasks. -/
  apart : w.tasks.Nodup
  /-- The session does not give their tasks to others. -/
  past : ∀ task ∈ w.tasks, task < w.session.tasks

theorem attended_begin (c : Config) (shard : Shard) (now : Instant) :
    (begin c shard now).Attended where
  coupled := coupled_new c shard now
  held := by simp [begin]
  apart := by simp [begin, tasks]
  past := by simp [begin, tasks]

/-- A session that holds no wait has none that goes on. -/
theorem Attended.going_eq_nil (h : w.Attended) (hn : w.session.identifyTask = none) :
    w.going = [] :=
  List.eq_nil_iff_forall_not_mem.mpr fun x hx => by simpa [hn] using (h.held x hx).1

/-- The wait that is held is over when it reported. -/
theorem Attended.going_eq_nil_of_posted (h : w.Attended) {x : Wait} (hx : x ∈ w.posted)
    (ht : w.session.identifyTask = some x.task) : w.going = [] := by
  refine List.eq_nil_iff_forall_not_mem.mpr fun y hy => ?_
  have hsame : y.task = x.task := Option.some.inj ((h.held y hy).1.symm.trans ht)
  have hapart := h.apart
  rw [tasks, List.map_append, List.nodup_append] at hapart
  exact hapart.2.2 _ (List.mem_map_of_mem hy) _ (List.mem_map_of_mem hx) hsame

/-- Ending the wait that is held leaves none. -/
theorem Attended.foldl_waitEnds (h : w.Attended) :
    w.session.waitEnds.foldl Wait.obey w.going = [] := by
  cases hk : w.session.identifyTask with
  | none => simp [waitEnds, hk, h.going_eq_nil hk]
  | some task =>
    have hall : ∀ x ∈ w.going, x.task = task := fun x hx =>
      Option.some.inj ((h.held x hx).1.symm.trans hk)
    simpa [waitEnds, hk, Wait.obey] using hall

/-- No wait goes on, and no report is new. -/
theorem Attended.of_going_eq_nil {v : Lobby} (h : w.Attended) (hs : v.session.Coupled)
    (hgoing : v.going = []) (hposted : v.posted = w.posted)
    (ht : w.session.tasks ≤ v.session.tasks) : v.Attended := by
  have hsub : v.tasks.Sublist w.tasks := by
    simp only [tasks, hgoing, hposted, List.nil_append, List.map_append]
    exact List.sublist_append_right ..
  refine ⟨hs, by simp [hgoing], h.apart.sublist hsub, fun task htask => ?_⟩
  exact Nat.lt_of_lt_of_le (h.past task (hsub.subset htask)) ht

/-- The session keeps to its wait, whatever it handles; a report that it hears is of no wait that
goes on. -/
theorem Attended.handled (h : w.Attended) (hi : i ≠ .stop)
    (hreport : isReport i = true → w.going = []) : (w.handled c m i).Attended := by
  have hr := happens_step c w.session m i
  have hs := coupled_happens hi hr h.coupled
  have hgoing : (w.handled c m i).going =
      (waiting (step c w.session m i).2).foldl Wait.obey w.going := foldl_waiting ..
  cases tends_happens hr with
  | keep hk hc ht hw =>
    rw [hw, List.foldl_nil] at hgoing
    have htasks : (w.handled c m i).tasks = w.tasks := by rw [tasks, hgoing]; rfl
    refine ⟨hs, ?_, htasks ▸ h.apart, ?_⟩
    · rw [hgoing]
      intro x hx
      exact ⟨hk.trans (h.held x hx).1, hc.trans (h.held x hx).2⟩
    · rw [htasks]
      exact fun task htask => Nat.lt_of_lt_of_le (h.past task htask) ht
  | drop _ ht hw =>
    rw [hw, h.foldl_waitEnds] at hgoing
    exact h.of_going_eq_nil hs hgoing rfl ht
  | ask k task ht hlt hk hc hw =>
    rw [hw, List.foldl_append, h.foldl_waitEnds] at hgoing
    have hone : (w.handled c m i).going = [⟨task, k, none⟩] := hgoing
    have htasks : (w.handled c m i).tasks = task :: w.posted.map (·.task) := by
      rw [tasks, hone]
      rfl
    have hsub : (w.posted.map (·.task)).Sublist w.tasks := by
      rw [tasks, List.map_append]
      exact List.sublist_append_right ..
    have hpast : ∀ t ∈ w.posted.map (·.task), t < task := fun t hmem =>
      Nat.lt_of_lt_of_le (h.past t (hsub.subset hmem)) ht
    refine ⟨hs, by simpa [hone] using ⟨hk, hc⟩, ?_, ?_⟩
    · rw [htasks, List.nodup_cons]
      exact ⟨fun hmem => Nat.lt_irrefl _ (hpast task hmem), h.apart.sublist hsub⟩
    · rw [htasks]
      exact List.forall_mem_cons.mpr ⟨hlt, fun t hmem => Nat.lt_trans (hpast t hmem) hlt⟩
  | hear k outcome hreported _ ht hw =>
    have hnone : w.going = [] := hreport (by rw [hreported]; rfl)
    rw [hw, List.foldl_nil, hnone] at hgoing
    exact h.of_going_eq_nil hs hgoing rfl ht

/-- A wait that reports is not heard yet. -/
theorem tasks_perm_of_report {before after : List Wait} {x : Wait}
    (hgoing : w.going = before ++ x :: after) :
    ({ w with going := before ++ after, posted := w.posted ++ [x] } : Lobby).tasks.Perm
      w.tasks := by
  simp only [tasks, hgoing]
  refine List.Perm.map _ ?_
  simp only [List.append_assoc, List.cons_append]
  refine List.Perm.append_left before ?_
  rw [← List.append_assoc]
  exact List.perm_append_singleton ..

/-- **Waits of a move**: those that go on stay the one that the session holds, if no report is heard
while a later one is held. -/
theorem Attended.moved (h : w.Attended) {x : Move} {v : Lobby} (hm : Moved c w x v)
    (ht : w.timely x = true) (hx : x.goesOn) : v.Attended := by
  cases hm with
  | nothing _ => exact h
  | handle m i hi => exact h.handled hx (by simp [hi])
  | @answer _ outcome before after task k hgoing =>
    have htasks : ({ w with
        going := before ++ ⟨task, k, some outcome⟩ :: after
        tokens := w.tokens ++ token k outcome } : Lobby).tasks = w.tasks := by simp [tasks, hgoing]
    have hheld := h.held
    simp only [hgoing, List.forall_mem_append, List.forall_mem_cons] at hheld
    refine ⟨h.coupled, ?_, htasks ▸ h.apart, htasks ▸ h.past⟩
    simpa only [List.forall_mem_append, List.forall_mem_cons] using hheld
  | @report _ before after task k outcome hgoing =>
    have hperm := tasks_perm_of_report hgoing
    have hheld := h.held
    simp only [hgoing, List.forall_mem_append, List.forall_mem_cons] at hheld
    refine ⟨h.coupled, ?_, hperm.nodup_iff.mpr h.apart,
      fun t hmem => h.past t (hperm.mem_iff.mp hmem)⟩
    exact List.forall_mem_append.mpr ⟨hheld.1, hheld.2.2⟩
  | @hear n m before after task k outcome hn hposted =>
    have hmem : (⟨task, k, some outcome⟩ : Wait) ∈ w.posted := by simp [hposted]
    have hnone : w.going = [] := by
      cases hk : w.session.identifyTask with
      | none => exact h.going_eq_nil hk
      | some held =>
        obtain rfl : held = task := by simpa [timely, hn, hk] using ht
        exact h.going_eq_nil_of_posted hmem hk
    have hsub : ({ w with posted := before ++ after } : Lobby).tasks.Sublist w.tasks := by
      simp only [tasks, hposted]
      exact ((List.Sublist.append_left (List.sublist_cons_self ..) _).append_left _).map _
    have hrest : ({ w with posted := before ++ after } : Lobby).Attended :=
      ⟨h.coupled, h.held, h.apart.sublist hsub, fun t hmem => h.past t (hsub.subset hmem)⟩
    exact hrest.handled (by simp) (fun _ => hnone)

/-! ## Tokens -/

/-- To do what a session asks for takes no token. -/
theorem countP_granted_obey (k : Nat) (es : List Effect) (going : List Wait) :
    (es.foldl Wait.obey going).countP (Wait.isGranted k) ≤ going.countP (Wait.isGranted k) := by
  induction es generalizing going with
  | nil => exact Nat.le_refl _
  | cons e es ih =>
    refine Nat.le_trans (ih _) ?_
    cases e with
    | beginIdentify task j => simp [Wait.obey, Wait.isGranted]
    | endIdentify task => exact List.filter_sublist.countP_le
    | _ => exact Nat.le_refl _

/-- The waits that begin are those that the session asks for. -/
theorem countP_open_obey (k : Nat) (es : List Effect) (going : List Wait) :
    (es.foldl Wait.obey going).countP (Wait.isOpen k) ≤
      going.countP (Wait.isOpen k) + (waits es).count k := by
  induction es generalizing going with
  | nil => exact Nat.le_refl _
  | cons e es ih =>
    have hrest := ih (Wait.obey going e)
    simp only [waits] at hrest ⊢
    cases e with
    | beginIdentify task j =>
      have hone : (Wait.obey going (.beginIdentify task j)).countP (Wait.isOpen k) =
          going.countP (Wait.isOpen k) + [j].count k := by
        simp [Wait.obey, Wait.isOpen, List.countP_cons, List.count_cons]
      simp only [List.foldl_cons, select_cons, Effect.wait?, Option.toList_some, List.count_append]
      omega
    | endIdentify task =>
      have hless : (Wait.obey going (.endIdentify task)).countP (Wait.isOpen k) ≤
          going.countP (Wait.isOpen k) := List.filter_sublist.countP_le
      simp only [List.foldl_cons, select_cons, Effect.wait?, Option.toList_none, List.nil_append]
      omega
    | _ => exact hrest

/-- What holds of tokens and fresh handshakes between two moves. -/
structure Paid (w : Lobby) : Prop where
  coupled : w.session.Coupled
  /-- A fresh handshake has a token of its own, and so has a wait with an answer that the session
  may still hear. -/
  sent : ∀ k, (said k Payload.isIdentify w.effects).length + w.going.countP (Wait.isGranted k) +
    w.posted.countP (Wait.isGranted k) ≤ w.tokens.count k
  /-- A token was asked for, and so was a wait without an answer. -/
  asked : ∀ k, w.tokens.count k + w.going.countP (Wait.isOpen k) ≤ w.asked.count k

theorem paid_begin (c : Config) (shard : Shard) (now : Instant) : (begin c shard now).Paid where
  coupled := coupled_new c shard now
  sent := by simp [begin]
  asked := by simp [begin]

/-- An answer is worth a token for the connection, to a wait for it that was granted. -/
theorem count_token (task j k : Nat) (outcome : Except Failure Unit) :
    (token j outcome).count k = if Wait.isGranted k ⟨task, j, some outcome⟩ then 1 else 0 := by
  cases outcome <;> by_cases hj : j = k <;>
    simp [token, Wait.isGranted, Except.isOk, Except.toBool, hj]

theorem count_token_le (task j k : Nat) (outcome : Except Failure Unit) :
    (token j outcome).count k ≤ if Wait.isOpen k ⟨task, j, none⟩ then 1 else 0 := by
  cases outcome <;> by_cases hj : j = k <;>
    simp [token, Wait.isOpen, Except.isOk, Except.toBool, hj]

/-- A report that the session hears is worth what its wait was granted. -/
theorem toNat_grants (task j k : Nat) (outcome : Except Failure Unit) :
    ((Input.admitted j outcome).grants k).toNat =
      if Wait.isGranted k ⟨task, j, some outcome⟩ then 1 else 0 := by
  cases outcome <;> by_cases hj : j = k <;>
    simp [Input.grants, Wait.isGranted, Except.isOk, Except.toBool, hj]

/-- What the session handles has no price but the report of a wait. -/
theorem Paid.handled (h : w.Paid) (k : Nat) :
    (said k Payload.isIdentify (w.handled c m i).effects).length +
        (w.handled c m i).going.countP (Wait.isGranted k) ≤
      (said k Payload.isIdentify w.effects).length + w.going.countP (Wait.isGranted k) +
        (i.grants k).toNat ∧
    w.tokens.count k + (w.handled c m i).going.countP (Wait.isOpen k) ≤
      (w.handled c m i).asked.count k := by
  have hsaid := length_identify_step (c := c) h.coupled m i k
  have hgranted := countP_granted_obey k (step c w.session m i).2 w.going
  have hopen := countP_open_obey k (step c w.session m i).2 w.going
  have hasked := h.asked k
  rw [waits_happens (happens_step c w.session m i)] at hopen
  simp only [said] at hsaid ⊢
  simp only [Lobby.handled, select_append, List.length_append, List.count_append]
  omega

/-- **Tokens of a move**: each is taken for a wait, and a fresh handshake has one of its own. -/
theorem Paid.moved (h : w.Paid) {x : Move} {v : Lobby} (hm : Moved c w x v) (hx : x.goesOn) :
    v.Paid := by
  cases hm with
  | nothing _ => exact h
  | handle m i hi =>
    have hgrants : ∀ k, i.grants k = false := by
      intro k
      cases i <;> simp_all [isReport, Input.grants]
    refine ⟨coupled_happens hx (happens_step ..) h.coupled, fun k => ?_, fun k => ?_⟩
    · have hhandled := (h.handled (c := c) (m := m) (i := i) k).1
      have hsent := h.sent k
      have htokens : (w.handled c m i).tokens = w.tokens := rfl
      have hposted : (w.handled c m i).posted = w.posted := rfl
      rw [hgrants k, Bool.toNat_false] at hhandled
      rw [htokens, hposted]
      omega
    · exact (h.handled k).2
  | @answer _ outcome before after task j hgoing =>
    refine ⟨h.coupled, fun k => ?_, fun k => ?_⟩
    · have hsent := h.sent k
      have hnone : Wait.isGranted k ⟨task, j, none⟩ = false := by simp [Wait.isGranted]
      have htoken := count_token task j k outcome
      simp only [hgoing, List.countP_append, List.countP_cons, hnone, Bool.false_eq_true,
        if_false] at hsent
      simp only [List.countP_append, List.countP_cons, List.count_append]
      omega
    · have hasked := h.asked k
      have hsome : Wait.isOpen k ⟨task, j, some outcome⟩ = false := by simp [Wait.isOpen]
      have htoken := count_token_le task j k outcome
      simp only [hgoing, List.countP_append, List.countP_cons] at hasked
      simp only [List.countP_append, List.countP_cons, hsome, Bool.false_eq_true, if_false,
        List.count_append]
      omega
  | @report _ before after task j outcome hgoing =>
    refine ⟨h.coupled, fun k => ?_, fun k => ?_⟩
    · have hsent := h.sent k
      simp only [hgoing, List.countP_append, List.countP_cons, List.countP_nil] at hsent ⊢
      omega
    · have hasked := h.asked k
      simp only [hgoing, List.countP_append, List.countP_cons] at hasked ⊢
      omega
  | @hear n m before after task j outcome _ hposted =>
    have hless : ∀ k, (before ++ after).countP (Wait.isGranted k) +
        (if Wait.isGranted k ⟨task, j, some outcome⟩ then 1 else 0) =
          w.posted.countP (Wait.isGranted k) := by
      intro k
      simp only [hposted, List.countP_append, List.countP_cons]
      omega
    have hrest : ({ w with posted := before ++ after } : Lobby).Paid := by
      refine ⟨h.coupled, fun k => ?_, h.asked⟩
      have hsent := h.sent k
      have hk := hless k
      simp only
      omega
    refine ⟨coupled_happens (by simp) (happens_step ..) h.coupled, fun k => ?_, fun k => ?_⟩
    · have hhandled := (hrest.handled (c := c) (m := m) (i := .admitted j outcome) k).1
      have hsent := h.sent k
      have hk := hless k
      rw [toNat_grants task] at hhandled
      simp only [Lobby.handled] at hhandled ⊢
      omega
    · exact (hrest.handled k).2

/-! ## Runs -/

theorem attended_run (h : w.Attended) {moves : List Move} (horderly : orderly c w moves = true)
    (hmoves : ∀ x ∈ moves, x.goesOn) : (w.run c moves).Attended := by
  induction moves generalizing w with
  | nil => exact h
  | cons x rest ih =>
    rw [orderly, Bool.and_eq_true] at horderly
    exact ih (h.moved (moved_next c w x) horderly.1 (hmoves x (by simp))) horderly.2
      fun y hy => hmoves y (by simp [hy])

theorem paid_run (h : w.Paid) {moves : List Move} (hmoves : ∀ x ∈ moves, x.goesOn) :
    (w.run c moves).Paid := by
  induction moves generalizing w with
  | nil => exact h
  | cons x rest ih =>
    exact ih (h.moved (moved_next c w x) (hmoves x (by simp))) fun y hy => hmoves y (by simp [hy])

/-- Of the waits that the session holds, one goes on at most. -/
theorem Attended.length_going (h : w.Attended) : w.going.length ≤ 1 := by
  have hapart : (w.going.map (·.task)).Nodup := by
    refine h.apart.sublist ?_
    rw [tasks, List.map_append]
    exact List.sublist_append_left ..
  match hgoing : w.going with
  | [] => simp
  | [_] => simp
  | x :: y :: _ =>
    have hx := (h.held x (by simp [hgoing])).1
    have hy := (h.held y (by simp [hgoing])).1
    have hsame : x.task = y.task := Option.some.inj (hx.symm.trans hy)
    simp [hgoing, hsame] at hapart

/-- **Waits and tokens**, after any run that has not ended. If no report was heard while the session
held a later wait, then one wait goes on at most; it is the one that the session holds, and is for
the connection that it hears. In any case a fresh handshake on a connection has a token of its own,
and a token was taken for something that the session asked for. So if it asked once on a connection,
and sent a fresh handshake there, then that has cost one token. -/
theorem waits_of_run (c : Config) (shard : Shard) (now : Instant) (moves : List Move)
    (hmoves : ∀ x ∈ moves, x.goesOn) :
    let w := (begin c shard now).run c moves
    (orderly c (begin c shard now) moves = true → w.going.length ≤ 1 ∧
      ∀ x ∈ w.going, w.session.identifyTask = some x.task ∧
        w.session.connection = some x.connection) ∧
      (∀ k, (said k Payload.isIdentify w.effects).length ≤ w.tokens.count k ∧
        w.tokens.count k ≤ w.asked.count k) ∧
      ∀ k, w.asked.count k = 1 → said k Payload.isIdentify w.effects ≠ [] →
        w.tokens.count k = 1 ∧ (said k Payload.isIdentify w.effects).length = 1 := by
  intro w
  have hpaid : w.Paid := paid_run (paid_begin c shard now) hmoves
  have hcosts : ∀ k, (said k Payload.isIdentify w.effects).length ≤ w.tokens.count k ∧
      w.tokens.count k ≤ w.asked.count k := by
    intro k
    have hsent := hpaid.sent k
    have hasked := hpaid.asked k
    omega
  refine ⟨fun horderly => ?_, hcosts, fun k hone hsaid => ?_⟩
  · have hattended : w.Attended := attended_run (attended_begin c shard now) horderly hmoves
    exact ⟨hattended.length_going, hattended.held⟩
  · have hpositive := List.length_pos_of_ne_nil hsaid
    have hcost := hcosts k
    omega

/-- The session cannot be resumed, says the server. -/
def rejection : String := "\x7b\"op\":9,\"d\":false\x7d"

/-- Something happens to the session. -/
def calmly (i : Input) : Move := .handle Story.calm i

/-- The only wait is granted, reports, and is heard. -/
def granted : List Move := [.answer 0 (.ok ()), .report 0, .hear 0 Story.calm]

/-- The first connection is greeted. -/
def welcomed : List Move :=
  [calmly .start, calmly (.inbound 1 .opened), calmly (.inbound 1 (.received Story.greeting))]

/-- A session is made on the first connection, and the server does not let the second one take it
up. -/
def rejected : List Move :=
  welcomed ++ granted ++
    [calmly (.inbound 1 (.received Story.firstReady)), calmly (.inbound 1 (.closed (some 4000) "")),
      calmly (.reconnectDue 1), calmly (.inbound 2 .opened),
      calmly (.inbound 2 (.received Story.greeting)), calmly (.inbound 2 (.received rejection))]

/-- The rejection is answered with a fresh handshake, and the server accepts that: a single token is
taken for the connection. -/
theorem waits_of_run_rejected :
    let moves := rejected ++ granted ++ [calmly (.inbound 2 (.received Story.firstReady))]
    let w := (begin {} ⟨0, 1⟩ 0).run {} moves
    (∀ x ∈ moves, x.goesOn) ∧ orderly {} (begin {} ⟨0, 1⟩ 0) moves = true ∧
      w.session.phase = .ready ∧ w.asked.count 2 = 1 ∧ w.going.length ≤ 1 ∧
      w.tokens.count 2 = 1 := by
  intro moves w
  have hmoves : ∀ x ∈ moves, x.goesOn := by
    simp [moves, rejected, welcomed, granted, calmly, Move.goesOn]
  have horderly : orderly {} (begin {} ⟨0, 1⟩ 0) moves = true := by decide +kernel
  have hphase : w.session.phase = .ready := by decide +kernel
  have hasked : w.asked.count 2 = 1 := by decide +kernel
  have hsaid : said 2 Payload.isIdentify w.effects ≠ [] := by decide +kernel
  obtain ⟨hwaits, -, honce⟩ := waits_of_run {} ⟨0, 1⟩ 0 moves hmoves
  exact ⟨hmoves, horderly, hphase, hasked, (hwaits horderly).1, (honce 2 hasked hsaid).1⟩

/-- Two runs that go another way. The server rejects the session while the report of a wait is under
way; the session hears that report and holds no wait any more, and when the connection is closed a
wait goes on for it. And a server accepts a session that it rejected before the session has sent
anything: no token is taken, and none will be when the connection is closed. -/
theorem waits_of_run_late :
    let late := welcomed ++ [.answer 0 (.ok ()), .report 0,
      calmly (.inbound 1 (.received rejection)), .hear 0 Story.calm,
      calmly (.inbound 1 (.closed (some 4000) ""))]
    let unasked := rejected ++ [calmly (.inbound 2 (.received Story.firstReady))]
    let w := (begin {} ⟨0, 1⟩ 0).run {} late
    let v := (begin {} ⟨0, 1⟩ 0).run {} unasked
    let u := v.next {} (calmly (.inbound 2 (.closed (some 4000) "")))
    (w.session.connection = none ∧ w.session.identifyTask = none ∧
        w.going.map (fun x => (x.task, x.connection)) = [(2, 1)]) ∧
      v.session.phase = .ready ∧ v.asked.count 2 = 1 ∧ u.tokens.count 2 = 0 ∧
      u.going.length = 0 := by
  decide +kernel

end Lobby

end Switchboard
