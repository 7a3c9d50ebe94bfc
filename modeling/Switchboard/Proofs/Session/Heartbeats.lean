import Mathlib.Data.List.Chain
import Mathlib.Data.List.Induction
import Switchboard.Proofs.Session.FreshHandshake
import Switchboard.Proofs.Session.Handshakes

/-!
# When a connection is dead

A session gives a connection up for dead on a tick, when as many ticks in a row as the grace has
found a heartbeat that was not acknowledged. A vigil is a session with a log of the heartbeats of
the connection that it hears, and of the ticks and acknowledgements among them.

The first of these ticks may come right after the heartbeat, if the server asked for that heartbeat.
So the heartbeat of a dead connection is older than the intervals of the grace but one; it is older
than all of them if it was sent on a tick, or an interval before the next tick.

## Main definitions

* `Sign`: an entry of the log; `Sign.pending` is the part from the oldest heartbeat on that was not
  acknowledged.
* `Session.Pulses`: what a step does to the count of heartbeats.
* `Vigil`: a session with the log, and with the connections that it left on a tick.

## Main results

* `Session.pulses_happens`: every step is one of four as far as heartbeats go.
* `Vigil.dead_of_run`: the age of the heartbeat that was not acknowledged, for all runs.
-/
namespace Switchboard

/-- What happens to the heartbeats of a connection. -/
inductive Sign where
  /-- An interval went by. -/
  | tick (now : Instant)
  /-- A heartbeat was sent. -/
  | sent (now : Instant)
  /-- The server acknowledged what was sent. -/
  | ack (now : Instant)
deriving DecidableEq

namespace Sign

/-- When it happened. -/
def time : Sign → Instant
  | tick now | sent now | ack now => now

/-- The time of a tick. -/
def tick? : Sign → Option Instant
  | tick now => some now
  | _ => none

/-- The server acknowledged what was sent. -/
def isAck : Sign → Bool
  | ack _ => true
  | _ => false

/-- The times of the ticks of a log. -/
def ticks (log : List Sign) : List Instant := log.filterMap tick?

@[simp] theorem ticks_nil : ticks [] = [] := rfl

@[simp] theorem ticks_append (log later : List Sign) :
    ticks (log ++ later) = ticks log ++ ticks later := List.filterMap_append

@[simp] theorem ticks_tick (now : Instant) : ticks [tick now] = [now] := rfl

@[simp] theorem ticks_sent_cons (now : Instant) (log : List Sign) :
    ticks (sent now :: log) = ticks log := rfl

/-- What is pending after a further entry: a heartbeat goes with those that are pending already, and
a tick is of interest when one is. -/
def extend (pending : List Sign) : Sign → List Sign
  | ack _ => []
  | sent now => pending ++ [sent now]
  | tick now => if pending.isEmpty then [] else pending ++ [tick now]

/-- The part of a log from the oldest heartbeat on that was not acknowledged. -/
def pending (log : List Sign) : List Sign := log.foldl extend []

@[simp] theorem pending_nil : pending [] = [] := rfl

@[simp] theorem pending_concat (log : List Sign) (b : Sign) :
    pending (log ++ [b]) = extend (pending log) b := by
  simp [pending]

/-- What is pending begins with a heartbeat, and no acknowledgement is in it. -/
theorem eq_append_pending (log : List Sign) (h : pending log ≠ []) :
    ∃ before now after, log = before ++ sent now :: after ∧ pending log = sent now :: after ∧
      ∀ b ∈ after, b.isAck = false := by
  induction log using List.reverseRecOn with
  | nil => simp at h
  | append_singleton log b ih =>
    by_cases hlog : pending log = []
    · cases b with
      | sent now => exact ⟨log, now, [], rfl, by simp [extend, hlog], by simp⟩
      | _ => simp [extend, hlog] at h
    · obtain ⟨before, now, after, hlog', hpending, hack⟩ := ih hlog
      have hmore : b.isAck = false → ∀ x ∈ after ++ [b], x.isAck = false := by
        intro hb x hx
        rcases List.mem_append.mp hx with hx | hx
        · exact hack x hx
        · exact List.mem_singleton.mp hx ▸ hb
      cases b with
      | ack _ => simp [extend] at h
      | sent later =>
        exact ⟨before, now, after ++ [sent later], by simp [hlog'], by simp [extend, hpending],
          hmore rfl⟩
      | tick later =>
        exact ⟨before, now, after ++ [tick later], by simp [hlog'], by simp [extend, hpending],
          hmore rfl⟩

/-- Ticks that are an interval apart span as many intervals as there are ticks but one. -/
theorem span_of_isChain {interval first last : Nat} {rest : List Nat}
    (h : (first :: rest).IsChain (· + interval ≤ ·))
    (hlast : (first :: rest).getLast? = some last) :
    first + rest.length * interval ≤ last := by
  induction rest generalizing first with
  | nil => simpa using Nat.le_of_eq (Option.some.inj hlast)
  | cons next rest ih =>
    rw [List.isChain_cons_cons] at h
    have hnext : first + interval ≤ next := h.1
    have hrest := ih h.2 (by simpa using hlast)
    rw [List.length_cons, Nat.succ_mul]
    omega

/-- In a log that is in the order of time, no tick after a heartbeat is older. -/
theorem le_of_mem_ticks {before after : List Sign} {sentAt now : Instant}
    (hsorted : ((before ++ sent sentAt :: after).map time).Pairwise (· ≤ ·))
    (hnow : ∀ b ∈ before ++ sent sentAt :: after, b.time ≤ now) :
    ∀ t ∈ ticks after ++ [now], sentAt ≤ t := by
  rw [List.map_append, List.map_cons, List.pairwise_append, List.pairwise_cons] at hsorted
  intro t ht
  rcases List.mem_append.mp ht with ht | ht
  · obtain ⟨b, hb, htick⟩ := List.mem_filterMap.mp ht
    have hle := hsorted.2.1.1 b.time (List.mem_map_of_mem hb)
    cases b with
    | tick t' =>
      obtain rfl : t' = t := Option.some.inj htick
      exact hle
    | _ => simp [tick?] at htick
  · rw [List.mem_singleton.mp ht]
    exact hnow (.sent sentAt) (by simp)

/-- How old a heartbeat is that so many ticks have found, the last one now. -/
theorem age_of_isChain {interval sentAt now n : Nat} {before after : List Sign}
    (hchain : (ticks (before ++ sent sentAt :: after) ++ [now]).IsChain (· + interval ≤ ·))
    (hafter : ∀ t ∈ ticks after ++ [now], sentAt ≤ t) (hn : n ≤ (ticks after).length + 1) :
    sentAt + (n - 1) * interval ≤ now ∧
      (before.getLast? = some (tick sentAt) ∨ (∀ t ∈ ticks after ++ [now], sentAt + interval ≤ t) →
        sentAt + n * interval ≤ now) := by
  obtain ⟨first, rest, hticks⟩ : ∃ first rest, ticks after ++ [now] = first :: rest :=
    List.exists_cons_of_ne_nil (by simp)
  have hlength : rest.length = (ticks after).length := by
    simpa using (congrArg List.length hticks).symm
  rw [ticks_append, ticks_sent_cons, List.append_assoc, hticks] at hchain
  have hspan : first + rest.length * interval ≤ now := by
    refine span_of_isChain hchain.right_of_append ?_
    rw [← hticks, List.getLast?_concat]
  refine ⟨?_, fun hold => ?_⟩
  · have hfirst : sentAt ≤ first := hafter first (by simp [hticks])
    have hless : (n - 1) * interval ≤ rest.length * interval :=
      Nat.mul_le_mul_right _ (by omega)
    exact Nat.le_trans (Nat.add_le_add hfirst hless) hspan
  · have hfirst : sentAt + interval ≤ first := by
      rcases hold with hlast | hold
      · -- The tick on which the heartbeat was sent is one of the chain.
        obtain ⟨earlier, rfl⟩ := List.getLast?_eq_some_iff.mp hlast
        rw [ticks_append, ticks_tick, List.append_assoc] at hchain
        exact (List.isChain_cons_cons.mp hchain.right_of_append).1
      · exact hold first (by simp [hticks])
    have hless : n * interval ≤ (rest.length + 1) * interval := Nat.mul_le_mul_right _ (by omega)
    rw [Nat.succ_mul] at hless
    calc sentAt + n * interval
      _ ≤ sentAt + (rest.length * interval + interval) := Nat.add_le_add_left hless _
      _ = sentAt + interval + rest.length * interval := by ac_rfl
      _ ≤ first + rest.length * interval := Nat.add_le_add_right hfirst _
      _ ≤ now := hspan

end Sign

namespace Session

open Sign

/-! ## What a step does to heartbeats -/

/-- The effect sends a heartbeat. -/
def Effect.isHeartbeat : Effect → Bool
  | .send _ p => Payload.opcode p = Opcode.heartbeat.toNat
  | _ => false

/-- An interval of the connection that is heard went by. -/
def ticks (s : Session) : Input → Bool
  | .heartbeatDue k => s.connection = some k
  | _ => false

/-- The message on the connection that is heard, if the input is one. -/
def message? (s : Session) : Input → Option Message
  | .inbound k (.received text) =>
    if s.connection = some k then (Message.parse text).toOption else none
  | _ => none

/-- The input is the greeting of the connection that is heard. -/
def isGreeted (s : Session) (i : Input) : Bool :=
  match s.message? i with
  | some (.hello _) => true
  | _ => false

/-- The input acknowledges heartbeats of the connection that is heard. -/
def isAcked (s : Session) (i : Input) : Bool :=
  match s.message? i with
  | some .heartbeatAck => true
  | _ => false

/-- What a step adds to the log of heartbeats. -/
def signs (m : Moment) (s : Session) (i : Input) (es : List Effect) : List Sign :=
  (if s.ticks i then [Sign.tick m.now] else []) ++
    (es.filter Effect.isHeartbeat).map (fun _ => Sign.sent m.now) ++
      if s.isAcked i then [Sign.ack m.now] else []

/-- What a step does to the count of heartbeats, and adds to the log. -/
inductive Pulses (m : Moment) (s : Session) (i : Input) (r : Session × List Effect) : Prop where
  /-- Nothing is outstanding any more. -/
  | clear (hg : r.1.heartbeat.grace = s.heartbeat.grace) (ha : r.1.heartbeat.awaiting = false)
      (hm : r.1.heartbeat.missed = 0)
  | keep (hc : r.1.connection = s.connection) (hi : s.isGreeted i = false)
      (hh : r.1.heartbeat = s.heartbeat) (hb : signs m s i r.2 = [])
  /-- The server wants a heartbeat. -/
  | pulse (hc : r.1.connection = s.connection) (hi : s.isGreeted i = false)
      (hh : r.1.heartbeat = s.heartbeat.sent m.now) (hb : signs m s i r.2 = [sent m.now])
  | tick (hc : r.1.connection = s.connection) (hi : s.isGreeted i = false)
      (hh : r.1.heartbeat = s.heartbeat.tick.1.sent m.now)
      (hb : signs m s i r.2 = [Sign.tick m.now, sent m.now])

variable {c : Config} {m : Moment} {s : Session} {i : Input}

/-- No heartbeat is sent. -/
def Still (es : List Effect) : Prop := es.filter Effect.isHeartbeat = []

theorem still_of_mute {es : List Effect} (h : Mute es) : Still es := by
  refine List.filter_eq_nil_iff.mpr fun e he => ?_
  have hmute := h e he
  cases e <;> simp_all [Effect.isMute, Effect.isHeartbeat]

/-- Other payloads are no heartbeats. -/
theorem still_send {p : String} (h : Payload.opcode p ≠ Opcode.heartbeat.toNat) (k : Option Nat)
    {before after : List Effect} (hb : Mute before) (ha : Mute after) :
    Still (before ++ k.toList.map (.send · p) ++ after) := by
  have hbefore := still_of_mute hb
  have hafter := still_of_mute ha
  cases k <;> simp_all [Still, Effect.isHeartbeat]

theorem Pulses.keep_of_still {r : Session × List Effect} (hc : r.1.connection = s.connection)
    (hh : r.1.heartbeat = s.heartbeat) (ht : s.ticks i = false) (hg : s.isGreeted i = false)
    (ha : s.isAcked i = false) (hes : Still r.2) : Pulses m s i r := by
  have hnone : r.2.filter Effect.isHeartbeat = [] := hes
  exact .keep hc hg hh (by simp [signs, ht, ha, hnone])

/-! ### Acts -/

theorem clear_retreat {t : Session} (hg : t.heartbeat.grace = s.heartbeat.grace)
    (before : List Effect) {reason : String} :
    Pulses m s i (following before (t.retreat c m reason)) := by
  unfold retreat
  split <;> exact .clear hg rfl rfl

theorem clear_leave {t : Session} (hg : t.heartbeat.grace = s.heartbeat.grace) {reason : String} :
    Pulses m s i (t.leave c m reason) := by
  unfold leave
  split
  · exact .clear hg rfl rfl
  · exact clear_retreat hg []

theorem clear_lose {code : Option Nat} {reason : String} :
    Pulses m s i (s.lose c m code reason) := by
  unfold lose
  cases CloseAction.ofCode code with
  | authenticationFailed => exact .clear rfl rfl rfl
  | fatal => exact .clear rfl rfl rfl
  | reidentify => exact clear_retreat (s := s) (t := (s.lost code).forget) rfl _
  | resume => exact clear_retreat (s := s) (t := s.lost code) rfl _

/-- A payload of another kind is handed over, or the connection is given up. -/
theorem pulses_deliver {t : Session} {p : String} (h : Payload.opcode p ≠ Opcode.heartbeat.toNat)
    (hc : t.connection = s.connection) (hh : t.heartbeat = s.heartbeat)
    (ht : s.ticks i = false) (hg : s.isGreeted i = false) (ha : s.isAcked i = false) :
    Pulses m s i (t.deliver c m p) := by
  unfold deliver
  split
  · refine .keep_of_still hc hh ht hg ha ?_
    simpa using still_send h t.link.current mute_nil mute_nil
  · exact clear_retreat (by rw [hh]) []

/-- Nothing is outstanding on a connection that was greeted just now. -/
theorem clear_deliver {t : Session} (before : List Effect) {p : String}
    (hg : t.heartbeat.grace = s.heartbeat.grace) (ha : t.heartbeat.awaiting = false)
    (hm : t.heartbeat.missed = 0) : Pulses m s i (following before (t.deliver c m p)) := by
  unfold deliver
  split
  · exact .clear hg ha hm
  · exact clear_retreat hg before

/-- A heartbeat is handed over to the current connection, or that is given up. -/
theorem pulses_beat {t : Session} {k : Nat} {q : Option Nat} (hl : t.link.current = some k)
    (hc : t.connection = s.connection) (hg : s.isGreeted i = false) (ha : s.isAcked i = false)
    (hh : t.heartbeat = (if s.ticks i then s.heartbeat.tick.1 else s.heartbeat).sent m.now) :
    Pulses m s i (t.deliver c m (Payload.heartbeat q)) := by
  unfold deliver
  split
  · cases ht : s.ticks i with
    | true =>
      exact .tick hc hg (by simpa [ht] using hh) (by simp [signs, ht, ha, hl, Effect.isHeartbeat])
    | false =>
      exact .pulse hc hg (by simpa [ht] using hh) (by simp [signs, ht, ha, hl, Effect.isHeartbeat])
  · refine clear_retreat ?_ []
    rw [hh]
    cases s.ticks i <;> simp

theorem still_accept (kind : String) (q : Nat) (data : Json) :
    Still (s.accept kind q data).2 := by
  refine List.filter_eq_nil_iff.mpr fun e he => ?_
  cases e with
  | send k p => exact absurd he (send_notMem_accept kind q data k p)
  | _ => simp [Effect.isHeartbeat]

theorem heartbeat_accept (kind : String) (q : Nat) (data : Json) :
    (s.accept kind q data).1.heartbeat = s.heartbeat ∧
      (s.accept kind q data).1.connection = s.connection := by
  obtain ⟨_, _, _, _, _, _, h⟩ := exists_accept s kind q data
  rw [h]
  exact ⟨rfl, rfl⟩

/-! ### Steps -/

theorem pulses_meets (hs : s.Coupled) {k : Nat} {text : String} (hk : s.connection = some k)
    {message : Message} (ht : Message.parse text = .ok message) {r : Session × List Effect}
    (h : Meets c m (s.heard m) k message r) : Pulses m s (.inbound k (.received text)) r := by
  have hmessage : s.message? (.inbound k (.received text)) = some message := by
    simp [message?, hk, ht, Except.toOption]
  have hticks : s.ticks (.inbound k (.received text)) = false := rfl
  cases h with
  | greet ms _ => exact .clear rfl rfl rfl
  | resume ms _ _ _ => exact clear_deliver (s := s) _ rfl rfl rfl
  | ask ms _ _ => exact .clear rfl rfl rfl
  | pulse =>
    refine pulses_beat (hs.current hk) rfl ?_ ?_ rfl <;> simp [isGreeted, isAcked, hmessage]
  | ack => exact .clear rfl rfl rfl
  | leave => exact clear_leave (s := s) (t := s.heard m) rfl
  | redial _ => exact .clear rfl rfl rfl
  | reject _ _ =>
    refine .keep_of_still rfl rfl hticks ?_ ?_ (still_of_mute quiet_await.mute) <;>
      simp [isGreeted, isAcked, hmessage]
  | accept kind q data _ =>
    obtain ⟨hh, hc⟩ := heartbeat_accept (s := s.heard m) kind q data
    refine .keep_of_still hc hh hticks ?_ ?_ (still_accept kind q data) <;>
      simp [isGreeted, isAcked, hmessage]
  | skip _ _ _ _ =>
    refine .keep_of_still rfl rfl hticks ?_ ?_ rfl <;> simp [isGreeted, isAcked, hmessage]
  | unknown _ =>
    refine .keep_of_still rfl rfl hticks ?_ ?_ rfl <;> simp [isGreeted, isAcked, hmessage]

/-- Every step clears the count of heartbeats or keeps it, or sends a heartbeat, on a tick or
apart from one. -/
theorem pulses_happens (hs : s.Coupled) {r : Session × List Effect} (h : Happens c m s i r) :
    Pulses m s i r := by
  cases h with
  | start _ => exact .clear rfl rfl rfl
  | restart => exact .clear rfl rfl rfl
  | shutdown => exact .clear rfl rfl rfl
  | stop => exact .clear rfl rfl rfl
  | reconnect _ _ _ => exact .clear rfl rfl rfl
  | refuse _ _ _ _ => exact .keep_of_still rfl rfl rfl rfl rfl rfl
  | command op data w hop _ _ =>
    have hother : Payload.opcode (Payload.command op data) ≠ Opcode.heartbeat.toNat := by
      rw [Payload.opcode_command]
      rintro rfl
      exact absurd hop (by decide)
    have hreply : Mute [.reply (.ok ())] := by simp [Effect.isMute]
    refine .keep_of_still rfl rfl rfl rfl rfl ?_
    simpa using still_send hother s.link.current mute_nil hreply
  | opened _ _ => exact .keep_of_still rfl rfl rfl rfl rfl rfl
  | mumble k text hk _ ht =>
    have hmessage : s.message? (.inbound k (.received text)) = none := by
      simp [message?, ht, Except.toOption]
    refine .keep_of_still rfl rfl rfl ?_ ?_ rfl <;> simp [isGreeted, isAcked, hmessage]
  | message _ _ hk ht hr => exact pulses_meets hs hk ht hr
  | close _ _ _ _ => exact clear_lose
  | fail _ _ _ _ => exact clear_retreat rfl []
  | stale k e hk =>
    have hmessage : s.message? (.inbound k e) = none := by
      cases e <;> simp [message?, hk]
    refine .keep_of_still rfl rfl rfl ?_ ?_ rfl <;> simp [isGreeted, isAcked, hmessage]
  | staleDue k hk => exact .keep_of_still rfl rfl (by simp [Session.ticks, hk]) rfl rfl rfl
  | @due k hk b hb =>
    have hticks : s.ticks (.heartbeatDue k) = true := by simp [Session.ticks, hk]
    refine pulses_beat (hs.current hk) rfl rfl rfl ?_
    simp [hticks, hb, pulsed]
  | @dead k hk b _ hb =>
    refine clear_leave (s := s) (t := { s with heartbeat := b }) ?_
    rw [← Heartbeat.grace_tick s.heartbeat, hb]
  | denied _ _ _ _ => exact clear_retreat (s := s) (t := { s with identifyTask := none }) rfl []
  | identify _ _ _ =>
    exact pulses_deliver (by simp [Opcode.toNat]) rfl rfl rfl rfl rfl
  | _ => exact .keep_of_still rfl rfl rfl rfl rfl rfl

/-! ## The count and the log -/

/-- The count of a session is that of the log, at most. -/
structure Tracks (h : Heartbeat) (log : List Sign) : Prop where
  awaiting : h.awaiting = true → pending log ≠ []
  missed : h.missed ≤ (Sign.ticks (pending log)).length

theorem tracks_of_clear {h : Heartbeat} (ha : h.awaiting = false) (hm : h.missed = 0)
    (log : List Sign) : Tracks h log :=
  ⟨by simp [ha], by simp [hm]⟩

theorem Tracks.sent {h : Heartbeat} {log : List Sign} (ht : Tracks h log) (now : Instant) :
    Tracks (h.sent now) (log ++ [Sign.sent now]) := by
  refine ⟨by simp [extend], ?_⟩
  simpa [extend, Heartbeat.sent] using ht.missed

/-- A tick counts only what is pending. -/
theorem Tracks.tick {h : Heartbeat} {log : List Sign} (ht : Tracks h log) (now : Instant) :
    Tracks h.tick.1 (log ++ [Sign.tick now]) := by
  have hmissed := ht.missed
  cases ha : h.awaiting with
  | false =>
    have htick : h.tick.1 = h := by simp [Heartbeat.tick, ha]
    rw [htick]
    refine ⟨by simp [ha], ?_⟩
    by_cases hlog : pending log = []
    · simpa [hlog, extend] using hmissed
    · simpa [hlog, extend] using Nat.le_add_right_of_le hmissed
  | true =>
    have hlog := ht.awaiting ha
    refine ⟨fun _ => by simp [extend, hlog], ?_⟩
    have hle : h.tick.1.missed ≤ h.missed + 1 := by
      have hmin : min (h.missed + 1) Heartbeat.mostMissed ≤ h.missed + 1 := Nat.min_le_left ..
      simp only [Heartbeat.tick, ha, if_true]
      split <;> exact hmin
    have hticks : (Sign.ticks (pending (log ++ [Sign.tick now]))).length =
        (Sign.ticks (pending log)).length + 1 := by
      simp [extend, hlog]
    omega

/-- **What a step does to the log**: the count stays that of the log. -/
theorem Tracks.happens {log : List Sign} (ht : Tracks s.heartbeat log) (hs : s.Coupled)
    {r : Session × List Effect} (h : Happens c m s i r) :
    Tracks r.1.heartbeat (log ++ signs m s i r.2) ∧
      (r.1.connection ≠ s.connection ∨ s.isGreeted i = true → Tracks r.1.heartbeat []) := by
  have hstay : r.1.connection = s.connection → s.isGreeted i = false →
      (r.1.connection ≠ s.connection ∨ s.isGreeted i = true → Tracks r.1.heartbeat []) := by
    rintro hc hi (hne | hyes)
    · exact absurd hc hne
    · simp [hi] at hyes
  cases pulses_happens hs h with
  | clear _ ha hm => exact ⟨tracks_of_clear ha hm _, fun _ => tracks_of_clear ha hm _⟩
  | keep hc hi hh hb =>
    refine ⟨?_, hstay hc hi⟩
    rw [hh, hb, List.append_nil]
    exact ht
  | pulse hc hi hh hb =>
    refine ⟨?_, hstay hc hi⟩
    rw [hh, hb]
    exact ht.sent m.now
  | tick hc hi hh hb =>
    refine ⟨?_, hstay hc hi⟩
    have hlog : log ++ [Sign.tick m.now, Sign.sent m.now] =
        (log ++ [Sign.tick m.now]) ++ [Sign.sent m.now] := by simp
    rw [hh, hb, hlog]
    exact (ht.tick m.now).sent m.now

theorem Pulses.grace {r : Session × List Effect} (h : Pulses m s i r) :
    r.1.heartbeat.grace = s.heartbeat.grace := by
  cases h with
  | clear hg _ _ => exact hg
  | keep _ _ hh _ => rw [hh]
  | pulse _ _ hh _ => simp [hh]
  | tick _ _ hh _ => simp [hh]

theorem time_of_mem_signs {es : List Effect} {b : Sign} (hb : b ∈ signs m s i es) :
    b.time = m.now := by
  simp only [signs, List.mem_append, List.mem_map] at hb
  rcases hb with (hb | ⟨_, _, rfl⟩) | hb
  · split at hb <;> simp_all [Sign.time]
  · rfl
  · split at hb <;> simp_all [Sign.time]

end Session

open Session

/-- A session with the log of the heartbeats of the connection that it hears, since its greeting. -/
structure Vigil where
  session : Session
  log : List Sign := []
  /-- The connections that the session left on a tick. -/
  quit : List Nat := []

namespace Vigil

/-- A vigil at its beginning. -/
def begin (c : Config) (shard : Shard) (now : Instant) : Vigil := { session := .new c shard now }

/-- The connection that a step leaves on a tick. -/
def left (s : Session) (i : Input) (t : Session) : List Nat :=
  if s.ticks i && t.connection ≠ s.connection then s.connection.toList else []

/-- One more step; the log begins anew with another connection, and with a greeting. -/
def next (c : Config) (w : Vigil) (m : Moment) (i : Input) : Vigil :=
  let r := step c w.session m i
  { session := r.1
    log :=
      if r.1.connection ≠ w.session.connection || w.session.isGreeted i then []
      else w.log ++ signs m w.session i r.2
    quit := w.quit ++ left w.session i r.1 }

/-- More steps. -/
def run (c : Config) (w : Vigil) (inputs : List (Moment × Input)) : Vigil :=
  inputs.foldl (fun w x => w.next c x.1 x.2) w

variable {c : Config} {w : Vigil} {m : Moment} {i : Input}

theorem run_append (w : Vigil) (inputs : List (Moment × Input)) (x : Moment × Input) :
    w.run c (inputs ++ [x]) = (w.run c inputs).next c x.1 x.2 := by
  simp [run]

/-- What holds of a vigil between two steps. -/
structure Kept (c : Config) (w : Vigil) : Prop where
  coupled : w.session.Coupled
  numbered : w.session.Numbered
  grace : w.session.heartbeat.grace = max c.heartbeatAckGrace 1
  tracks : Tracks w.session.heartbeat w.log
  /-- What was left on a tick is not heard again. -/
  past : ∀ k ∈ w.quit, k ≤ w.session.link.begun ∧ w.session.connection ≠ some k
  quit : w.quit.Nodup

theorem kept_begin (c : Config) (shard : Shard) (now : Instant) : (begin c shard now).Kept c where
  coupled := coupled_new c shard now
  numbered := numbered_new c shard now
  grace := rfl
  tracks := tracks_of_clear rfl rfl []
  past := by simp [begin]
  quit := List.nodup_nil

theorem mem_left {s t : Session} {k : Nat} :
    k ∈ left s i t ↔ s.ticks i = true ∧ t.connection ≠ s.connection ∧ s.connection = some k := by
  by_cases h : s.ticks i = true ∧ t.connection ≠ s.connection
  · simp [left, h]
  · have hleft : left s i t = [] := by
      rw [left, if_neg]
      simpa using h
    rw [hleft]
    simp only [List.not_mem_nil, false_iff]
    exact fun hall => h ⟨hall.1, hall.2.1⟩

/-- A connection that is not heard any more is not heard again. -/
theorem unheard_of_moves {s : Session} {r : Session × List Effect} (h : Moves s i r) {k : Nat}
    (hk : k ≤ s.link.begun) (hne : s.connection ≠ some k ∨ r.1.connection ≠ s.connection) :
    k ≤ r.1.link.begun ∧ r.1.connection ≠ some k := by
  cases h with
  | leave h =>
    rcases h.connection with ⟨hc, hl⟩ | ⟨hc, hl⟩
    · exact ⟨by omega, by simp [hc]⟩
    · refine ⟨by omega, ?_⟩
      rw [hc]
      simp only [ne_eq, Option.some.injEq]
      omega
  | stay hc hl _ _ _ =>
    refine ⟨by omega, ?_⟩
    rw [hc]
    exact hne.resolve_right (fun hno => hno hc)

/-- Every step but the end keeps the vigil. -/
theorem Kept.next (h : w.Kept c) (hi : i ≠ .stop) : (w.next c m i).Kept c := by
  have hr := happens_step c w.session m i
  have hmoves := moves_happens h.coupled.resumable hr
  obtain ⟨hlog, hnew⟩ := h.tracks.happens h.coupled hr
  have hpast : ∀ k ∈ w.quit ++ left w.session i (step c w.session m i).1,
      k ≤ (step c w.session m i).1.link.begun ∧ (step c w.session m i).1.connection ≠ some k := by
    intro k hk
    rcases List.mem_append.mp hk with hk | hk
    · obtain ⟨hle, hne⟩ := h.past k hk
      exact unheard_of_moves hmoves hle (.inl hne)
    · obtain ⟨-, hne, hconn⟩ := mem_left.mp hk
      exact unheard_of_moves hmoves (h.numbered k hconn) (.inr hne)
  refine ⟨coupled_happens hi hr h.coupled, h.numbered.of_moves hmoves,
    (pulses_happens h.coupled hr).grace.trans h.grace, ?_, hpast, ?_⟩
  · simp only [Vigil.next]
    split
    case isTrue hreset => exact hnew (by simpa using hreset)
    case isFalse => exact hlog
  · refine List.nodup_append.mpr ⟨h.quit, ?_, ?_⟩
    · unfold left
      split
      · cases w.session.connection <;> simp
      · exact List.nodup_nil
    · rintro k hk _ hleft rfl
      exact (h.past k hk).2 (mem_left.mp hleft).2.2

theorem kept_run (c : Config) (shard : Shard) (now : Instant) (inputs : List (Moment × Input))
    (hstop : ∀ x ∈ inputs, x.2 ≠ .stop) : ((begin c shard now).run c inputs).Kept c := by
  induction inputs using List.reverseRecOn with
  | nil => exact kept_begin c shard now
  | append_singleton inputs x ih =>
    rw [run_append]
    exact (ih fun y hy => hstop y (List.mem_append_left _ hy)).next (hstop x (by simp))

/-- The log is in the order of time if the inputs are. -/
theorem log_run (c : Config) (shard : Shard) (now : Instant) (inputs : List (Moment × Input))
    (htimes : (inputs.map (·.1.now)).Pairwise (· ≤ ·)) :
    let w := (begin c shard now).run c inputs
    (∀ b ∈ w.log, b.time ∈ inputs.map (·.1.now)) ∧ (w.log.map Sign.time).Pairwise (· ≤ ·) := by
  induction inputs using List.reverseRecOn with
  | nil => exact ⟨by simp [run, begin], by simp [run, begin]⟩
  | append_singleton inputs x ih =>
    rw [List.map_append, List.pairwise_append] at htimes
    obtain ⟨hbefore, -, hlast⟩ := htimes
    obtain ⟨hmem, hsorted⟩ := ih hbefore
    simp only [run_append, Vigil.next]
    split
    · simp
    · refine ⟨fun b hb => ?_, ?_⟩
      · rcases List.mem_append.mp hb with hb | hb
        · simpa using .inl (by simpa using hmem b hb)
        · simp [time_of_mem_signs hb]
      · rw [List.map_append, List.pairwise_append]
        refine ⟨hsorted, ?_, ?_⟩
        · rw [List.pairwise_map]
          refine List.pairwise_iff_forall_sublist.mpr fun {a b} hab => ?_
          have hmem := hab.subset
          rw [time_of_mem_signs (hmem (by simp)), time_of_mem_signs (hmem (by simp))]
        · intro t ht t' ht'
          obtain ⟨b, hb, rfl⟩ := List.mem_map.mp ht
          obtain ⟨b', hb', rfl⟩ := List.mem_map.mp ht'
          rw [time_of_mem_signs hb']
          exact hlast _ (hmem b hb) _ (by simp)

/-- A tick that finds too many heartbeats without an acknowledgement. -/
theorem of_tick_dead {h : Heartbeat} {n : Nat} (hn : h.tick.2 = .dead n) :
    h.awaiting = true ∧ h.grace ≤ h.missed + 1 := by
  cases ha : h.awaiting with
  | false => simp [Heartbeat.tick, ha] at hn
  | true =>
    refine ⟨rfl, Nat.le_of_not_lt fun hlt => ?_⟩
    have hmin : ¬ h.grace ≤ min (h.missed + 1) Heartbeat.mostMissed :=
      fun hle => absurd (Nat.le_trans hle (Nat.min_le_left ..)) (Nat.not_le_of_lt hlt)
    simp [Heartbeat.tick, ha, hmin] at hn

/-- The session leaves the connection on such a tick. -/
theorem leaves_of_tick_dead {s : Session} {k n : Nat} {r : Session × List Effect}
    (hk : s.connection = some k) (hn : s.heartbeat.tick.2 = .dead n)
    (h : Happens c m s (.heartbeatDue k) r) : Leaves s r := by
  cases h with
  | staleDue _ hno => exact absurd hk hno
  | due _ _ hb => simp [hb] at hn
  | dead _ _ _ => exact leaves_leave.following [] rfl rfl

/-- **Death by heartbeats**, after any run that has not ended, with inputs in the order of time. A
connection is left on one tick at most. If that is for too many heartbeats without an
acknowledgement, with ticks at least an interval apart, then a heartbeat was not acknowledged that
is older than the intervals of the grace but one. It is older than all of them if it was sent on a
tick, or at least an interval before the ticks that followed. -/
theorem dead_of_run (c : Config) (shard : Shard) (now : Instant) (inputs : List (Moment × Input))
    (hstop : ∀ x ∈ inputs, x.2 ≠ .stop) (m : Moment) (k : Nat)
    (htimes : (inputs.map (·.1.now) ++ [m.now]).Pairwise (· ≤ ·)) :
    let w := (begin c shard now).run c inputs
    let v := w.next c m (.heartbeatDue k)
    let grace := max c.heartbeatAckGrace 1
    v.quit.Nodup ∧
      ∀ n interval, w.session.connection = some k → w.session.heartbeat.tick.2 = .dead n →
        (Sign.ticks w.log ++ [m.now]).IsChain (· + interval ≤ ·) →
          k ∈ v.quit ∧ ∃ before sentAt after, w.log = before ++ Sign.sent sentAt :: after ∧
            (∀ b ∈ after, b.isAck = false) ∧ sentAt + (grace - 1) * interval ≤ m.now ∧
            (before.getLast? = some (.tick sentAt) ∨
                (∀ t ∈ Sign.ticks after ++ [m.now], sentAt + interval ≤ t) →
              sentAt + grace * interval ≤ m.now) := by
  intro w v grace
  have hkept : w.Kept c := kept_run c shard now inputs hstop
  refine ⟨(hkept.next (by simp)).quit, fun n interval hk hn hchain => ⟨?_, ?_⟩⟩
  · refine List.mem_append_right _ (mem_left.mpr ⟨by simp [Session.ticks, hk], ?_, hk⟩)
    have hle := hkept.numbered k hk
    rcases (leaves_of_tick_dead hk hn (happens_step c w.session m _)).connection with
      ⟨hc, -⟩ | ⟨hc, -⟩
    · simp [hc, hk]
    · rw [hc, hk]
      simp only [ne_eq, Option.some.injEq]
      omega
  · obtain ⟨hawaiting, hgrace⟩ := of_tick_dead hn
    obtain ⟨before, sentAt, after, hlog, hpending, hack⟩ :=
      Sign.eq_append_pending w.log (hkept.tracks.awaiting hawaiting)
    have hmissed := hkept.tracks.missed
    rw [hpending, Sign.ticks_sent_cons] at hmissed
    rw [hkept.grace] at hgrace
    rw [List.pairwise_append] at htimes
    obtain ⟨hmem, hsorted⟩ := log_run c shard now inputs htimes.1
    have hnow : ∀ b ∈ w.log, b.time ≤ m.now := fun b hb => htimes.2.2 _ (hmem b hb) _ (by simp)
    have hafter : ∀ t ∈ Sign.ticks after ++ [m.now], sentAt ≤ t :=
      Sign.le_of_mem_ticks (hlog ▸ hsorted) (hlog ▸ hnow)
    obtain ⟨hyounger, holder⟩ := Sign.age_of_isChain (n := grace) (hlog ▸ hchain) hafter
      (Nat.le_trans hgrace (Nat.succ_le_succ hmissed))
    exact ⟨before, sentAt, after, hlog, hack, hyounger, holder⟩

/-- Surroundings in which everything works, at a time. -/
def calmAt (t : Instant) : Moment := { Story.calm with now := t }

/-- The interval that `Story.greeting` announces. -/
def announced : Span := Span.ofMillis 41250

/-- Two heartbeats that were sent on ticks are not acknowledged, and the connection is left on the
third tick: one of them is an interval old at least. -/
theorem dead_of_run_ticks :
    let inputs : List (Moment × Input) :=
      Story.greeted ++ [(calmAt 1, .heartbeatDue 1), (calmAt (1 + announced), .heartbeatDue 1)]
    let m := calmAt (1 + 2 * announced)
    let w := (begin {} ⟨0, 1⟩ 0).run {} inputs
    (∀ x ∈ inputs, x.2 ≠ .stop) ∧ (inputs.map (·.1.now) ++ [m.now]).Pairwise (· ≤ ·) ∧
      w.session.connection = some 1 ∧ w.session.heartbeat.tick.2 = .dead 2 ∧
      (Sign.ticks w.log ++ [m.now]).IsChain (· + announced ≤ ·) ∧
      1 ∈ (w.next {} m (.heartbeatDue 1)).quit ∧
      ∃ sentAt, .sent sentAt ∈ w.log ∧ sentAt + announced ≤ m.now := by
  intro inputs m w
  have hstop : ∀ x ∈ inputs, x.2 ≠ .stop := by simp [inputs, Story.greeted]
  have htimes : (inputs.map (·.1.now) ++ [m.now]).Pairwise (· ≤ ·) := by decide
  have hk : w.session.connection = some 1 := by decide +kernel
  have hdead : w.session.heartbeat.tick.2 = .dead 2 := by decide +kernel
  have hticks : Sign.ticks w.log = [1, 1 + announced] := by decide +kernel
  have hchain : (Sign.ticks w.log ++ [m.now]).IsChain (· + announced ≤ ·) := by
    rw [hticks]
    decide
  obtain ⟨-, hlate⟩ := dead_of_run {} ⟨0, 1⟩ 0 inputs hstop m 1 htimes
  obtain ⟨hquit, before, sentAt, after, hlog, -, hold, -⟩ := hlate 2 announced hk hdead hchain
  have hgrace : max ({} : Config).heartbeatAckGrace 1 - 1 = 1 := rfl
  rw [hgrace, Nat.one_mul] at hold
  exact ⟨hstop, htimes, hk, hdead, hchain, hquit, sentAt, by simp [w, hlog], hold⟩

/-- The server wants a heartbeat. -/
def wanted : String := "\x7b\"op\":1,\"d\":null\x7d"

/-- A heartbeat that the server wanted before the first tick is counted on that tick. With a grace
of two the connection is left on the second tick, when no heartbeat is two intervals old. -/
theorem dead_of_run_wanted :
    let inputs : List (Moment × Input) :=
      Story.greeted ++ [(calmAt 1, .inbound 1 (.received wanted)),
        (calmAt announced, .heartbeatDue 1)]
    let m := calmAt (2 * announced)
    let w := (begin {} ⟨0, 1⟩ 0).run {} inputs
    ({} : Config).heartbeatAckGrace = 2 ∧ w.session.connection = some 1 ∧
      w.session.heartbeat.interval = some announced ∧ w.session.heartbeat.tick.2 = .dead 2 ∧
      (Sign.ticks w.log ++ [m.now]).IsChain (· + announced ≤ ·) ∧
      ∀ sentAt, .sent sentAt ∈ w.log → ¬ sentAt + 2 * announced ≤ m.now := by
  intro inputs m w
  have hk : w.session.connection = some 1 := by decide +kernel
  have hinterval : w.session.heartbeat.interval = some announced := by decide +kernel
  have hdead : w.session.heartbeat.tick.2 = .dead 2 := by decide +kernel
  have hlog : w.log = [.sent 1, .tick announced, .sent announced] := by decide +kernel
  have hchain : (Sign.ticks w.log ++ [m.now]).IsChain (· + announced ≤ ·) := by
    rw [hlog]
    decide
  refine ⟨rfl, hk, hinterval, hdead, hchain, fun sentAt hsent hold => ?_⟩
  have hlate : sentAt ≤ 0 := by
    have hold' : sentAt + 2 * announced ≤ 0 + 2 * announced := by
      rw [Nat.zero_add]
      exact hold
    exact Nat.le_of_add_le_add_right hold'
  rw [hlog] at hsent
  have hyoung : 0 < sentAt := by
    rcases (by simpa using hsent : sentAt = 1 ∨ sentAt = announced) with rfl | rfl <;> decide
  exact absurd hlate (Nat.not_le_of_lt hyoung)

end Vigil

end Switchboard
