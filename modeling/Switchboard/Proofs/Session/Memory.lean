import Switchboard.Proofs.Session.Steps
import Switchboard.Proofs.Wire.Payloads

/-!
# What a session remembers, and what it says

The memory of a session is what it keeps of the session at the server. A step leaves it as it is and
publishes nothing, or blanks it, or accepts one event and publishes it; at most one payload is sent
besides, of one of four kinds: `Session.recalls_happens`.

## Main definitions

* `Session.memory`: what is kept of the session at the server.
* `Session.published`: the events that effects publish.
* `Session.discards`: the inputs that blank the memory.
* `Session.Recalls`: what a step does to the memory, and what it says.
-/
namespace Switchboard.Session

/-- What a session keeps of the session at the server. -/
structure Memory where
  sessionId : Option String
  resumeUrl : Option String
  sequence : Option Nat
deriving DecidableEq

/-- Nothing is known of a session at the server. -/
def Memory.blank : Memory := ⟨none, none, none⟩

/-- The memory of a session. -/
def memory (s : Session) : Memory := ⟨s.sessionId, s.resumeUrl, s.sequence⟩

@[simp] theorem memory_forget (s : Session) : s.forget.memory = .blank := rfl

namespace Effect

/-- The event that an effect publishes. -/
def published? : Effect → Option Event
  | .publish e => some e
  | _ => none

/-- Nothing is published or sent. -/
def isMute : Effect → Bool
  | .publish _ | .send _ _ => false
  | _ => true

end Effect

/-- The events that effects publish, in their order. -/
abbrev published (es : List Effect) : List Event := select Effect.published? es

instance : Effect.Ignores Effect.isMute Effect.published? :=
  ⟨fun e he => by cases e <;> simp_all [Effect.published?, Effect.isMute]⟩

/-- Nothing among the effects is published or sent. -/
def Mute (es : List Effect) : Prop := ∀ e ∈ es, e.isMute = true

@[simp] theorem mute_nil : Mute [] := by simp [Mute]

@[simp] theorem mute_cons (e : Effect) (es : List Effect) :
    Mute (e :: es) ↔ e.isMute = true ∧ Mute es := by simp [Mute]

@[simp] theorem mute_append (es fs : List Effect) : Mute (es ++ fs) ↔ Mute es ∧ Mute fs :=
  List.forall_mem_append

theorem select_of_mute {α : Type} {f : Effect → Option α} [Effect.Ignores Effect.isMute f]
    {es : List Effect} (h : Mute es) : select f es = [] := select_of_ignores h

theorem send_notMem_of_mute {es : List Effect} (h : Mute es) (k : Nat) (p : String) :
    Effect.send k p ∉ es := by
  intro hmem
  exact absurd (h _ hmem) (by simp [Effect.isMute])

variable {c : Config} {m : Moment} {s : Session}

/-! ## Acts that say nothing -/

/-- The memory stays, and nothing is published or sent. -/
structure Quiet (s : Session) (r : Session × List Effect) : Prop where
  memory : r.1.memory = s.memory
  shard : r.1.shard = s.shard
  mute : Mute r.2

@[simp] theorem mute_of_chores {es : List Effect} (h : Chores es) : Mute es := by
  intro e he
  have hchore := h e he
  cases e <;> simp_all [Effect.isMute, Effect.isChore]

theorem quiet_dial : Quiet s (s.dial c) := ⟨rfl, rfl, by simp [dial, Effect.isMute]⟩

theorem quiet_redial {reason : String} : Quiet s (s.redial c reason) :=
  ⟨rfl, rfl, by simp [redial, Effect.isMute]⟩

theorem quiet_fail {cause : FatalCause} : Quiet s (s.fail cause) :=
  ⟨rfl, rfl, by simp [fail, Effect.isMute]⟩

theorem quiet_retreat {reason : String} : Quiet s (s.retreat c m reason) := by
  unfold retreat
  split <;> exact ⟨rfl, rfl, by simp [Effect.isMute]⟩

theorem quiet_leave {reason : String} : Quiet s (s.leave c m reason) := by
  unfold leave
  split
  · exact quiet_redial
  · exact quiet_retreat

theorem quiet_await {k : Nat} : Quiet s (s.await k) := by
  refine ⟨rfl, rfl, ?_⟩
  cases hi : s.identifyTask <;> simp [await, hi, Effect.isMute]

theorem Quiet.following {r : Session × List Effect} {es : List Effect} (h : Quiet s r)
    (hes : Mute es) : Quiet s (following es r) :=
  ⟨h.memory, h.shard, by simp [hes, h.mute]⟩

/-- The same of a session that was changed before without a change to its memory. -/
theorem Quiet.trans {t : Session} {r : Session × List Effect} (h : Quiet t r)
    (hm : t.memory = s.memory) (hs : t.shard = s.shard) : Quiet s r :=
  ⟨h.memory.trans hm, h.shard.trans hs, h.mute⟩

/-- A close blanks the memory if it asks for a fresh session, and leaves it else. -/
theorem quiet_lose {code : Option Nat} {reason : String}
    (h : CloseAction.ofCode code ≠ .reidentify) : Quiet s (s.lose c m code reason) := by
  have hmute : Mute (s.taskEnds ++ [.announce (.disconnected code reason)]) := by
    simp [Effect.isMute]
  refine Quiet.following ?_ hmute
  cases ha : CloseAction.ofCode code with
  | authenticationFailed => exact (quiet_fail (s := s.lost code)).trans rfl rfl
  | fatal => exact (quiet_fail (s := s.lost code)).trans rfl rfl
  | reidentify => exact absurd ha h
  | resume => exact (quiet_retreat (s := s.lost code)).trans rfl rfl

theorem lose_reidentify {code : Option Nat} {reason : String}
    (h : CloseAction.ofCode code = .reidentify) : Quiet s.forget (s.lose c m code reason) := by
  have hmute : Mute (s.taskEnds ++ [.announce (.disconnected code reason)]) := by
    simp [Effect.isMute]
  rw [lose, h]
  refine Quiet.following ?_ hmute
  exact (quiet_retreat (s := (s.lost code).forget)).trans rfl rfl

/-! ## Accepting an event -/

@[simp] theorem shard_accept (kind : String) (q : Nat) (data : Json) :
    (s.accept kind q data).1.shard = s.shard := by
  obtain ⟨_, _, _, _, _, _, h⟩ := exists_accept s kind q data
  rw [h]

@[simp] theorem published_accept (kind : String) (q : Nat) (data : Json) :
    published (s.accept kind q data).2 = [⟨s.shard.id, kind, q, data⟩] := by
  obtain ⟨_, _, _, _, _, told, h⟩ := exists_accept s kind q data
  simp [h, select_map, Function.comp_def, Effect.published?]

/-- The number is remembered, and the identifier and the address if the event gives them. -/
theorem memory_accept (kind : String) (q : Nat) (data : Json) :
    (s.accept kind q data).1.memory =
      match welcome? kind data with
      | some info => ⟨some info.sessionId, info.resumeUrl, some q⟩
      | none => { s.memory with sequence := some q } := by
  cases hw : welcome? kind data with
  | some info =>
    rw [accept_welcome s hw]
    rfl
  | none =>
    by_cases hk : kind = "RESUMED"
    · subst hk
      rw [accept_resumed]
      rfl
    · rw [accept_other s hw hk]
      rfl

theorem send_notMem_accept (kind : String) (q : Nat) (data : Json) (k : Nat) (p : String) :
    Effect.send k p ∉ (s.accept kind q data).2 := by
  obtain ⟨_, _, _, _, _, told, h⟩ := exists_accept s kind q data
  simp [h]

/-! ## Inputs that blank the memory -/

/-- What happens to the session ends the session at the server. -/
def discards (s : Session) : Input → Bool
  | .restart => true
  | .inbound k (.received text) =>
    s.connection = some k &&
      match Message.parse text with
      | .ok (.invalidSession resumable) => !(resumable && s.canResume)
      | _ => false
  | .inbound k (.closed code _) => s.connection = some k && CloseAction.ofCode code = .reidentify
  | _ => false

/-! ## What is said -/

/-- The payloads that a session sends on an input. -/
inductive Speech (c : Config) (s : Session) : Input → String → Prop where
  | heartbeat (i : Input) : Speech c s i (Payload.heartbeat s.sequence)
  | command (op : Nat) (data : Json) (hop : Opcode.allowsApplication op = true) :
    Speech c s (.command op data) (Payload.command op data)
  | resume (k : Nat) (text : String) {ms : Nat} {id : String} {q : Nat}
      (hk : s.connection = some k) (ht : Message.parse text = .ok (.hello ms)) (hu : s.Unshaken)
      (hid : s.sessionId = some id) (hq : s.sequence = some q) :
    Speech c s (.inbound k (.received text)) (Payload.resume c.bareToken id q)
  | identify (k : Nat) (hk : s.connection = some k) (hu : s.Unshaken) :
    Speech c s (.admitted k (.ok ()))
      (Payload.identify c.bareToken c.intents s.shard c.compression c.system)

/-- What a step does to the memory of a session, and what the session says. -/
inductive Recalls (c : Config) (m : Moment) (s : Session) (i : Input) :
    Session × List Effect → Prop where
  | quiet {r : Session × List Effect} (hd : s.discards i = false) (h : Quiet s r) :
    Recalls c m s i r
  /-- A payload is sent over the current connection. -/
  | say {t : Session} (before : List Effect) {after : List Effect} (k : Nat) (p : String)
      (hd : s.discards i = false) (hm : t.memory = s.memory) (hs : t.shard = s.shard)
      (hl : s.link.current = some k) (hp : Speech c s i p) (hb : Mute before) (ha : Mute after) :
    Recalls c m s i (t, before ++ .send k p :: after)
  | blank {r : Session × List Effect} (hd : s.discards i = true) (h : Quiet s.forget r) :
    Recalls c m s i r
  /-- An event is accepted. -/
  | accept (k : Nat) (text kind : String) (q : Nat) (data : Json)
      (hi : i = .inbound k (.received text)) (hk : s.connection = some k)
      (ht : Message.parse text = .ok (.dispatch kind q data)) (ha : s.accepts q = true) :
    Recalls c m s i ((s.heard m).accept kind q data)

/-- A payload is handed over, or the connection is given up. -/
theorem recalls_deliver {t : Session} {i : Input} {p : String} (before : List Effect)
    (hd : s.discards i = false) (hm : t.memory = s.memory) (hs : t.shard = s.shard)
    (hl : t.link = s.link) (hp : Speech c s i p) (hb : Mute before) :
    Recalls c m s i (following before (t.deliver c m p)) := by
  unfold deliver
  split
  · cases hk : s.link.current with
    | none =>
      refine .quiet hd ⟨hm, hs, ?_⟩
      simp [hl, hk, hb]
    | some k =>
      have hsend : following before (t, t.link.current.toList.map (.send · p)) =
          (t, before ++ .send k p :: []) := by simp [following, hl, hk]
      rw [hsend]
      exact .say before k p hd hm hs hk hp hb mute_nil
  · exact .quiet hd ((quiet_retreat.trans hm hs).following hb)

theorem recalls_meets {k : Nat} {text : String} (hk : s.connection = some k) {message : Message}
    (ht : Message.parse text = .ok message) {r : Session × List Effect}
    (h : Meets c m (s.heard m) k message r) : Recalls c m s (.inbound k (.received text)) r := by
  cases h with
  | greet ms _ =>
    exact .quiet (by simp [discards, ht]) ⟨rfl, rfl, by simp⟩
  | resume ms hu hid hq =>
    have hd : s.discards (.inbound k (.received text)) = false := by simp [discards, ht]
    exact recalls_deliver _ hd rfl rfl rfl (.resume k text hk ht hu hid hq) (by simp)
  | ask ms _ _ =>
    refine .quiet (by simp [discards, ht]) (Quiet.following ?_ (by simp))
    exact quiet_await.trans rfl rfl
  | pulse =>
    have hd : s.discards (.inbound k (.received text)) = false := by simp [discards, ht]
    exact recalls_deliver [] hd rfl rfl rfl (.heartbeat _) mute_nil
  | ack => exact .quiet (by simp [discards, ht]) ⟨rfl, rfl, by simp⟩
  | leave => exact .quiet (by simp [discards, ht]) (quiet_leave.trans rfl rfl)
  | redial hr =>
    have hs : s.canResume = true := hr
    exact .quiet (by simp [discards, ht, hs]) (quiet_redial.trans rfl rfl)
  | reject resumable hr =>
    have hs : (resumable && s.canResume) = false := hr
    exact .blank (by simp [discards, ht, hk, hs]) (quiet_await.trans rfl rfl)
  | accept kind q data ha => exact .accept k text kind q data rfl hk ht ha
  | skip _ _ _ _ => exact .quiet (by simp [discards, ht]) ⟨rfl, rfl, by simp⟩
  | unknown _ => exact .quiet (by simp [discards, ht]) ⟨rfl, rfl, by simp⟩

/-- Every step leaves the memory and publishes nothing, or blanks it, or accepts one event. -/
theorem recalls_happens {i : Input} {r : Session × List Effect} (h : Happens c m s i r) :
    Recalls c m s i r := by
  cases h with
  | start _ => exact .quiet rfl quiet_dial
  | restart =>
    refine .blank rfl (Quiet.following ?_ (by simp))
    exact quiet_dial.trans rfl rfl
  | shutdown => exact .quiet rfl ⟨rfl, rfl, by simp⟩
  | stop => exact .quiet rfl ⟨rfl, rfl, by simp⟩
  | refuse _ _ _ _ => exact .quiet rfl ⟨rfl, rfl, by simp [Effect.isMute]⟩
  | command op data w hop _ _ =>
    cases hl : s.link.current with
    | none => exact .quiet rfl ⟨rfl, rfl, by simp [Effect.isMute]⟩
    | some k =>
      exact .say [] k (Payload.command op data) rfl rfl rfl hl (.command op data hop)
        mute_nil (by simp [Effect.isMute])
  | opened _ _ => exact .quiet rfl ⟨rfl, rfl, by simp [Effect.isMute]⟩
  | mumble _ _ _ _ ht => exact .quiet (by simp [discards, ht]) ⟨rfl, rfl, by simp⟩
  | message _ _ hk ht hr => exact recalls_meets hk ht hr
  | close k code reason hk =>
    by_cases ha : CloseAction.ofCode code = .reidentify
    · exact .blank (by simp [discards, hk, ha]) (lose_reidentify ha)
    · exact .quiet (by simp [discards, ha]) (quiet_lose ha)
  | fail _ _ _ _ => exact .quiet rfl quiet_retreat
  | due _ _ _ =>
    exact recalls_deliver [] rfl rfl rfl rfl (.heartbeat _) mute_nil
  | dead _ _ _ => exact .quiet rfl (quiet_leave.trans rfl rfl)
  | late _ _ _ => exact .quiet rfl ⟨rfl, rfl, by simp⟩
  | denied _ _ _ _ => exact .quiet rfl (quiet_retreat.trans rfl rfl)
  | identify k hk hu =>
    exact recalls_deliver [] rfl rfl rfl rfl (.identify k hk hu) mute_nil
  | reconnect _ _ _ => exact .quiet rfl quiet_dial
  | stale k e hk => exact .quiet (by cases e <;> simp [discards, hk]) ⟨rfl, rfl, by simp⟩
  | _ => exact .quiet rfl ⟨rfl, rfl, by simp⟩

/-- A session stays the session of its shard. -/
theorem shard_step (c : Config) (s : Session) (m : Moment) (i : Input) :
    (step c s m i).1.shard = s.shard := by
  have hr := recalls_happens (happens_step c s m i)
  generalize step c s m i = r at hr
  cases hr with
  | quiet _ hq => exact hq.shard
  | say _ _ _ _ _ hs _ _ _ _ => exact hs
  | blank _ hq => exact hq.shard
  | accept _ _ kind q data _ _ _ _ => exact shard_accept kind q data

end Switchboard.Session
