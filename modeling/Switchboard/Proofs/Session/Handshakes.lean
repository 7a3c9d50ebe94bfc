import Mathlib.Data.List.Induction
import Switchboard.Proofs.Session.Announcements
import Switchboard.Proofs.Session.CloseReaction
import Switchboard.Proofs.Session.FreshHandshake

/-!
# When handshakes are sent

A connection has room for one handshake, and for one more each time the server does not accept the
session on it. A fresh handshake is the answer to an admission for the connection. One that takes up
a session is the answer to the greeting; what it names was published since the memory was last
blanked, and the connection was begun at the address that was published with it.

## Main definitions

* `Session.Memory.note`: the memory as a function of the events that were published.
* `Session.said`: the payloads of a kind that effects send over a connection.
* `Session.room`: how many handshakes a connection has room for.
* `Story.Addressed`: where the connection that is heard was begun.
* `Desk.given`: what the session of a schedule was given.

## Main results

* `Session.length_said_run`: handshakes and rejections of a run.
* `Desk.given_of_run`: a schedule is a run in which openings come first.
* `Story.handshakes_of_run`: all that is said above, for all runs and all schedules.
-/
namespace Switchboard

namespace Session

/-! ## The memory as a function of events -/

/-- The memory after one more event was published. -/
def Memory.note (mem : Memory) (e : Event) : Memory :=
  match welcome? e.kind e.payload with
  | some info => ⟨some info.sessionId, info.resumeUrl, some e.sequence⟩
  | none => { mem with sequence := some e.sequence }

/-- What events say of sessions that the server made. -/
def welcomes (es : List Event) : List ReadyInfo := es.filterMap fun e => welcome? e.kind e.payload

theorem welcomes_concat (es : List Event) (e : Event) :
    welcomes (es ++ [e]) = welcomes es ++ (welcome? e.kind e.payload).toList := by
  cases h : welcome? e.kind e.payload <;> simp [welcomes, h]

/-- The memory holds what the last welcome said, and the number of the last event. -/
theorem foldl_note (es : List Event) :
    es.foldl Memory.note .blank =
      ⟨(welcomes es).getLast?.map (·.sessionId), (welcomes es).getLast?.bind (·.resumeUrl),
        es.getLast?.map (·.sequence)⟩ := by
  induction es using List.reverseRecOn with
  | nil => rfl
  | append_singleton es e ih =>
    rw [List.foldl_append, ih, welcomes_concat]
    cases h : welcome? e.kind e.payload <;> simp [Memory.note, h]

/-! ## What is said over a connection -/

/-- The payload that an effect sends over a connection, if it is of a kind. -/
def Effect.said? (k : Nat) (kind : String → Bool) : Effect → Option String
  | .send j p => if j = k ∧ kind p = true then some p else none
  | _ => none

/-- The payloads of a kind that effects send over a connection. -/
abbrev said (k : Nat) (kind : String → Bool) (es : List Effect) : List String :=
  select (Effect.said? k kind) es

variable {c : Config} {m : Moment} {s : Session} {k : Nat} {kind : String → Bool}

instance : Effect.Ignores Effect.isMute (Effect.said? k kind) :=
  ⟨fun e he => by cases e <;> simp_all [Effect.said?, Effect.isMute]⟩

theorem mem_said {es : List Effect} {p : String} :
    p ∈ said k kind es ↔ .send k p ∈ es ∧ kind p = true := by
  rw [said, mem_select]
  constructor
  · rintro ⟨e, he, hp⟩
    cases e with
    | send j t =>
      obtain ⟨⟨rfl, hkind⟩, rfl⟩ : (j = k ∧ kind t = true) ∧ t = p := by
        simpa [Effect.said?] using hp
      exact ⟨he, hkind⟩
    | _ => simp [Effect.said?] at hp
  · rintro ⟨he, hp⟩
    exact ⟨_, he, by simp [Effect.said?, hp]⟩

theorem said_accept (name : String) (q : Nat) (data : Json) :
    said k kind (s.accept name q data).2 = [] := by
  rw [List.eq_nil_iff_forall_not_mem]
  intro p hp
  exact send_notMem_accept name q data k p (mem_said.mp hp).1

/-- A step says one thing at most, over the current connection. -/
theorem said_of_recalls {i : Input} {r : Session × List Effect} (h : Recalls c m s i r) (k : Nat)
    (kind : String → Bool) :
    said k kind r.2 = [] ∨
      ∃ p, said k kind r.2 = [p] ∧ kind p = true ∧ s.link.current = some k ∧ Speech c s i p := by
  cases h with
  | quiet _ hq => exact .inl (select_of_mute hq.mute)
  | blank _ hq => exact .inl (select_of_mute hq.mute)
  | accept _ _ name q data _ _ _ _ => exact .inl (said_accept name q data)
  | say _ j p _ _ _ hl hp hb ha =>
    by_cases hkind : j = k ∧ kind p = true
    · obtain ⟨rfl, hkind⟩ := hkind
      refine .inr ⟨p, ?_, hkind, hl, hp⟩
      simp [select_of_mute hb, select_of_mute ha, Effect.said?, hkind]
    · left
      simp [select_of_mute hb, select_of_mute ha, Effect.said?, hkind]

/-- What is sent goes over the current connection. -/
theorem speech_of_recalls {i : Input} {r : Session × List Effect} (h : Recalls c m s i r) {k : Nat}
    {p : String} (hp : .send k p ∈ r.2) : s.link.current = some k ∧ Speech c s i p := by
  have hmem : p ∈ said k (fun _ => true) r.2 := mem_said.mpr ⟨hp, rfl⟩
  rcases said_of_recalls h k fun _ => true with hnone | ⟨p', hsaid, -, hl, hspeech⟩
  · simp [hnone] at hmem
  · obtain rfl : p = p' := by simpa [hsaid] using hmem
    exact ⟨hl, hspeech⟩

/-! ## Room for a handshake -/

/-- The connection has room for a handshake: it was not begun yet, or it is heard and none was
sent. -/
def HasRoom (s : Session) (k : Nat) : Prop :=
  s.link.begun < k ∨ s.connection = some k ∧ s.handshakeSent = false

instance (s : Session) (k : Nat) : Decidable (s.HasRoom k) := inferInstanceAs (Decidable (_ ∨ _))

/-- How many handshakes a connection has room for now. -/
def room (s : Session) (k : Nat) : Nat := if s.HasRoom k then 1 else 0

/-- A message on the connection says that the server does not accept the session, and nothing can
be taken up instead. -/
def rejects (s : Session) (k : Nat) : Input → Bool
  | .inbound j (.received text) =>
    j = k && s.connection = some k &&
      match Message.parse text with
      | .ok (.invalidSession resumable) => !(resumable && s.canResume)
      | _ => false
  | _ => false

/-- The connection that is heard was begun. -/
def Numbered (s : Session) : Prop := ∀ k, s.connection = some k → k ≤ s.link.begun

theorem Numbered.of_moves {i : Input} {r : Session × List Effect} (hs : s.Numbered)
    (h : Moves s i r) : r.1.Numbered := by
  intro k hk
  cases h with
  | leave h =>
    rcases h.connection with ⟨hc, -⟩ | ⟨hc, hb⟩
    · simp [hc] at hk
    · have : s.link.begun + 1 = k := by simpa [hc] using hk
      omega
  | stay hc hb _ _ _ =>
    rw [hb]
    exact hs k (hc ▸ hk)

/-- Only a connection that was not begun yet has room after another was left. -/
theorem Leaves.hasRoom {r : Session × List Effect} (h : Leaves s r) (hr : r.1.HasRoom k) :
    s.link.begun < k := by
  rcases h.connection with ⟨hc, hb⟩ | ⟨hc, hb⟩
  · simpa [HasRoom, hc, hb] using hr
  · rcases hr with hr | ⟨hr, -⟩
    · omega
    · have : s.link.begun + 1 = k := by simpa [hc] using hr
      omega

theorem HasRoom.of_deliver {t : Session} {p : String} (hr : (t.deliver c m p).1.HasRoom k)
    (hc : t.connection = s.connection) (hb : t.link.begun = s.link.begun)
    (hh : t.handshakeSent = false → s.handshakeSent = false) : s.HasRoom k := by
  unfold deliver at hr
  split at hr
  · rw [HasRoom, hc, hb] at hr
    exact hr.imp_right (fun h => ⟨h.1, hh h.2⟩)
  · exact .inl (hb ▸ leaves_retreat.hasRoom hr)

/-- There is no room after a handshake. -/
theorem hasRoom_deliver {t : Session} {p : String} (hr : (t.deliver c m p).1.HasRoom k)
    (hh : t.handshakeSent = true) : t.link.begun < k := by
  unfold deliver at hr
  split at hr
  · simpa [HasRoom, hh] using hr
  · exact leaves_retreat.hasRoom hr

theorem HasRoom.of_accept {name : String} {q : Nat} {data : Json}
    (hr : (s.accept name q data).1.HasRoom k) : s.HasRoom k := by
  obtain ⟨_, _, _, _, _, _, h⟩ := exists_accept s name q data
  rwa [h] at hr

theorem HasRoom.of_meets {j : Nat} {text : String} {message : Message}
    {r : Session × List Effect} (hj : s.connection = some j)
    (ht : Message.parse text = .ok message) (h : Meets c m s j message r)
    (hno : s.rejects k (.inbound j (.received text)) = false) (hr : r.1.HasRoom k) :
    s.HasRoom k := by
  cases h with
  | resume _ hu _ _ => exact HasRoom.of_deliver hr rfl rfl (fun _ => hu.2)
  | pulse => exact HasRoom.of_deliver hr rfl rfl id
  | leave => exact .inl (leaves_leave.hasRoom hr)
  | redial _ => exact .inl (leaves_redial.hasRoom hr)
  | reject resumable hcan =>
    rcases hr with hr | ⟨hr, -⟩
    · exact .inl hr
    · -- The connection that is heard is the one on which the session is rejected.
      obtain rfl : j = k := by simpa [await, awaiting, rejected, forget, hj] using hr
      simp [rejects, ht, hj, hcan] at hno
  | accept _ _ _ _ => exact HasRoom.of_accept hr
  | _ => exact hr

/-- A step makes no room, unless the server rejects the session. -/
theorem HasRoom.of_happens {i : Input} {r : Session × List Effect} (h : Happens c m s i r)
    (hno : s.rejects k i = false) (hr : r.1.HasRoom k) : s.HasRoom k := by
  cases h with
  | start _ => exact .inl (leaves_dial.hasRoom hr)
  | restart => exact .inl (leaves_dial.hasRoom (s := s.renewed) hr)
  | shutdown =>
    rcases hr with hr | ⟨hr, -⟩
    · exact .inl hr
    · simp [shut, released] at hr
  | message _ _ hj ht hm => exact HasRoom.of_meets (s := s.heard m) hj ht hm hno hr
  | close _ _ _ _ => exact .inl (leaves_lose.hasRoom hr)
  | fail _ _ _ _ => exact .inl (leaves_retreat.hasRoom hr)
  | due _ _ _ => exact HasRoom.of_deliver hr rfl rfl id
  | dead _ _ _ =>
    have hlt := leaves_leave.hasRoom hr
    exact .inl hlt
  | denied _ _ _ _ =>
    have hlt := leaves_retreat.hasRoom hr
    exact .inl hlt
  | identify _ _ hu => exact HasRoom.of_deliver hr rfl rfl (fun _ => hu.2)
  | reconnect _ _ _ => exact .inl (leaves_dial.hasRoom hr)
  | _ => exact hr

/-- A handshake takes the room that there is. -/
theorem room_of_speech {i : Input} {r : Session × List Effect} {p : String} (hs : s.Numbered)
    (h : Happens c m s i r) (hp : Speech c s i p) (hkind : Payload.isHandshake p = true) :
    ∃ j, s.connection = some j ∧ s.HasRoom j ∧ ¬ r.1.HasRoom j := by
  cases hp with
  | heartbeat _ => simp [Payload.isHandshake, Opcode.toNat] at hkind
  | command op data hop => simp [Payload.isHandshake_command hop] at hkind
  | resume j text hj ht hu hid hq =>
    refine ⟨j, hj, .inr ⟨hj, hu.2⟩, fun hr => ?_⟩
    have hle := hs j hj
    cases h with
    | stale _ _ hstale => exact hstale hj
    | mumble _ _ _ _ hbad => simp [ht] at hbad
    | message _ _ _ ht' hm =>
      obtain rfl := Except.ok.inj (ht.symm.trans ht')
      cases hm with
      | greet _ hno => exact hno hu
      | resume _ _ _ _ =>
        have hlt := hasRoom_deliver hr rfl
        exact absurd hle (Nat.not_le_of_lt hlt)
      | ask _ _ hcan => simp [canResume, heard, hid, hq] at hcan
  | identify j hj hu =>
    refine ⟨j, hj, .inr ⟨hj, hu.2⟩, fun hr => ?_⟩
    have hle := hs j hj
    cases h with
    | late _ _ hlate => exact hlate ⟨hj, hu⟩
    | identify _ _ _ =>
      have hlt := hasRoom_deliver hr rfl
      exact absurd hle (Nat.not_le_of_lt hlt)

/-- **What a step says of handshakes** is covered by the room that it takes and by the rejections
that it hears of. -/
theorem length_said_step (hs : s.Numbered) (hcoupled : s.Coupled) (m : Moment) (i : Input)
    (k : Nat) :
    (said k Payload.isHandshake (step c s m i).2).length + (step c s m i).1.room k ≤
      s.room k + (s.rejects k i).toNat := by
  have h := happens_step c s m i
  rcases said_of_recalls (recalls_happens h) k Payload.isHandshake with
    hnone | ⟨p, hsaid, hkind, hl, hp⟩
  · cases hno : s.rejects k i with
    | true =>
      simp only [hnone, List.length_nil, room, Bool.toNat_true]
      split <;> omega
    | false =>
      have hroom : (step c s m i).1.HasRoom k → s.HasRoom k := .of_happens h hno
      by_cases hr : (step c s m i).1.HasRoom k
      · simp [hnone, room, hr, hroom hr]
      · simp [hnone, room, hr]
  · obtain ⟨j, hj, hbefore, hafter⟩ := room_of_speech hs h hp hkind
    obtain rfl : j = k := by simpa [hcoupled.current hj] using hl
    simp [hsaid, room, hbefore, hafter]

/-! ## Runs -/

/-- How often the server rejects the session on a connection in a run. -/
def rejections (c : Config) (k : Nat) : Session → List (Moment × Input) → Nat
  | _, [] => 0
  | s, (m, i) :: rest => (s.rejects k i).toNat + rejections c k (step c s m i).1 rest

theorem numbered_new (c : Config) (shard : Shard) (now : Instant) :
    (new c shard now).Numbered := by
  simp [Numbered, new]

/-- **Handshakes of a run**: room at the beginning, and rejections on the way, for each of them. -/
theorem length_said_run (hs : s.Numbered) (hcoupled : s.Coupled) (k : Nat)
    (inputs : List (Moment × Input)) (hstop : ∀ x ∈ inputs, x.2 ≠ .stop) :
    (said k Payload.isHandshake (run c s inputs).2.flatten).length ≤
      s.room k + rejections c k s inputs := by
  induction inputs generalizing s with
  | nil => simp [run]
  | cons x rest ih =>
    obtain ⟨m, i⟩ := x
    have h := happens_step c s m i
    have hstep := length_said_step (c := c) hs hcoupled m i k
    have hrest := ih (hs.of_moves (moves_happens hcoupled.resumable h))
      (coupled_happens (hstop (m, i) (by simp)) h hcoupled)
      (fun y hy => hstop y (by simp [hy]))
    simp only [said] at hstep hrest ⊢
    simp only [run, List.flatten_cons, select_append, List.length_append, rejections]
    omega

/-- The effects of a run begin connections in their order. -/
theorem follow_run (c : Config) (s : Session) (inputs : List (Moment × Input)) :
    s.link.follow (run c s inputs).2.flatten = some (run c s inputs).1.link := by
  induction inputs generalizing s with
  | nil => rfl
  | cons x rest ih =>
    have hstep := follow_happens (happens_step c s x.1 x.2)
    simp only [run, List.flatten_cons, Link.follow_append, hstep]
    exact ih _

/-- Connections with different numbers are begun by different effects. -/
theorem eq_of_begun? {es : List Effect} (h : (es.filterMap Effect.begun?).Nodup) {e e' : Effect}
    (he : e ∈ es) (he' : e' ∈ es) {k : Nat} (hk : e.begun? = some k) (hk' : e'.begun? = some k) :
    e = e' := by
  rw [List.Nodup, List.pairwise_filterMap] at h
  have hsame : ∀ e ∈ es, ∀ e' ∈ es, e.begun? = some k → e'.begun? = some k → e = e' := by
    refine List.Pairwise.forall_of_forall_of_flip (fun _ _ _ _ => rfl) ?_ ?_
    · exact h.imp fun {e e'} hne he he' => absurd rfl (hne k he k he')
    · exact h.imp fun {e e'} hne he' he => absurd rfl (hne k he k he')
  exact hsame e he e' he' hk hk'

/-- The input is an admission for the connection. -/
def Input.grants (k : Nat) : Input → Bool
  | .admitted j (.ok ()) => j = k
  | _ => false

/-- A fresh handshake is the answer to an admission, in the handshake of the connection that is
heard. -/
theorem Speech.identify_iff {i : Input} {p : String} (h : Speech c s i p) :
    Payload.opcode p = Opcode.identify.toNat ↔
      ∃ j, i = .admitted j (.ok ()) ∧ s.connection = some j ∧ s.Unshaken ∧
        p = Payload.identify c.bareToken c.intents s.shard c.compression c.system := by
  constructor
  · intro hp
    cases h with
    | heartbeat _ => simp [Opcode.toNat] at hp
    | command op data hop =>
      rw [Payload.opcode_command] at hp
      subst hp
      exact absurd hop (by decide)
    | resume _ _ _ _ _ _ _ => simp [Opcode.toNat] at hp
    | identify j hj hu => exact ⟨j, rfl, hj, hu, rfl⟩
  · rintro ⟨j, -, -, -, rfl⟩
    exact Payload.opcode_identify ..

/-- A handshake that takes up a session is the answer to the greeting of the connection that is
heard. -/
theorem Speech.of_resume {i : Input} {p : String} (h : Speech c s i p)
    (hp : Payload.opcode p = Opcode.resume.toNat) :
    ∃ j text ms id q, i = .inbound j (.received text) ∧ Message.parse text = .ok (.hello ms) ∧
      s.connection = some j ∧ s.Unshaken ∧ s.sessionId = some id ∧ s.sequence = some q ∧
      p = Payload.resume c.bareToken id q := by
  cases h with
  | heartbeat _ => simp [Opcode.toNat] at hp
  | command op data hop =>
    rw [Payload.opcode_command] at hp
    subst hp
    exact absurd hop (by decide)
  | resume j text hj ht hu hid hq => exact ⟨j, text, _, _, _, rfl, ht, hj, hu, hid, hq, rfl⟩
  | identify _ _ _ => simp [Opcode.toNat] at hp

/-- An admission is answered with one fresh handshake at most, and nothing else is. -/
theorem length_identify_step (hcoupled : s.Coupled) (m : Moment) (i : Input) (k : Nat) :
    (said k Payload.isIdentify (step c s m i).2).length ≤ (i.grants k).toNat := by
  rcases said_of_recalls (recalls_happens (happens_step c s m i)) k Payload.isIdentify with
    hnone | ⟨p, hsaid, hkind, hl, hp⟩
  · simp [hnone]
  · obtain ⟨j, rfl, hj, -⟩ := hp.identify_iff.mp (by simpa [Payload.isIdentify] using hkind)
    obtain rfl : j = k := by simpa [hcoupled.current hj] using hl
    simp [hsaid, Input.grants]

/-- **Fresh handshakes of a run**: an admission for each of them. -/
theorem length_identify_run (hcoupled : s.Coupled) (k : Nat) (inputs : List (Moment × Input))
    (hstop : ∀ x ∈ inputs, x.2 ≠ .stop) :
    (said k Payload.isIdentify (run c s inputs).2.flatten).length ≤
      inputs.countP (·.2.grants k) := by
  induction inputs generalizing s with
  | nil => simp [run]
  | cons x rest ih =>
    obtain ⟨m, i⟩ := x
    have hstep := length_identify_step (c := c) hcoupled m i k
    have hrest := ih (coupled_happens (hstop (m, i) (by simp)) (happens_step c s m i) hcoupled)
      (fun y hy => hstop y (by simp [hy]))
    simp only [said] at hstep hrest ⊢
    simp only [run, List.flatten_cons, select_append, List.length_append, List.countP_cons]
    cases hg : i.grants k with
    | true =>
      simp only [hg, Bool.toNat_true] at hstep
      simp only [if_true]
      omega
    | false =>
      simp only [hg, Bool.toNat_false] at hstep
      simp only [Bool.false_eq_true, if_false]
      omega

/-! ## Where a connection was begun -/

/-- What a step does to the connection that is heard after it: it was begun in the step, at the
address that fits the session, or it is heard on, and its phase changes only with news of it. -/
def Hears (c : Config) (s : Session) (i : Input) (r : Session × List Effect) : Prop :=
  ∀ k, r.1.connection = some k →
    (r.1.phase = .connecting ∧ .connect k (nextUrl c r.1) ∈ r.2) ∨
      s.connection = some k ∧ ((∀ e, i ≠ .inbound k e) → r.1.phase = s.phase)

variable {i : Input}

theorem hears_dial {t : Session} (es : List Effect) :
    Hears c s i (following es (t.dial c)) := by
  intro k hk
  obtain rfl : t.link.begun + 1 = k := by simpa [dial, dialed] using hk
  exact .inl ⟨rfl, by simp [dial, nextUrl, dialed, idle, canResume]⟩

theorem hears_redial {t : Session} {reason : String} : Hears c s i (t.redial c reason) := by
  intro k hk
  obtain rfl : t.link.begun + 1 = k := by simpa [redial, dialed] using hk
  exact .inl ⟨rfl, by simp [redial, nextUrl, dialed, idle, canResume]⟩

/-- No connection is heard after it. -/
theorem hears_of_none {r : Session × List Effect} (h : r.1.connection = none) :
    Hears c s i r := by
  simp [Hears, h]

theorem hears_retreat {t : Session} {reason : String} : Hears c s i (t.retreat c m reason) := by
  refine hears_of_none ?_
  unfold retreat
  split <;> rfl

theorem hears_leave {t : Session} {reason : String} : Hears c s i (t.leave c m reason) := by
  unfold leave
  split
  · exact hears_redial
  · exact hears_retreat

theorem hears_lose {t : Session} {code : Option Nat} {reason : String} :
    Hears c s i (t.lose c m code reason) :=
  hears_of_none (heeds_lose c m t code reason).left

theorem hears_deliver {t : Session} {p : String} (es : List Effect)
    (hc : t.connection = s.connection) (hp : t.phase = s.phase) :
    Hears c s i (following es (t.deliver c m p)) := by
  intro k hk
  simp only [deliver, fst_following] at hk ⊢
  split at hk
  · exact .inr ⟨hc ▸ hk, fun _ => hp⟩
  · rw [connection_retreat] at hk
    exact absurd hk (by simp)

/-- The connection stays, on news of it. -/
theorem hears_of_news {r : Session × List Effect} {j : Nat} {e : LinkEvent}
    (hj : s.connection = some j) (hc : r.1.connection = s.connection) :
    Hears c s (.inbound j e) r := by
  intro k hk
  obtain rfl : j = k := Option.some.inj (hj.symm.trans (hc.symm.trans hk))
  exact .inr ⟨hj, fun hno => absurd rfl (hno e)⟩

theorem hears_meets {j : Nat} {text : String} {message : Message} {r : Session × List Effect}
    (hj : s.connection = some j) (h : Meets c m (s.heard m) j message r) :
    Hears c s (.inbound j (.received text)) r := by
  cases h with
  | resume _ _ _ _ => exact hears_deliver _ rfl rfl
  | pulse => exact hears_deliver [] rfl rfl
  | leave => exact hears_leave
  | redial _ => exact hears_redial
  | accept kind q data _ =>
    obtain ⟨_, _, _, _, _, _, h⟩ := exists_accept (s.heard m) kind q data
    refine hears_of_news hj ?_
    rw [h]
    rfl
  | _ => exact hears_of_news hj rfl

/-- Every step begins the connection that is heard after it, or hears it on. -/
theorem hears_happens {r : Session × List Effect} (h : Happens c m s i r) : Hears c s i r := by
  cases h with
  | start _ => exact hears_dial []
  | restart => exact hears_dial _
  | shutdown => exact hears_of_none rfl
  | opened _ hj => exact hears_of_news hj rfl
  | message _ _ hj _ hr => exact hears_meets hj hr
  | close _ _ _ _ => exact hears_lose
  | fail _ _ _ _ => exact hears_retreat
  | due _ _ _ => exact hears_deliver [] rfl rfl
  | dead _ _ _ => exact hears_leave
  | denied _ _ _ _ => exact hears_retreat
  | identify _ _ _ => exact hears_deliver [] rfl rfl
  | reconnect _ _ _ => exact hears_dial []
  | _ => exact fun k hk => .inr ⟨hk, fun _ => rfl⟩

/-- A step that leaves the server with a session it has not accepted leaves what is known of it. -/
theorem kept_of_recalls {r : Session × List Effect} (h : Recalls c m s i r) (hr : ¬ r.1.Fresh) :
    r.1.sessionId = s.sessionId ∧ r.1.resumeUrl = s.resumeUrl := by
  have hkept : ∀ {t : Session}, t.memory = s.memory →
      t.sessionId = s.sessionId ∧ t.resumeUrl = s.resumeUrl := fun hm =>
    ⟨congrArg Memory.sessionId hm, congrArg Memory.resumeUrl hm⟩
  cases h with
  | quiet _ hq => exact hkept hq.memory
  | say _ _ _ _ hm _ _ _ _ _ => exact hkept hm
  | blank _ hq => exact absurd (.inl (congrArg Memory.sessionId hq.memory)) hr
  | accept _ _ kind q data _ _ _ _ =>
    have hm := memory_accept (s := s.heard m) kind q data
    cases hw : welcome? kind data with
    | some info =>
      rw [accept_welcome _ hw] at hr
      exact absurd (.inr rfl) hr
    | none =>
      rw [hw] at hm
      exact ⟨congrArg Memory.sessionId hm, congrArg Memory.resumeUrl hm⟩

/-- A connection that is heard on is fresh after a step if it was before, but for its opening. -/
theorem Moves.fresh {r : Session × List Effect} (h : Moves s i r) (hs : s.Numbered) {k : Nat}
    (hk : s.connection = some k) (hr : r.1.connection = some k) (hf : s.Fresh)
    (hi : ∀ j, s.connection = some j → i ≠ .inbound j .opened) : r.1.Fresh := by
  cases h with
  | leave h =>
    have hle := hs k hk
    rcases h.connection with ⟨hc, -⟩ | ⟨hc, -⟩
    · simp [hc] at hr
    · have hnew : s.link.begun + 1 = k := by simpa [hc] using hr
      omega
  | stay _ _ _ hfresh _ => exact hfresh hf hi

/-- Of two inputs in their order, the later one is not the opening of a connection that was heard
of. -/
def OpeningFirst (i j : Input) : Prop := ∀ k, j = .inbound k .opened → ∀ e, i ≠ .inbound k e

end Session

open Session

namespace Story

variable {c : Config} {w : Story}

theorem inputs_run (c : Config) (w : Story) (inputs : List (Moment × Input)) :
    (w.run c inputs).inputs = w.inputs ++ inputs.map (·.2) := by
  induction inputs generalizing w with
  | nil => simp [run]
  | cons x rest ih =>
    have hnext : (w.run c (x :: rest)).inputs = ((w.next c x.1 x.2).run c rest).inputs := rfl
    rw [hnext, ih]
    simp [next]

theorem effects_run (c : Config) (w : Story) (inputs : List (Moment × Input)) :
    (w.run c inputs).effects = w.effects ++ (Session.run c w.session inputs).2.flatten := by
  induction inputs generalizing w with
  | nil => simp [run, Session.run]
  | cons x rest ih =>
    have hnext : (w.run c (x :: rest)).effects = ((w.next c x.1 x.2).run c rest).effects := rfl
    rw [hnext, ih]
    simp [next, Session.run]

/-! ## What is remembered -/

theorem memory_next (h : w.session.memory = w.since.foldl Memory.note .blank) (m : Moment)
    (i : Input) :
    (w.next c m i).session.memory = (w.next c m i).since.foldl Memory.note .blank := by
  have hr := recalls_happens (happens_step c w.session m i)
  have hnext : (w.next c m i).session = (step c w.session m i).1 := rfl
  have hsince : (w.next c m i).since =
      (if w.session.discards i then [] else w.since) ++ published (step c w.session m i).2 := rfl
  rw [hnext, hsince]
  generalize step c w.session m i = r at hr
  cases hr with
  | quiet hd hq => simp [hd, select_of_mute hq.mute, hq.memory, h]
  | say _ k p hd hm _ _ _ hb ha =>
    simp [hd, select_of_mute hb, select_of_mute ha, Effect.published?, hm, h]
  | blank hd hq => simp [hd, select_of_mute hq.mute, hq.memory]
  | accept k text kind q data hi hk ht _ =>
    have hd : w.session.discards i = false := by simp [hi, discards, ht]
    have hheard : (w.session.heard m).memory = w.session.memory := rfl
    cases hwelcome : welcome? kind data <;>
      simp only [hd, Bool.false_eq_true, if_false, published_accept, List.foldl_append,
        List.foldl_cons, List.foldl_nil, ← h, memory_accept, hheard, Memory.note, hwelcome]

/-- The memory holds what was published since it was blank. -/
theorem memory_run (h : w.session.memory = w.since.foldl Memory.note .blank)
    (inputs : List (Moment × Input)) :
    (w.run c inputs).session.memory = (w.run c inputs).since.foldl Memory.note .blank := by
  induction inputs generalizing w with
  | nil => exact h
  | cons x rest ih => exact ih (memory_next h x.1 x.2)

/-! ## Where a connection was begun -/

/-- A connection that nothing was heard of is not open yet, and one on which a session may be taken
up was begun at the address of that session. -/
structure Addressed (c : Config) (w : Story) : Prop where
  numbered : w.session.Numbered
  untouched : ∀ k, w.session.connection = some k → (∀ e, .inbound k e ∉ w.inputs) →
    w.session.phase = .connecting
  address : ∀ k, w.session.connection = some k → ¬ w.session.Fresh →
    .connect k (gatewayAddress (w.session.resumeUrl.getD c.gatewayUrl) c.compression) ∈ w.effects

theorem addressed_begin (c : Config) (shard : Shard) (now : Instant) :
    (begin c shard now).Addressed c := by
  constructor <;> simp [begin, new, Session.Numbered]

theorem addressed_next (hl : w.Ledger) (h : w.Addressed c) (m : Moment) {i : Input}
    (hi : ∀ j ∈ w.inputs, OpeningFirst j i) : (w.next c m i).Addressed c := by
  have hhappens := happens_step c w.session m i
  have hhears := hears_happens hhappens
  have hmoves := moves_happens hl.sessionId hhappens
  have hledger : (w.next c m i).Ledger := ledger_next hl m i
  refine ⟨h.numbered.of_moves hmoves, ?_, ?_⟩
  · intro k hk hno
    rcases hhears k hk with ⟨hphase, -⟩ | ⟨hbefore, hphase⟩
    · exact hphase
    · have hsame : (w.next c m i).session.phase = w.session.phase :=
        hphase fun e he => hno e (by simp [next, he])
      rw [hsame]
      exact h.untouched k hbefore fun e he => hno e (by simp [next, he])
  · intro k hk hfresh
    rcases hhears k hk with ⟨-, hconnect⟩ | ⟨hbefore, -⟩
    · -- There is a session to take up, so that the connection was begun at its address.
      have hid : (w.next c m i).session.sessionId.isSome = true := by
        cases hid : (w.next c m i).session.sessionId with
        | none => exact absurd (.inl hid) hfresh
        | some _ => rfl
      have hcan : (w.next c m i).session.canResume = true := by
        simp [canResume, hid, hledger.sessionId hid]
      have hurl : nextUrl c (w.next c m i).session =
          gatewayAddress ((w.next c m i).session.resumeUrl.getD c.gatewayUrl) c.compression := by
        simp [nextUrl, hcan]
      rw [← hurl]
      exact List.mem_append_right _ hconnect
    · obtain ⟨hid, hurl⟩ := kept_of_recalls (recalls_happens hhappens) hfresh
      have hopen : ∀ j, w.session.connection = some j → i = .inbound j .opened →
          w.session.phase = .connecting := by
        rintro j hj rfl
        exact h.untouched j hj fun e he => hi _ he j rfl e rfl
      have hbeforeFresh : ¬ w.session.Fresh := by
        intro hf
        by_cases hfirst : w.session.phase = .connecting
        · rcases hf with hnone | hready
          · exact hfresh (.inl (hid.trans hnone))
          · simp [hfirst, Phase.isReady] at hready
        · have hno := fun j hj he => hfirst (hopen j hj he)
          exact hfresh (hmoves.fresh h.numbered hbefore hk hf hno)
      have hold := h.address k hbefore hbeforeFresh
      have hsame : (w.next c m i).session.resumeUrl = w.session.resumeUrl := hurl
      rw [hsame]
      exact List.mem_append_left _ hold

theorem addressed_run (c : Config) (shard : Shard) (now : Instant)
    (inputs : List (Moment × Input)) (hopen : (inputs.map (·.2)).Pairwise OpeningFirst) :
    ((begin c shard now).run c inputs).Addressed c := by
  induction inputs using List.reverseRecOn with
  | nil => exact addressed_begin c shard now
  | append_singleton inputs x ih =>
    rw [List.map_append, List.pairwise_append] at hopen
    obtain ⟨hbefore, -, hlast⟩ := hopen
    rw [run_append]
    refine addressed_next (ledger_run (ledger_begin c shard now) inputs) (ih hbefore) x.1 ?_
    intro j hj
    rw [inputs_run] at hj
    exact hlast j hj x.2 (by simp)

/-! ## Handshakes -/

/-- A connection is begun once. -/
theorem connect_unique (c : Config) (shard : Shard) (now : Instant)
    (inputs : List (Moment × Input)) {k : Nat} {url url' : String}
    (h : .connect k url ∈ ((begin c shard now).run c inputs).effects)
    (h' : .connect k url' ∈ ((begin c shard now).run c inputs).effects) : url = url' := by
  have heffects : ((begin c shard now).run c inputs).effects =
      (Session.run c (begin c shard now).session inputs).2.flatten := effects_run ..
  have hbegun := (Link.begun_follow (follow_run c (begin c shard now).session inputs)).2
  rw [← heffects] at hbegun
  have hnodup : (((begin c shard now).run c inputs).effects.filterMap Effect.begun?).Nodup := by
    rw [hbegun]
    exact List.nodup_range'
  exact (Effect.connect.inj (eq_of_begun? hnodup h h' rfl rfl)).2

/-- What a handshake says that a session sends after any run that has not ended. -/
theorem handshake_of_run {shard : Shard} {now : Instant} {inputs : List (Moment × Input)}
    (hstop : ∀ x ∈ inputs, x.2 ≠ .stop) (hw : (begin c shard now).run c inputs = w) {m : Moment}
    {i : Input} {k : Nat} {p : String} (hp : .send k p ∈ (step c w.session m i).2) :
    (Payload.opcode p = Opcode.identify.toNat →
      i = .admitted k (.ok ()) ∧ w.session.connection = some k ∧ w.session.Unshaken) ∧
    (Payload.opcode p = Opcode.resume.toNat →
      w.session.connection = some k ∧ w.session.Unshaken ∧
      (∃ text ms, i = .inbound k (.received text) ∧ Message.parse text = .ok (.hello ms)) ∧
      ∃ info last, (welcomes w.since).getLast? = some info ∧ w.since.getLast? = some last ∧
        p = Payload.resume c.bareToken info.sessionId last.sequence ∧
        ((inputs.map (·.2)).Pairwise OpeningFirst → ∀ url, .connect k url ∈ w.effects ↔
          url = gatewayAddress (info.resumeUrl.getD c.gatewayUrl) c.compression)) := by
  have hcoupled : w.session.Coupled := by
    rw [← hw, session_run]
    exact coupled_run (coupled_new c shard now) hstop
  have hmemory : w.session.memory = ⟨(welcomes w.since).getLast?.map (·.sessionId),
      (welcomes w.since).getLast?.bind (·.resumeUrl), w.since.getLast?.map (·.sequence)⟩ := by
    rw [← hw]
    exact (memory_run (c := c) (w := begin c shard now) rfl inputs).trans (foldl_note _)
  obtain ⟨hl, hspeech⟩ := speech_of_recalls (recalls_happens (happens_step ..)) hp
  refine ⟨fun hop => ?_, fun hop => ?_⟩
  · obtain ⟨j, rfl, hj, hu, -⟩ := hspeech.identify_iff.mp hop
    obtain rfl : j = k := by simpa [hcoupled.current hj] using hl
    exact ⟨rfl, hj, hu⟩
  · obtain ⟨j, text, ms, id, q, rfl, ht, hj, hu, hid, hq, rfl⟩ := hspeech.of_resume hop
    obtain rfl : j = k := by simpa [hcoupled.current hj] using hl
    obtain ⟨info, hinfo, rfl⟩ : ∃ info, (welcomes w.since).getLast? = some info ∧
        info.sessionId = id := by
      simpa [memory, hid] using (congrArg Memory.sessionId hmemory).symm
    obtain ⟨last, hlast, rfl⟩ : ∃ last, w.since.getLast? = some last ∧ last.sequence = q := by
      simpa [memory, hq] using (congrArg Memory.sequence hmemory).symm
    have hurl : w.session.resumeUrl = info.resumeUrl := by
      simpa [memory, hinfo] using congrArg Memory.resumeUrl hmemory
    refine ⟨hj, hu, ⟨text, ms, rfl, ht⟩, info, last, hinfo, hlast, rfl, fun hopen url => ?_⟩
    have hfresh : ¬ w.session.Fresh := by
      simp [Fresh, hid, hu.1, Phase.isReady]
    have haddressed : w.Addressed c := hw ▸ addressed_run c shard now inputs hopen
    have hbegun := haddressed.address j hj hfresh
    rw [hurl] at hbegun
    refine ⟨fun h => ?_, fun h => h ▸ hbegun⟩
    rw [← hw] at h hbegun
    exact connect_unique c shard now inputs h hbegun

end Story

/-! ## Schedules -/

namespace Desk

/-- What the session of a schedule was given. -/
def given (d : Desk) : List (Moment × Input) := d.log.map fun r => (r.moment, r.input)

theorem Ordered.openingFirst {d : Desk} (h : d.Ordered) :
    (d.given.map (·.2)).Pairwise OpeningFirst := by
  rw [List.pairwise_iff_forall_sublist]
  rintro i j hsub k rfl e rfl
  rw [given, List.map_map] at hsub
  exact h.not_sublist_opened k e hsub

/-- **A schedule is a run** that has not ended and in which the opening of a connection comes before
everything else that is heard of it. -/
theorem given_of_run {c : Config} {shard : Shard} {now : Instant} {moves : List Move} {d : Desk}
    (hr : (begin c shard now).run c moves = some d) :
    ((Story.begin c shard now).run c d.given).session = d.session ∧
      (∀ x ∈ d.given, x.2 ≠ .stop) ∧ (d.given.map (·.2)).Pairwise OpeningFirst := by
  have hsound := sound_run (sound_begin c shard now) hr
  have hordered := ordered_run (ordered_begin c shard now) (sound_begin c shard now) hr
  have hchain : Record.Chain c (.new c shard now) d.log d.session :=
    chain_run (d := begin c shard now) rfl hr
  refine ⟨?_, fun x hx => ?_, hordered.openingFirst⟩
  · rw [Story.session_run]
    exact hchain.session_run
  · obtain ⟨r, hmem, rfl⟩ := List.mem_map.mp hx
    exact (hsound.log r hmem).2

end Desk

namespace Story

/-- **Handshakes of a session**, after any run that has not ended.

On every connection at most one is sent, and one more for each time that the server rejected the
session there. A fresh one is sent on an admission for its connection only, and no more of them than
there were admissions. One that takes up a session is the answer to the greeting in the handshake of
the connection; it names the session that was last made and the event that was last published since
the memory was blanked, and its connection was begun at the address of that session, or at the
general one if it has none.

The address is right where the opening of a connection is the first that is heard of it; so it is for
every schedule of the tasks around the session. -/
theorem handshakes_of_run (c : Config) (shard : Shard) (now : Instant) :
    (∀ inputs : List (Moment × Input), (∀ x ∈ inputs, x.2 ≠ .stop) →
      let w := (begin c shard now).run c inputs
      (∀ k, (said k Payload.isHandshake w.effects).length ≤
          1 + rejections c k (new c shard now) inputs ∧
        (said k Payload.isIdentify w.effects).length ≤ inputs.countP (·.2.grants k)) ∧
      ∀ m i k p, .send k p ∈ (step c w.session m i).2 →
        (Payload.opcode p = Opcode.identify.toNat →
          i = .admitted k (.ok ()) ∧ w.session.connection = some k ∧ w.session.Unshaken) ∧
        (Payload.opcode p = Opcode.resume.toNat →
          w.session.connection = some k ∧ w.session.Unshaken ∧
          (∃ text ms, i = .inbound k (.received text) ∧ Message.parse text = .ok (.hello ms)) ∧
          ∃ info last, (welcomes w.since).getLast? = some info ∧ w.since.getLast? = some last ∧
            p = Payload.resume c.bareToken info.sessionId last.sequence ∧
            ((inputs.map (·.2)).Pairwise OpeningFirst → ∀ url, .connect k url ∈ w.effects ↔
              url = gatewayAddress (info.resumeUrl.getD c.gatewayUrl) c.compression))) ∧
    ∀ moves d, (Desk.begin c shard now).run c moves = some d →
      let w := (begin c shard now).run c d.given
      w.session = d.session ∧ (∀ x ∈ d.given, x.2 ≠ .stop) ∧
        (d.given.map (·.2)).Pairwise OpeningFirst ∧
        ∀ m i k p, .send k p ∈ (step c d.session m i).2 →
          Payload.opcode p = Opcode.resume.toNat →
            ∃ info, (welcomes w.since).getLast? = some info ∧ ∀ url, .connect k url ∈ w.effects ↔
              url = gatewayAddress (info.resumeUrl.getD c.gatewayUrl) c.compression := by
  refine ⟨fun inputs hstop => ?_, fun moves d hr => ?_⟩
  · intro w
    have heffects : w.effects = (Session.run c (new c shard now) inputs).2.flatten := by
      rw [effects_run]
      rfl
    refine ⟨fun k => ⟨?_, ?_⟩, fun m i k p hp => handshake_of_run hstop rfl hp⟩
    · have hroom : (new c shard now).room k ≤ 1 := by
        unfold room
        split <;> omega
      have hcount := length_said_run (c := c) (numbered_new c shard now) (coupled_new c shard now)
        k inputs hstop
      rw [heffects]
      omega
    · rw [heffects]
      exact length_identify_run (coupled_new c shard now) k inputs hstop
  · intro w
    obtain ⟨hsession, hstop, hopen⟩ := Desk.given_of_run hr
    refine ⟨hsession, hstop, hopen, fun m i k p hp hop => ?_⟩
    rw [← hsession] at hp
    obtain ⟨-, -, -, info, -, hinfo, -, -, haddress⟩ := (handshake_of_run hstop rfl hp).2 hop
    exact ⟨info, hinfo, haddress hopen⟩

/-- A first event with an identifier and an address. -/
def locatedReady : String :=
  "\x7b\"op\":0,\"t\":\"READY\",\"s\":1," ++
    "\"d\":\x7b\"session_id\":\"a\",\"resume_gateway_url\":\"wss://b\"\x7d\x7d"

/-- A session is made, its connection is closed, and the next one is open. -/
def reopened : List Desk.Move :=
  [.post .start, .handle 0 0, .connect 1, .pass, .handle 0 0,
    .read 1 (.frame (.ofString greeting)), .pass, .handle 0 0,
    .post (.admitted 1 (.ok ())), .handle 0 0,
    .read 1 (.frame (.ofString locatedReady)), .pass, .handle 0 0,
    .read 1 (.frame (.closing 4000 "")), .report 1, .pass, .handle 0 0,
    .post (.reconnectDue 1), .handle 0 0, .connect 2, .pass, .handle 0 0]

/-- The greeting of the second connection is answered by taking up the session, and the connection
was begun at the address of that session. -/
theorem handshakes_of_run_reopened :
    ∃ d, (Desk.begin {} ⟨0, 1⟩ 0).run {} reopened = some d ∧
      let w := (begin {} ⟨0, 1⟩ 0).run {} d.given
      (∀ x ∈ d.given, x.2 ≠ .stop) ∧ (d.given.map (·.2)).Pairwise OpeningFirst ∧
        (said 1 Payload.isHandshake w.effects).length ≤ 1 ∧
        .send 2 (Payload.resume ({} : Config).bareToken "a" 1) ∈
          (step {} d.session calm (.inbound 2 (.received greeting))).2 ∧
        ∀ url, .connect 2 url ∈ w.effects ↔ url = gatewayAddress "wss://b" .none := by
  obtain ⟨d, hd, hall⟩ := Option.map_eq_some_iff.mp (show
    ((Desk.begin {} ⟨0, 1⟩ 0).run {} reopened).map (fun d =>
      (rejections {} 1 (new {} ⟨0, 1⟩ 0) d.given,
        said 2 (· = Payload.resume ({} : Config).bareToken "a" 1)
          (step {} d.session calm (.inbound 2 (.received greeting))).2,
        (welcomes ((begin {} ⟨0, 1⟩ 0).run {} d.given).since).getLast?)) =
      some (0, [Payload.resume ({} : Config).bareToken "a" 1], some ⟨"a", some "wss://b"⟩) by
    decide +kernel)
  obtain ⟨hrejections, hsaid, hwelcome⟩ : rejections {} 1 (new {} ⟨0, 1⟩ 0) d.given = 0 ∧
      said 2 (· = Payload.resume ({} : Config).bareToken "a" 1)
        (step {} d.session calm (.inbound 2 (.received greeting))).2 =
          [Payload.resume ({} : Config).bareToken "a" 1] ∧
      (welcomes ((begin {} ⟨0, 1⟩ 0).run {} d.given).since).getLast? =
        some ⟨"a", some "wss://b"⟩ := by simpa using hall
  obtain ⟨hruns, hschedules⟩ := handshakes_of_run {} ⟨0, 1⟩ 0
  obtain ⟨-, hstop, hopen, haddress⟩ := hschedules reopened d hd
  have hsent := (mem_said.mp (by rw [hsaid]; exact List.mem_singleton_self _)).1
  obtain ⟨info, hinfo, hurl⟩ := haddress _ _ _ _ hsent (Payload.opcode_resume ..)
  obtain rfl : ⟨"a", some "wss://b"⟩ = info := Option.some.inj (hwelcome.symm.trans hinfo)
  refine ⟨d, hd, hstop, hopen, ?_, hsent, hurl⟩
  have hfirst := ((hruns d.given hstop).1 1).1
  rwa [hrejections] at hfirst

end Story

end Switchboard
