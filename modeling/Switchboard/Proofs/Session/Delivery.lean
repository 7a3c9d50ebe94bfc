import Switchboard.Proofs.Session.Coupling
import Switchboard.Proofs.Session.EventStream
import Switchboard.Proofs.Session.FreshHandshake

/-!
# Every event once and in order

A session with a server that goes on where it is asked to. Connections may be dropped, closed,
declared dead or given up on request, again and again and at any point, with events in flight; what
arrives of a connection that is no longer heard is late and passed over. As long as the session at
the server is not given up, what was published is at every moment a beginning of what the server has
to say.

## Main definitions

* `Pipe`: a connection, with what is under way on it in both directions.
* `Correspondence`: a session with all its connections, and what it has published.
* `Correspondence.Step`: what the session, the network and the server do.
* `Correspondence.Sound`: the invariant.

## Main results

* `Correspondence.sound_step`: every step preserves the invariant.
* `Correspondence.published_of_reaches`: the events published are a beginning of the stream.
-/
namespace Switchboard

open Session

/-- A connection, with what is under way on it. -/
structure Pipe where
  /-- Reported by the connection and not handled by the session yet, oldest first. -/
  news : List LinkEvent := []
  /-- Sent by the session and not read by the server yet, oldest first. -/
  asked : List String := []
  /-- The event that the server sends next, once a handshake was answered. -/
  cursor : Option Nat := none
  opened : Bool := false
  /-- Nothing more of the server comes through. -/
  cut : Bool := false

/-- The payloads that effects send over a connection. -/
def Session.sentTo (k : Nat) (es : List Effect) : List String :=
  es.filterMap fun
    | .send k' payload => if k' = k then some payload else none
    | _ => none

/-- A session with its connections, and what it has published. -/
structure Correspondence where
  session : Session
  pipes : Nat → Pipe := fun _ => {}
  published : List Event := []

namespace Correspondence

/-- A correspondence at its beginning. -/
def begin (c : Config) (shard : Shard) (now : Instant) : Correspondence := { session := .new c shard now }

/-- A connection changes. -/
def modify (w : Correspondence) (k : Nat) (f : Pipe → Pipe) : Correspondence :=
  { w with pipes := fun j => if j = k then f (w.pipes k) else w.pipes j }

/-- The session handles an input: what it sends is under way, and what it publishes is published. -/
def turn (c : Config) (w : Correspondence) (m : Moment) (i : Input) : Correspondence where
  session := (step c w.session m i).1
  pipes := fun k =>
    { w.pipes k with asked := (w.pipes k).asked ++ sentTo k (step c w.session m i).2 }
  published := w.published ++ Session.published (step c w.session m i).2

/-- The server can be heard over a connection. -/
def Carries (w : Correspondence) (k : Nat) : Prop :=
  (w.pipes k).opened = true ∧ (w.pipes k).cut = false

instance (w : Correspondence) (k : Nat) : Decidable (w.Carries k) :=
  inferInstanceAs (Decidable (_ ∧ _))

end Correspondence

/-- An input that neither comes of a connection nor gives up the session at the server. -/
def Session.Input.isKeeping : Input → Bool
  | .restart | .stop | .inbound _ _ => false
  | _ => true

/-- A message that is no event and does not give up the session at the server. -/
def Message.isAside : Message → Bool
  | .dispatch .. | .invalidSession false => false
  | _ => true

/-- What the session, the network and the server do. -/
inductive Correspondence.Step (c : Config) (t : EventStream) : Correspondence → Correspondence → Prop where
  /-- The session handles something that is not news of a connection. -/
  | turn (w : Correspondence) (m : Moment) (i : Input) (hi : i.isKeeping = true) :
    Step c t w (w.turn c m i)
  /-- The session handles the first news of a connection. -/
  | deliver (w : Correspondence) (m : Moment) (k : Nat) (e : LinkEvent) (rest : List LinkEvent)
      (hnews : (w.pipes k).news = e :: rest) :
    Step c t w ((w.modify k ({ · with news := rest })).turn c m (.inbound k e))
  /-- A connection that was begun opens. -/
  | opens (w : Correspondence) (k : Nat) (hk : k ≤ w.session.link.begun)
      (ho : (w.pipes k).opened = false) :
    Step c t w (w.modify k fun p => { p with opened := true, news := p.news ++ [.opened] })
  /-- The server reads a fresh handshake: it begins with the first event. -/
  | identify (w : Correspondence) (k : Nat) (hk : w.Carries k) (token : String) (intents : Nat)
      (shard : Shard) (mode : Compression) (system : String) (rest : List String)
      (hasked : (w.pipes k).asked = Payload.identify token intents shard mode system :: rest) :
    Step c t w (w.modify k ({ · with asked := rest, cursor := some 0 }))
  /-- The server reads a handshake that takes up the session: it goes on after the number given
  there, or repeats what was before. -/
  | resume (w : Correspondence) (k : Nat) (hk : w.Carries k) (token id : String) (q : Nat)
      (rest : List String) (hasked : (w.pipes k).asked = Payload.resume token id q :: rest)
      (p : Nat) (hp : p ≤ t.upTo q) :
    Step c t w (w.modify k ({ · with asked := rest, cursor := some p }))
  /-- The server reads something else, or what was sent is lost. -/
  | ignore (w : Correspondence) (k : Nat) {payload : String} {rest : List String}
      (hasked : (w.pipes k).asked = payload :: rest) :
    Step c t w (w.modify k ({ · with asked := rest }))
  /-- The server sends the next event. -/
  | dispatch (w : Correspondence) (k : Nat) (hk : w.Carries k) (p : Nat) (d : Numbered)
      (text : String)
      (hc : (w.pipes k).cursor = some p) (hd : t.items[p]? = some d) (ht : Message.parse text = .ok d.message) :
    Step c t w
      (w.modify k fun p' => { p' with news := p'.news ++ [.received text], cursor := some (p + 1) })
  /-- The server sends something else, which may ask for another connection. -/
  | aside (w : Correspondence) (k : Nat) (hk : w.Carries k) {text : String} {message : Message}
      (ht : Message.parse text = .ok message) (hm : message.isAside = true) :
    Step c t w (w.modify k fun p => { p with news := p.news ++ [.received text] })
  /-- The server closes a connection, and does not ask for a fresh session. -/
  | close (w : Correspondence) (k : Nat) (hk : k ≤ w.session.link.begun) (code : Option Nat)
      (reason : String) (hcode : CloseAction.ofCode code ≠ .reidentify) :
    Step c t w (w.modify k fun p => { p with news := p.news ++ [.closed code reason] })
  /-- A connection fails. -/
  | fail (w : Correspondence) (k : Nat) (hk : k ≤ w.session.link.begun) (reason : String) :
    Step c t w (w.modify k fun p => { p with news := p.news ++ [.failed reason] })
  /-- A connection is dropped: the last of its news are lost, and nothing more comes through. -/
  | cut (w : Correspondence) (k : Nat) (hk : k ≤ w.session.link.begun) (j : Nat) :
    Step c t w
      (w.modify k fun p => { p with news := p.news.take j, cursor := none, cut := true })

/-- What a correspondence can become. -/
inductive Correspondence.Reaches (c : Config) (t : EventStream) (w : Correspondence) :
    Correspondence → Prop where
  | refl : Reaches c t w w
  | step {v u : Correspondence} (h : Reaches c t w v) (hs : Step c t v u) : Reaches c t w u

/-! ## The invariant -/

/-- No text stands before the opening of the connection. -/
def OpensFirst : List LinkEvent → Prop
  | [] => True
  | .opened :: _ => True
  | .received _ :: _ => False
  | _ :: rest => OpensFirst rest

theorem OpensFirst.append {news : List LinkEvent} (h : OpensFirst news) {e : LinkEvent}
    (he : .opened ∈ news ∨ ∀ text, e ≠ .received text) : OpensFirst (news ++ [e]) := by
  induction news with
  | nil =>
    have htext : ∀ text, e ≠ .received text := by simpa using he
    cases e with
    | received text => exact absurd rfl (htext text)
    | _ => trivial
  | cons x rest ih =>
    cases x with
    | opened => trivial
    | received text => exact h
    | closed code reason => exact ih h (by simpa using he)
    | failed reason => exact ih h (by simpa using he)

theorem OpensFirst.take {news : List LinkEvent} (h : OpensFirst news) (j : Nat) :
    OpensFirst (news.take j) := by
  induction news generalizing j with
  | nil => simpa using h
  | cons x rest ih =>
    cases j with
    | zero => trivial
    | succ j =>
      cases x with
      | opened => trivial
      | received text => exact h
      | closed code reason => exact ih h j
      | failed reason => exact ih h j

/-- As long as the opening is to come, the first of the news is no text. -/
theorem OpensFirst.tail {e : LinkEvent} {rest : List LinkEvent} (h : OpensFirst (e :: rest))
    (he : e ≠ .opened) : (∀ text, e ≠ .received text) ∧ OpensFirst rest := by
  cases e with
  | opened => exact absurd rfl he
  | received text => exact absurd h id
  | closed code reason => exact ⟨by simp, h⟩
  | failed reason => exact ⟨by simp, h⟩

/-- The session has published the first `n` events, and remembers the last of them. -/
structure Upto (t : EventStream) (n : Nat) (s : Session) (events : List Event) : Prop where
  le : n ≤ t.items.length
  published : events = (t.items.take n).map (·.toEvent s.shard)
  sequence : s.sequence = t.last? n
  sessionId : s.sessionId.isSome = true ↔ 0 < n

/-- What is under way on the connection that is heard, when the first `n` events are published. -/
structure Pipe.Sound (t : EventStream) (n : Nat) (phase : Phase) (p : Pipe) : Prop where
  flows : t.Flows n p.news p.cursor
  asked : ∀ token id q, Payload.resume token id q ∈ p.asked → t.upTo q ≤ n
  /-- A session that has not heard of the opening hears of it before any text. -/
  opening : phase = .connecting →
    OpensFirst p.news ∧ (p.opened = true → p.cut = false → .opened ∈ p.news)

/-- What holds of a correspondence when the first `n` events are published. -/
structure Correspondence.Sound (t : EventStream) (n : Nat) (w : Correspondence) : Prop where
  coupled : w.session.Coupled
  begun : ∀ k, w.session.connection = some k → k ≤ w.session.link.begun
  fresh : ∀ k, w.session.link.begun < k → w.pipes k = {}
  upto : Upto t n w.session w.published
  pipe : ∀ k, w.session.connection = some k → (w.pipes k).Sound t n w.session.phase

namespace Pipe

variable {t : EventStream} {n : Nat} {phase : Phase} {p : Pipe}

theorem sound_fresh (t : EventStream) (n : Nat) (phase : Phase) : ({} : Pipe).Sound t n phase := by
  refine ⟨?_, ?_, ?_⟩
  · simp [EventStream.Flows]
  · simp
  · simp [OpensFirst]

/-- Something is reported that no gap comes of. -/
theorem Sound.report (h : p.Sound t n phase) {e : LinkEvent} {cursor : Option Nat}
    (hf : t.Flows n (p.news ++ [e]) cursor)
    (he : p.opened = true ∧ p.cut = false ∨ ∀ text, e ≠ .received text) :
    ({ p with news := p.news ++ [e], cursor } : Pipe).Sound t n phase := by
  refine ⟨hf, h.asked, fun hp => ?_⟩
  obtain ⟨hfirst, hopen⟩ := h.opening hp
  refine ⟨hfirst.append ?_, fun ho hc => List.mem_append_left _ (hopen ho hc)⟩
  rcases he with ⟨ho, hc⟩ | htext
  · exact .inl (hopen ho hc)
  · exact .inr htext

theorem Sound.opens (h : p.Sound t n phase) :
    ({ p with opened := true, news := p.news ++ [.opened] } : Pipe).Sound t n phase := by
  refine ⟨h.flows.append fun m _ hc => hc, h.asked, fun hp => ?_⟩
  exact ⟨(h.opening hp).1.append (.inr (by simp)), by simp⟩

/-- The server reads what comes first, and may go on elsewhere. -/
theorem Sound.read (h : p.Sound t n phase) {payload : String} {rest : List String}
    {cursor : Option Nat} (hasked : p.asked = payload :: rest)
    (hc : ∀ i, cursor = some i → i ≤ n) :
    ({ p with asked := rest, cursor } : Pipe).Sound t n phase := by
  refine ⟨h.flows.seek hc, fun token id q hmem => ?_, h.opening⟩
  exact h.asked token id q (hasked ▸ List.mem_cons_of_mem _ hmem)

theorem Sound.skip (h : p.Sound t n phase) {payload : String} {rest : List String}
    (hasked : p.asked = payload :: rest) : ({ p with asked := rest } : Pipe).Sound t n phase := by
  refine ⟨h.flows, fun token id q hmem => ?_, h.opening⟩
  exact h.asked token id q (hasked ▸ List.mem_cons_of_mem _ hmem)

theorem Sound.drop (h : p.Sound t n phase) (j : Nat) :
    ({ p with news := p.news.take j, cursor := none, cut := true } : Pipe).Sound t n phase := by
  refine ⟨h.flows.take j, h.asked, fun hp => ⟨(h.opening hp).1.take j, by simp⟩⟩

theorem Sound.enter (h : p.Sound t n phase) {phase' : Phase}
    (hp : phase' = .connecting → phase = .connecting) : p.Sound t n phase' :=
  ⟨h.flows, h.asked, fun hphase => h.opening (hp hphase)⟩

/-- The session takes the first of the news. -/
theorem Sound.deliver (h : p.Sound t n phase) {e : LinkEvent} {rest : List LinkEvent}
    (hnews : p.news = e :: rest) {n' : Nat} (hn : n ≤ n') (hf : t.Flows n' rest p.cursor)
    {phase' : Phase} (hp : phase' = .connecting → phase = .connecting ∧ e ≠ .opened) :
    ({ p with news := rest } : Pipe).Sound t n' phase' := by
  refine ⟨hf, fun token id q hmem => Nat.le_trans (h.asked token id q hmem) hn, fun hphase => ?_⟩
  obtain ⟨hconnecting, hne⟩ := hp hphase
  obtain ⟨hfirst, hopen⟩ := h.opening hconnecting
  rw [hnews] at hfirst hopen
  refine ⟨(hfirst.tail hne).2, fun ho hc => ?_⟩
  rcases List.mem_cons.mp (hopen ho hc) with heq | hmem
  · exact absurd heq.symm hne
  · exact hmem

end Pipe

namespace Correspondence

variable {c : Config} {t : EventStream} {n : Nat} {w : Correspondence}

theorem sound_begin (c : Config) (t : EventStream) (shard : Shard) (now : Instant) :
    (begin c shard now).Sound t 0 where
  coupled := coupled_new c shard now
  begun := by simp [begin, new]
  fresh := by simp [begin]
  upto := ⟨Nat.zero_le _, by simp [begin], by simp [begin, new, EventStream.last?_zero],
    by simp [begin, new]⟩
  pipe := by simp [begin, new]

/-! ## The network and the server -/

/-- A change to a connection that was begun, if it is sound for the one that is heard. -/
theorem Sound.modify (h : w.Sound t n) {k : Nat} {f : Pipe → Pipe}
    (hk : k ≤ w.session.link.begun)
    (hf : w.session.connection = some k → (w.pipes k).Sound t n w.session.phase →
      (f (w.pipes k)).Sound t n w.session.phase) :
    (w.modify k f).Sound t n where
  coupled := h.coupled
  begun := h.begun
  fresh := by
    intro j hj
    have hne : j ≠ k := by
      rintro rfl
      exact absurd hj (Nat.not_lt.mpr hk)
    simpa [Correspondence.modify, hne] using h.fresh j hj
  upto := h.upto
  pipe := by
    intro j hj
    by_cases hjk : j = k
    · subst hjk
      simpa [Correspondence.modify] using hf hj (h.pipe j hj)
    · simpa [Correspondence.modify, hjk] using h.pipe j hj

/-- A connection on which anything happened was begun. -/
theorem Sound.le_begun (h : w.Sound t n) {k : Nat} (hk : w.pipes k ≠ {}) :
    k ≤ w.session.link.begun := by
  refine Nat.le_of_not_lt fun hlt => ?_
  exact hk (h.fresh k hlt)

theorem Carries.le_begun {k : Nat} (hk : w.Carries k) (h : w.Sound t n) :
    k ≤ w.session.link.begun := by
  refine h.le_begun fun hp => ?_
  have ho := hk.1
  simp [hp] at ho

theorem le_begun_of_asked (h : w.Sound t n) {k : Nat} {payload : String} {rest : List String}
    (hasked : (w.pipes k).asked = payload :: rest) : k ≤ w.session.link.begun := by
  refine h.le_begun fun hp => ?_
  simp [hp] at hasked

/-- A message that is no event is news without a gap. -/
theorem flows_aside {text : String} {message : Message} (ht : Message.parse text = .ok message)
    (hm : message.isAside = true) {cursor : Option Nat} (hc : ∀ p, cursor = some p → p ≤ n) :
    t.Flows n [.received text] cursor := by
  simp only [EventStream.Flows, ht]
  cases message with
  | dispatch kind q data => simp [Message.isAside] at hm
  | invalidSession resumable =>
    cases resumable with
    | false => simp [Message.isAside] at hm
    | true => exact hc
  | _ => exact hc

/-! ## The session -/

theorem mem_sentTo {k : Nat} {payload : String} {es : List Effect} :
    payload ∈ sentTo k es ↔ .send k payload ∈ es := by
  rw [sentTo, List.mem_filterMap]
  constructor
  · rintro ⟨e, he, hpayload⟩
    cases e with
    | send k' p =>
      by_cases hk : k' = k
      · subst hk
        obtain rfl : p = payload := by simpa using hpayload
        exact he
      · simp [hk] at hpayload
    | _ => simp at hpayload
  · intro he
    exact ⟨_, he, by simp⟩

/-- What is sent goes over the connection that is heard. -/
theorem speech_of_sentTo {s : Session} {m : Moment} {i : Input} {r : Session × List Effect}
    (hs : s.Coupled) (h : Recalls c m s i r) {k : Nat} {payload : String}
    (hp : payload ∈ sentTo k r.2) : s.connection = some k ∧ Speech c s i payload := by
  rw [mem_sentTo] at hp
  cases h with
  | quiet _ hq => exact absurd hp (send_notMem_of_mute hq.mute _ _)
  | blank _ hq => exact absurd hp (send_notMem_of_mute hq.mute _ _)
  | accept _ _ kind q data _ _ _ _ => exact absurd hp (send_notMem_accept kind q data _ _)
  | say _ k' p _ _ _ hl hspeech hb ha =>
    simp only [List.mem_append, List.mem_cons, send_notMem_of_mute hb, send_notMem_of_mute ha,
      false_or, or_false, Effect.send.injEq] at hp
    obtain ⟨rfl, rfl⟩ := hp
    exact ⟨hs.link.trans hl, hspeech⟩

/-- A handshake that takes up the session goes on after the last event that is published. -/
theorem upTo_of_speech {s : Session} {events : List Event} (h : Upto t n s events) {i : Input}
    {token id : String} {q : Nat} (hs : Speech c s i (Payload.resume token id q)) :
    t.upTo q ≤ n := by
  generalize hp : Payload.resume token id q = payload at hs
  cases hs with
  | heartbeat _ => exact absurd hp Payload.resume_ne_heartbeat
  | command op data hop => exact absurd hp (Payload.resume_ne_command hop)
  | identify _ _ _ => exact absurd hp.symm Payload.identify_ne_resume
  | resume _ _ _ _ _ _ hq =>
    rw [Payload.sequence_eq_of_resume_eq hp]
    exact EventStream.upTo_le h.le (h.sequence.symm.trans hq)

/-- After a step of the session, if the connection that it still hears is sound but for what the
step sends. -/
theorem sound_turn {m : Moment} {i : Input} (pipes : Nat → Pipe) {events : List Event} {n' : Nat}
    (h : w.Sound t n) (hn : n ≤ n') (hi : i ≠ .stop)
    (hfresh : ∀ k, w.session.link.begun < k → pipes k = {})
    (hupto : Upto t n' (step c w.session m i).1
      (events ++ Session.published (step c w.session m i).2))
    (hpipe : ∀ k, w.session.connection = some k →
      ((step c w.session m i).1.phase = .connecting →
        w.session.phase = .connecting ∧ i ≠ .inbound k .opened) →
      (pipes k).Sound t n' (step c w.session m i).1.phase) :
    (Correspondence.turn c ⟨w.session, pipes, events⟩ m i).Sound t n' := by
  have hhappens := happens_step c w.session m i
  have hmoves := moves_happens h.coupled.resumable hhappens
  have hsent : ∀ k payload, payload ∈ sentTo k (step c w.session m i).2 →
      w.session.connection = some k ∧ Speech c w.session i payload := fun k payload hp =>
    speech_of_sentTo h.coupled (recalls_happens hhappens) hp
  have hquiet : ∀ k, w.session.link.begun < k → sentTo k (step c w.session m i).2 = [] := by
    intro k hk
    refine List.eq_nil_iff_forall_not_mem.mpr fun payload hp => ?_
    have := h.begun k (hsent k payload hp).1
    omega
  have hnew : ∀ k, w.session.link.begun < k →
      (Correspondence.turn c ⟨w.session, pipes, events⟩ m i).pipes k = {} := by
    intro k hk
    simp [turn, hfresh k hk, hquiet k hk]
  refine ⟨coupled_happens hi hhappens h.coupled, ?_, ?_, hupto, ?_⟩
  · intro k hk
    cases hmoves with
    | leave hleave =>
      rcases hleave.connection with ⟨hc, -⟩ | ⟨hc, hb⟩
      · simp [turn, hc] at hk
      · have hk' : some (w.session.link.begun + 1) = some k := hc.symm.trans hk
        have hb' : (Correspondence.turn c ⟨w.session, pipes, events⟩ m i).session.link.begun =
            w.session.link.begun + 1 := hb
        have := Option.some.inj hk'
        omega
    | stay hc hb _ _ _ =>
      have hk' : w.session.connection = some k := hc.symm.trans hk
      have := h.begun k hk'
      exact Nat.le_trans this (Nat.le_of_eq hb.symm)
  · intro k hk
    refine hnew k ?_
    cases hmoves with
    | leave hleave =>
      have hk' : (step c w.session m i).1.link.begun < k := hk
      rcases hleave.connection with ⟨-, hb⟩ | ⟨-, hb⟩ <;> omega
    | stay _ hb _ _ _ => exact Nat.lt_of_le_of_lt (Nat.le_of_eq hb.symm) hk
  · intro k hk
    cases hmoves with
    | leave hleave =>
      rcases hleave.connection with ⟨hc, -⟩ | ⟨hc, -⟩
      · simp [turn, hc] at hk
      · have hk' : some (w.session.link.begun + 1) = some k := hc.symm.trans hk
        have hlt : w.session.link.begun < k := by
          have := Option.some.inj hk'
          omega
        rw [hnew k hlt]
        exact Pipe.sound_fresh t n' _
    | stay hc _ hopen _ _ =>
      have hk' : w.session.connection = some k := hc.symm.trans hk
      have hp := hpipe k hk' fun hphase => ⟨(hopen hphase).1, (hopen hphase).2 k hk'⟩
      refine ⟨hp.flows, fun token id q hmem => ?_, hp.opening⟩
      rcases List.mem_append.mp hmem with hold | hnow
      · exact hp.asked token id q hold
      · exact Nat.le_trans (upTo_of_speech h.upto (hsent k _ hnow).2) hn

theorem upto_of_memory {s v : Session} {events : List Event} (h : Upto t n s events)
    (hm : v.memory = s.memory) (hs : v.shard = s.shard) : Upto t n v events := by
  have hseq : v.sequence = s.sequence := congrArg Memory.sequence hm
  have hid : v.sessionId = s.sessionId := congrArg Memory.sessionId hm
  exact ⟨h.le, by rw [hs, h.published], by rw [hseq, h.sequence], by rw [hid, h.sessionId]⟩

/-- Without an event, and without giving up a session of which anything was published, it stays
with the first `n` events. -/
theorem upto_of_recalls {s : Session} {m : Moment} {i : Input} {r : Session × List Effect}
    {events : List Event} (h : Upto t n s events) (hr : Recalls c m s i r)
    (hd : s.discards i = true → n = 0)
    (hno : ∀ k text kind q data, i = .inbound k (.received text) →
      Message.parse text ≠ .ok (.dispatch kind q data)) :
    Upto t n r.1 (events ++ Session.published r.2) := by
  cases hr with
  | quiet _ hq =>
    rw [Session.published, select_of_mute hq.mute, List.append_nil]
    exact upto_of_memory h hq.memory hq.shard
  | say _ k p _ hm hs _ _ hb ha =>
    have hnone : ∀ before after : List Effect, Mute before → Mute after →
        Session.published (before ++ .send k p :: after) = [] := by
      intro before after hb ha
      simp [select_of_mute hb, select_of_mute ha, Effect.published?]
    rw [hnone _ _ hb ha, List.append_nil]
    exact upto_of_memory h hm hs
  | accept k text kind q data hi _ ht _ => exact absurd ht (hno k text kind q data hi)
  | blank hdiscards hq =>
    obtain rfl : n = 0 := hd hdiscards
    have hevents : events = [] := by rw [h.published]; rfl
    have hseq : r.1.sequence = none := congrArg Memory.sequence hq.memory
    have hid : r.1.sessionId = none := congrArg Memory.sessionId hq.memory
    rw [Session.published, select_of_mute hq.mute, List.append_nil]
    refine ⟨h.le, ?_, ?_, ?_⟩
    · rw [hevents]
      rfl
    · rw [hseq, EventStream.last?_zero]
    · simp [hid]

/-- The event after the first `n` is accepted, and then the first `n + 1` are published. -/
theorem upto_of_accept {s : Session} {events : List Event} (h : Upto t n s events) {d : Numbered}
    (hd : t.items[n]? = some d) :
    Upto t (n + 1) (s.accept d.kind d.sequence d.data).1
      (events ++ Session.published (s.accept d.kind d.sequence d.data).2) := by
  have hmem := memory_accept (s := s) d.kind d.sequence d.data
  have hlt : n < t.items.length := (List.getElem?_eq_some_iff.mp hd).1
  refine ⟨hlt, ?_, ?_, ?_⟩
  · rw [published_accept, shard_accept, h.published, List.take_add_one, hd]
    simp [Numbered.toEvent]
  · have hseq := congrArg Memory.sequence hmem
    rw [EventStream.last?_succ hd]
    refine hseq.trans ?_
    cases welcome? d.kind d.data <;> rfl
  · have hid : (s.accept d.kind d.sequence d.data).1.sessionId = _ := congrArg Memory.sessionId hmem
    cases hw : welcome? d.kind d.data with
    | some info => simp [hid, hw]
    | none =>
      -- Only the first event has to name the session, so this is a later one.
      have hpos : 0 < n := by
        refine Nat.pos_of_ne_zero ?_
        rintro rfl
        simpa [hw] using t.welcoming d hd
      have hsome := h.sessionId.mpr hpos
      simp [hid, hw, memory, hsome]

/-- An event is accepted exactly if it is the one after the first `n`. -/
theorem accepts_iff {s : Session} {events : List Event} (h : Upto t n s events)
    (hp : s.phase.acceptsDispatch = true) {p : Nat} {d : Numbered} (hpn : p ≤ n)
    (hd : t.items[p]? = some d) : s.accepts d.sequence = true ↔ p = n := by
  have hacc : s.accepts d.sequence = true ↔ ∀ q, t.last? n = some q → q < d.sequence := by
    cases hlast : t.last? n <;>
      simp [accepts, hp, Turn.isReplay, h.sequence, hlast]
  rw [hacc]
  constructor
  · intro hall
    refine Nat.le_antisymm hpn (Nat.le_of_not_lt fun hlt => ?_)
    have hn := h.le
    have hlast : t.items[n - 1]? = some t.items[n - 1] := List.getElem?_eq_getElem (by omega)
    have hq := EventStream.last?_succ hlast
    rw [Nat.sub_add_cancel (by omega)] at hq
    have hsmall := hall _ hq
    by_cases heq : p = n - 1
    · rw [heq, hlast] at hd
      rw [Option.some.inj hd] at hsmall
      omega
    · have := EventStream.sequence_lt (by omega) hd hlast
      omega
  · rintro rfl q hq
    obtain ⟨e, hpos, he, rfl⟩ := EventStream.last?_eq_some hq h.le
    exact EventStream.sequence_lt (by omega) he hd

/-! ## Steps -/

/-- The session handles what is not news of a connection. -/
theorem sound_spontaneous (h : w.Sound t n) (m : Moment) {i : Input} (hi : i.isKeeping = true) :
    (w.turn c m i).Sound t n := by
  have hrecalls := recalls_happens (happens_step c w.session m i)
  have hd : w.session.discards i = false := by
    cases i <;> simp_all [Input.isKeeping, discards]
  have hno : ∀ k text kind q data, i = .inbound k (.received text) →
      Message.parse text ≠ .ok (.dispatch kind q data) := by
    rintro k text kind q data rfl
    simp [Input.isKeeping] at hi
  refine sound_turn w.pipes h (Nat.le_refl n) ?_ h.fresh ?_ ?_
  · rintro rfl
    simp [Input.isKeeping] at hi
  · exact upto_of_recalls h.upto hrecalls (by simp [hd]) hno
  · intro k hk hphase
    exact (h.pipe k hk).enter fun hp => (hphase hp).1

/-- The session handles news of the connection that it hears. -/
theorem sound_news (h : w.Sound t n) (m : Moment) {k : Nat} {e : LinkEvent}
    {rest : List LinkEvent} (hnews : (w.pipes k).news = e :: rest)
    (hk : w.session.connection = some k) {n' : Nat} (hn : n ≤ n')
    (hf : t.Flows n' rest (w.pipes k).cursor)
    (hupto : Upto t n' (step c w.session m (.inbound k e)).1
      (w.published ++ Session.published (step c w.session m (.inbound k e)).2)) :
    ((w.modify k ({ · with news := rest })).turn c m (.inbound k e)).Sound t n' := by
  have hbegun : k ≤ w.session.link.begun := h.begun k hk
  refine sound_turn (w.modify k ({ · with news := rest })).pipes h hn (by simp) ?_ hupto ?_
  · intro j hj
    have hne : j ≠ k := by omega
    simpa [Correspondence.modify, hne] using h.fresh j hj
  · intro j hj hphase
    obtain rfl : k = j := Option.some.inj (hk.symm.trans hj)
    have hp := (h.pipe k hk).deliver hnews hn hf fun hp =>
      ⟨(hphase hp).1, fun heq => (hphase hp).2 (by rw [heq])⟩
    simpa [Correspondence.modify] using hp

/-- The session handles news that are no event. -/
theorem sound_aside (h : w.Sound t n) (m : Moment) {k : Nat} {e : LinkEvent}
    {rest : List LinkEvent} (hnews : (w.pipes k).news = e :: rest)
    (hk : w.session.connection = some k) (hf : t.Flows n rest (w.pipes k).cursor)
    (hd : w.session.discards (.inbound k e) = true → n = 0)
    (hno : ∀ text kind q data, e = .received text →
      Message.parse text ≠ .ok (.dispatch kind q data)) :
    ((w.modify k ({ · with news := rest })).turn c m (.inbound k e)).Sound t n := by
  refine sound_news h m hnews hk (Nat.le_refl n) hf ?_
  refine upto_of_recalls h.upto (recalls_happens (happens_step ..)) hd ?_
  intro k' text kind q data heq
  exact hno text kind q data (Input.inbound.inj heq).2

/-- With an event published there is a session to take up. -/
theorem canResume_of_upto {s : Session} {events : List Event} (h : Upto t n s events)
    (hs : s.Coupled) (hn : n ≠ 0) : s.canResume = true := by
  have hid : s.sessionId.isSome = true := h.sessionId.mpr (Nat.pos_of_ne_zero hn)
  simp [canResume, hid, hs.resumable hid]

/-- The session handles an event of the stream. -/
theorem sound_event (h : w.Sound t n) (m : Moment) {k : Nat} {text : String}
    {rest : List LinkEvent} (hnews : (w.pipes k).news = .received text :: rest)
    (hk : w.session.connection = some k) {p : Nat} {d : Numbered}
    (ht : Message.parse text = .ok d.message) (hp : p ≤ n) (hd : t.items[p]? = some d)
    (hf : t.Flows (max n (p + 1)) rest (w.pipes k).cursor) :
    ∃ n', ((w.modify k ({ · with news := rest })).turn c m
      (.inbound k (.received text))).Sound t n' := by
  have hphase : w.session.phase.acceptsDispatch = true := by
    have hconnected := h.coupled.isConnected hk
    have hopening : w.session.phase ≠ .connecting := by
      intro hp
      have hfirst := ((h.pipe k hk).opening hp).1
      rw [hnews] at hfirst
      exact hfirst
    cases hphase : w.session.phase <;> simp_all [Phase.isConnected, Phase.acceptsDispatch]
  have hiff := accepts_iff h.upto hphase hp hd
  have hstep : step c w.session m (.inbound k (.received text)) = _ := step_dispatch hk ht
  by_cases heq : p = n
  · subst heq
    rw [if_pos (hiff.mpr rfl)] at hstep
    have hup := upto_of_accept (s := w.session.heard m) (upto_of_memory h.upto rfl rfl) hd
    refine ⟨p + 1, sound_news h m hnews hk (by omega) ?_ ?_⟩
    · rwa [Nat.max_eq_right (by omega)] at hf
    · rw [hstep]
      exact hup
  · rw [if_neg (fun hacc => heq (hiff.mp hacc))] at hstep
    refine ⟨n, sound_news h m hnews hk (Nat.le_refl n) ?_ ?_⟩
    · rwa [Nat.max_eq_left (by omega)] at hf
    · rw [hstep]
      simpa using upto_of_memory (v := w.session.heard m) h.upto rfl rfl

/-- The session handles the first news of a connection. -/
theorem sound_deliver (h : w.Sound t n) (m : Moment) {k : Nat} {e : LinkEvent}
    {rest : List LinkEvent} (hnews : (w.pipes k).news = e :: rest) :
    ∃ n', ((w.modify k ({ · with news := rest })).turn c m (.inbound k e)).Sound t n' := by
  have hbegun : k ≤ w.session.link.begun := by
    refine h.le_begun fun hp => ?_
    simp [hp] at hnews
  by_cases hk : w.session.connection = some k
  · have hf := (h.pipe k hk).flows
    rw [hnews] at hf
    cases e with
    | opened => exact ⟨n, sound_aside h m hnews hk hf (by simp [discards]) (by simp)⟩
    | failed reason => exact ⟨n, sound_aside h m hnews hk hf (by simp [discards]) (by simp)⟩
    | closed code reason =>
      exact ⟨n, sound_aside h m hnews hk hf.2 (by simp [discards, hf.1]) (by simp)⟩
    | received text =>
      have haside : (∀ kind q data, Message.parse text ≠ .ok (.dispatch kind q data)) →
          t.Flows n rest (w.pipes k).cursor →
          (w.session.discards (.inbound k (.received text)) = true → n = 0) →
          ∃ n', ((w.modify k ({ · with news := rest })).turn c m
            (.inbound k (.received text))).Sound t n' := by
        intro hno hrest hd
        refine ⟨n, sound_aside h m hnews hk hrest hd ?_⟩
        rintro text' kind q data heq
        obtain rfl : text = text' := LinkEvent.received.inj heq
        exact hno kind q data
      cases ht : Message.parse text with
      | error defect =>
        simp only [EventStream.Flows, ht] at hf
        exact haside (by simp [ht]) hf (by simp [discards, ht])
      | ok message =>
        cases message with
        | dispatch kind q data =>
          simp only [EventStream.Flows, ht] at hf
          obtain ⟨p, hp, hd, hrest⟩ := hf
          exact sound_event (d := ⟨kind, q, data⟩) h m hnews hk ht hp hd hrest
        | invalidSession resumable =>
          cases resumable with
          | false =>
            simp only [EventStream.Flows, ht] at hf
          | true =>
            simp only [EventStream.Flows, ht] at hf
            refine haside (by simp [ht]) hf fun hd => ?_
            refine Decidable.byContradiction fun hn => ?_
            simp [discards, ht, canResume_of_upto h.upto h.coupled hn] at hd
        | _ =>
          simp only [EventStream.Flows, ht] at hf
          exact haside (by simp [ht]) hf (by simp [discards, ht])
  · -- What comes late changes nothing.
    have hstale := (step_stale (c := c) (m := m) hk).1 e
    have hturn : (w.modify k ({ · with news := rest })).turn c m (.inbound k e) =
        w.modify k ({ · with news := rest }) := by
      simp [turn, Correspondence.modify, hstale, sentTo]
    rw [hturn]
    exact ⟨n, h.modify hbegun fun hk' => absurd hk' hk⟩

/-- Every step preserves the invariant, with the same events published or one more. -/
theorem sound_step {v : Correspondence} (h : w.Sound t n) (hs : Step c t w v) :
    ∃ n', v.Sound t n' := by
  cases hs with
  | turn m i hi => exact ⟨n, sound_spontaneous h m hi⟩
  | deliver m k e rest hnews => exact sound_deliver h m hnews
  | opens k hk ho => exact ⟨n, h.modify hk fun _ hp => hp.opens⟩
  | identify k hk _ _ _ _ _ _ hasked =>
    refine ⟨n, h.modify (hk.le_begun h) fun _ hp => hp.read hasked ?_⟩
    rintro p hp
    obtain rfl : 0 = p := Option.some.inj hp
    exact Nat.zero_le n
  | resume k hk _ _ _ _ hasked _ hp =>
    refine ⟨n, h.modify (hk.le_begun h) fun _ hpipe => hpipe.read hasked ?_⟩
    intro p' hp'
    obtain rfl := Option.some.inj hp'
    have hle := hpipe.asked _ _ _ (hasked ▸ List.mem_cons_self)
    omega
  | ignore k hasked => exact ⟨n, h.modify (le_begun_of_asked h hasked) fun _ hp => hp.skip hasked⟩
  | dispatch k hk _ _ _ hc hd ht =>
    refine ⟨n, h.modify (hk.le_begun h) fun _ hp => hp.report ?_ (.inl hk)⟩
    have hflows := hp.flows
    rw [hc] at hflows
    exact hflows.dispatch hd ht
  | aside k hk ht hm =>
    refine ⟨n, h.modify (hk.le_begun h) fun _ hp => hp.report ?_ (.inl hk)⟩
    exact hp.flows.append fun m _ hc => flows_aside ht hm hc
  | close k hk code reason hcode =>
    refine ⟨n, h.modify hk fun _ hp => hp.report ?_ (.inr (by simp))⟩
    exact hp.flows.append fun m _ hc => ⟨hcode, hc⟩
  | fail k hk reason =>
    refine ⟨n, h.modify hk fun _ hp => hp.report ?_ (.inr (by simp))⟩
    exact hp.flows.append fun m _ hc => hc
  | cut k hk j => exact ⟨n, h.modify hk fun _ hp => hp.drop j⟩

theorem sound_reaches {v : Correspondence} (h : ∃ n, w.Sound t n) (hr : Reaches c t w v) :
    ∃ n, v.Sound t n := by
  induction hr with
  | refl => exact h
  | step _ hs ih =>
    obtain ⟨n, hn⟩ := ih
    exact sound_step hn hs

theorem shard_reaches {v : Correspondence} (h : Reaches c t w v) :
    v.session.shard = w.session.shard := by
  induction h with
  | refl => rfl
  | step _ hs ih =>
    refine Eq.trans ?_ ih
    cases hs with
    | turn m i _ => exact shard_step c _ m i
    | deliver m k e rest _ => exact shard_step c _ m _
    | _ => rfl

/-- Whatever happens, the events published are a beginning of the events of the server, and the
session remembers the number of the last of them. -/
theorem published_of_reaches (c : Config) (t : EventStream) (shard : Shard) (now : Instant)
    {w : Correspondence} (h : Reaches c t (begin c shard now) w) :
    w.published <+: t.items.map (·.toEvent shard) ∧
      w.session.sequence = w.published.getLast?.map (·.sequence) := by
  obtain ⟨n, hn⟩ := sound_reaches ⟨0, sound_begin c t shard now⟩ h
  have hshard : w.session.shard = shard := shard_reaches h
  have hpublished := hn.upto.published
  rw [hshard] at hpublished
  constructor
  · rw [hpublished]
    exact (List.take_prefix n t.items).map _
  · rw [hn.upto.sequence, hpublished, EventStream.last?, List.getLast?_map, Option.map_map]
    rfl

/-- A second event. -/
def secondText : String := "\x7b\"op\":0,\"t\":\"NEWS\",\"s\":2,\"d\":null\x7d"

/-- The data of the second event. -/
@[irreducible] def secondData : Json := Story.dataOf (Message.parse secondText)

theorem parse_secondText : Message.parse secondText = .ok (.dispatch "NEWS" 2 secondData) := by
  rw [secondData]
  exact Story.eq_of_eventOf? (by decide +kernel)

/-- Two events. -/
def twoEvents : EventStream where
  items := [⟨"READY", 1, Story.firstData⟩, ⟨"NEWS", 2, secondData⟩]
  increasing := by simp
  welcoming := by
    rintro d hd
    obtain rfl : _ = d := Option.some.inj hd
    simp [welcome?, Story.ofData_firstData, Except.toOption]

/-- The second event is lost with its connection. The session comes back, the server repeats both
events, and the session publishes the second only. -/
theorem published_of_reaches_again :
    ∃ w, Reaches {} twoEvents (begin {} ⟨0, 1⟩ 0) w ∧
      w.published <+: twoEvents.items.map (·.toEvent ⟨0, 1⟩) ∧
      w.published.map (·.sequence) = [1, 2] ∧ w.session.sequence = some 2 := by
  obtain ⟨hello, hgreeting, haside⟩ : ∃ message, Message.parse Story.greeting = .ok message ∧
      message.isAside = true := by
    have hany : (Message.parse Story.greeting).toOption.any (·.isAside) = true := by decide +kernel
    cases hparse : Message.parse Story.greeting with
    | error e => simp [hparse, Except.toOption] at hany
    | ok message => exact ⟨message, rfl, by simpa [hparse, Except.toOption] using hany⟩
  have h : Reaches {} twoEvents (begin {} ⟨0, 1⟩ 0) (begin {} ⟨0, 1⟩ 0) := .refl
  -- The session begins, and publishes the first event.
  replace h := h.step (.turn _ Story.calm .start rfl)
  replace h := h.step (.opens _ 1 (by decide +kernel) (by decide +kernel))
  replace h := h.step (.deliver _ Story.calm 1 .opened [] (by decide +kernel))
  replace h := h.step (.aside _ 1 (by decide +kernel) hgreeting haside)
  replace h := h.step (.deliver _ Story.calm 1 (.received Story.greeting) [] (by decide +kernel))
  replace h := h.step (.turn _ Story.calm (.admitted 1 (.ok ())) rfl)
  replace h := h.step (.identify _ 1 (by decide +kernel) "" 0 ⟨0, 1⟩ .none "linux" []
    (by decide +kernel))
  replace h := h.step (.dispatch _ 1 (by decide +kernel) 0 _ Story.firstReady (by decide +kernel)
    rfl Story.parse_firstReady)
  replace h := h.step (.deliver _ Story.calm 1 (.received Story.firstReady) [] (by decide +kernel))
  -- The second event is on its way when the connection is lost.
  replace h := h.step (.dispatch _ 1 (by decide +kernel) 1 _ secondText (by decide +kernel) rfl
    parse_secondText)
  replace h := h.step (.cut _ 1 (by decide +kernel) 0)
  replace h := h.step (.fail _ 1 (by decide +kernel) "reset")
  replace h := h.step (.deliver _ { Story.calm with live := false } 1 (.failed "reset") []
    (by decide +kernel))
  -- The session comes back, and the server begins all over.
  replace h := h.step (.turn _ Story.calm (.reconnectDue 1) rfl)
  replace h := h.step (.opens _ 2 (by decide +kernel) (by decide +kernel))
  replace h := h.step (.deliver _ Story.calm 2 .opened [] (by decide +kernel))
  replace h := h.step (.aside _ 2 (by decide +kernel) hgreeting haside)
  replace h := h.step (.deliver _ Story.calm 2 (.received Story.greeting) [] (by decide +kernel))
  replace h := h.step (.resume _ 2 (by decide +kernel) "" "a" 1 [] (by decide +kernel) 0
    (Nat.zero_le _))
  replace h := h.step (.dispatch _ 2 (by decide +kernel) 0 _ Story.firstReady (by decide +kernel)
    rfl Story.parse_firstReady)
  replace h := h.step (.deliver _ Story.calm 2 (.received Story.firstReady) [] (by decide +kernel))
  replace h := h.step (.dispatch _ 2 (by decide +kernel) 1 _ secondText (by decide +kernel) rfl
    parse_secondText)
  replace h := h.step (.deliver _ Story.calm 2 (.received secondText) [] (by decide +kernel))
  obtain ⟨w, hw, hnumbers⟩ : ∃ w, Reaches {} twoEvents (begin {} ⟨0, 1⟩ 0) w ∧
      w.published.map (·.sequence) = [1, 2] := ⟨_, h, by decide +kernel⟩
  obtain ⟨hbegun, hlast⟩ := published_of_reaches {} twoEvents ⟨0, 1⟩ 0 hw
  refine ⟨w, hw, hbegun, hnumbers, ?_⟩
  rw [hlast, ← List.getLast?_map, hnumbers]
  rfl

end Correspondence

end Switchboard
