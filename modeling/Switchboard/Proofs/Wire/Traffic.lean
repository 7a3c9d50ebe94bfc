import Switchboard.Proofs.Wire.Letters

/-!
# The traffic of a transport

The owner of a transport opens, sends and closes, while the tasks of all its connections go on, the
one it has and those it has given up. Sending has two halves: the writer is looked up at once, and
the frame comes to this writer some time later, when the connection may be closed or another one may
be in its place.

## Main definitions

* `Traffic`: a transport with a journal of each connection and the frames that are on their way.
* `Traffic.move`, `Traffic.run`: what the owner and the tasks do, in any order.
* `Traffic.Concerns`: the one connection, or two, that a move is about.

## Main results

* `Traffic.journey?_move`: a move is for every connection a move of its own, or nothing.
* `Traffic.written_of_run`: what is written on a connection, for every run.
-/
namespace Switchboard

/-- The move is one of the reader or the writer, not of the owner. -/
def Journey.Move.isTask : Journey.Move → Bool
  | .accept _ | .close _ _ => false
  | _ => true

theorem Journey.closed_of_isTask {p q : Journey} {a : Journey.Move} (ha : p.move a = some q)
    (h : a.isTask = true) : q.journal.closed = p.journal.closed := by
  cases moved_of_move ha with
  | answer => unfold answered; split <;> rfl
  | read => unfold took; split <;> rfl
  | close => simp [Move.isTask] at h
  | _ => rfl

/-- A transport with the journeys of its connections. -/
structure Traffic where
  transport : Transport
  /-- What the other side of each connection does. -/
  behaviour : Nat → Behaviour
  journal : Nat → Journal := fun _ => {}
  /-- Frames that were sent and are on the way to the writer of their connection. -/
  flying : List (Nat × Frame) := []

namespace Traffic

/-- What the owner and the tasks do. -/
inductive Move where
  /-- A task of a connection goes on. -/
  | task (k : Nat) (a : Journey.Move)
  /-- The owner opens a connection. -/
  | dial (url : String)
  /-- The owner closes its connection. -/
  | close (code : Nat) (reason : String)
  /-- The owner sends a frame, and its writer is looked up. -/
  | send (f : Frame)
  /-- A frame comes to its writer. -/
  | arrive (n : Nat)

/-- A transport that nobody has used. -/
def begin (behaviour : Nat → Behaviour) (mode : Compression) : Traffic where
  transport := { mode }
  behaviour := behaviour

/-- The journey of a connection. -/
def journey? (t : Traffic) (k : Nat) : Option Journey :=
  (t.transport.connection? k).map fun x => ⟨t.behaviour k, x, t.journal k⟩

/-- A connection has gone on. -/
def put (t : Traffic) (k : Nat) (p : Journey) : Traffic :=
  { t with
    transport := t.transport.modify k fun _ => p.connection
    journal := fun j => if j = k then p.journal else t.journal j }

/-- The current connection is closed. -/
def shut (t : Traffic) (code : Nat) (reason : String) : Traffic :=
  { t with
    transport := t.transport.close code reason
    journal := fun j =>
      if t.transport.link.current = some j then (t.journal j).shut code reason else t.journal j }

/-- A connection is opened, unless there is a live one. -/
def dialled (t : Traffic) (url : String) : Traffic :=
  if t.transport.isLive then t
  else
    { t with
      transport := (t.transport.dial url).1
      journal := fun j =>
        if j = t.transport.link.begun + 1 then {} else (t.shut 1000 "superseded").journal j }

/-- The writer of the current connection is looked up for a frame. -/
def sent (t : Traffic) (f : Frame) : Traffic :=
  match t.transport.link.current with
  | some k => if t.transport.isOpen then { t with flying := t.flying ++ [(k, f)] } else t
  | none => t

/-- A frame comes to a writer, which may be gone. -/
def landed (t : Traffic) (k : Nat) (f : Frame) : Traffic :=
  match (t.journey? k).bind (·.move (.accept f)) with
  | some p => t.put k p
  | none => t

/-- One move, if it is possible. -/
def move (t : Traffic) : Move → Option Traffic
  | .task k a => if a.isTask then ((t.journey? k).bind (·.move a)).map (t.put k) else none
  | .dial url => some (t.dialled url)
  | .close code reason => some (t.shut code reason)
  | .send f => some (t.sent f)
  | .arrive n =>
    t.flying[n]?.map fun kf => { t.landed kf.1 kf.2 with flying := t.flying.eraseIdx n }

/-- A schedule of moves, if all are possible. -/
def run (t : Traffic) : List Move → Option Traffic
  | [] => some t
  | a :: rest => (t.move a).bind (run · rest)

/-- A move is about a connection. -/
def Concerns (t : Traffic) : Move → Nat → Prop
  | .task k _, j => j = k
  | .dial _, j =>
    t.transport.isLive = false ∧
      (t.transport.link.current = some j ∨ j = t.transport.link.begun + 1)
  | .close _ _, j | .send _, j => t.transport.link.current = some j
  | .arrive n, j => ∃ f, t.flying[n]? = some (j, f)

/-- The frames on the way to a connection. -/
def onTheWay (t : Traffic) (k : Nat) : List (Nat × Frame) := t.flying.filter (·.1 = k)

variable {t t' : Traffic} {k j : Nat} {p q : Journey} {f : Frame}

/-! ## Journeys -/

theorem journey?_put (hp : t.journey? k = some p) (hb : q.behaviour = p.behaviour) :
    (t.put k q).journey? j = if j = k then some q else t.journey? j := by
  obtain ⟨x, hx, rfl⟩ : ∃ x, t.transport.connection? k = some x ∧
      ⟨t.behaviour k, x, t.journal k⟩ = p := by simpa [journey?] using hp
  by_cases hj : j = k
  · subst hj
    have hb' : t.behaviour j = q.behaviour := hb.symm
    simp [put, journey?, Transport.connection?_modify, hx, hb']
  · simp [put, journey?, Transport.connection?_modify, hj]

theorem journey?_shut (t : Traffic) (code : Nat) (reason : String) (j : Nat) :
    (t.shut code reason).journey? j =
      if t.transport.link.current = some j then (t.journey? j).map (·.shut code reason)
      else t.journey? j := by
  simp only [journey?, shut, Transport.connection?_close]
  split
  · simp [Journey.shut, Function.comp_def]
  · rfl

theorem journey?_dialled (hlive : t.transport.isLive = false) (url : String) (j : Nat) :
    (t.dialled url).journey? j =
      if j = t.transport.link.begun + 1 then some (.begin (t.behaviour j) url t.transport.mode)
      else (t.shut 1000 "superseded").journey? j := by
  rw [journey?, dialled, if_neg (by simp [hlive])]
  simp only [Transport.connection?_dial hlive]
  by_cases hj : j = t.transport.link.begun + 1
  · simp [hj, Journey.begin]
  · simp [hj, shut, journey?]

/-- What a move comes to, and when it is possible. -/
inductive Moved (t : Traffic) : Move → Traffic → Prop where
  | task {k : Nat} {p q : Journey} {a : Journey.Move} (htask : a.isTask = true)
      (hp : t.journey? k = some p) (ha : p.move a = some q) : Moved t (.task k a) (t.put k q)
  | dial (url : String) : Moved t (.dial url) (t.dialled url)
  | close (code : Nat) (reason : String) : Moved t (.close code reason) (t.shut code reason)
  | send (f : Frame) : Moved t (.send f) (t.sent f)
  | arrive {n k : Nat} {f : Frame} (hn : t.flying[n]? = some (k, f)) :
      Moved t (.arrive n) { t.landed k f with flying := t.flying.eraseIdx n }

theorem moved_of_move {a : Move} (h : t.move a = some t') : Moved t a t' := by
  cases a with
  | task k b =>
    obtain ⟨htask, p, hp, q, hb, rfl⟩ : b.isTask = true ∧ ∃ p, t.journey? k = some p ∧
        ∃ q, p.move b = some q ∧ t.put k q = t' := by
      simpa [move, Option.bind_eq_some_iff] using h
    exact .task htask hp hb
  | dial url =>
    obtain rfl : t.dialled url = t' := by simpa [move] using h
    exact .dial url
  | close code reason =>
    obtain rfl : t.shut code reason = t' := by simpa [move] using h
    exact .close code reason
  | send f =>
    obtain rfl : t.sent f = t' := by simpa [move] using h
    exact .send f
  | arrive n =>
    obtain ⟨k, f, hn, rfl⟩ : ∃ k f, t.flying[n]? = some (k, f) ∧
        { t.landed k f with flying := t.flying.eraseIdx n } = t' := by
      simpa [move] using h
    exact .arrive hn

/-- What stays as it is whatever happens, and that connections are not forgotten. -/
structure Keeps (t t' : Traffic) : Prop where
  behaviour : t'.behaviour = t.behaviour
  mode : t'.transport.mode = t.transport.mode
  begun : t.transport.link.begun ≤ t'.transport.link.begun

theorem keeps_put (t : Traffic) (k : Nat) (p : Journey) : t.Keeps (t.put k p) where
  behaviour := rfl
  mode := Transport.mode_modify ..
  begun := by simp [put, Transport.link_modify]

theorem keeps_landed (t : Traffic) (k : Nat) (f : Frame) : t.Keeps (t.landed k f) := by
  unfold landed
  split
  · exact keeps_put ..
  · exact ⟨rfl, rfl, Nat.le_refl _⟩

theorem keeps_dialled (t : Traffic) (url : String) : t.Keeps (t.dialled url) := by
  unfold dialled
  split
  · exact ⟨rfl, rfl, Nat.le_refl _⟩
  · next hlive =>
    exact ⟨rfl, Transport.mode_dial .., by
      simp [Transport.link_dial_of_dead (by simpa using hlive), Link.renew]⟩

theorem keeps_sent (t : Traffic) (f : Frame) : t.Keeps (t.sent f) := by
  unfold sent
  split
  · split <;> exact ⟨rfl, rfl, Nat.le_refl _⟩
  · exact ⟨rfl, rfl, Nat.le_refl _⟩

theorem keeps_move {a : Move} (ha : t.move a = some t') : t.Keeps t' := by
  cases moved_of_move ha with
  | task => exact keeps_put ..
  | dial url => exact keeps_dialled t url
  | close code reason => exact ⟨rfl, Transport.mode_close .., by simp [shut]⟩
  | send f => exact keeps_sent t f
  | arrive hn => exact ⟨(keeps_landed ..).behaviour, (keeps_landed ..).mode, (keeps_landed ..).begun⟩

/-- What holds of a transport and its traffic when these frames were sent. -/
structure Sound (sent : List Frame) (t : Traffic) : Prop where
  known : ∀ k p, t.journey? k = some p → k ≤ t.transport.link.begun
  /-- The owner lets go of a connection when it closes it. -/
  current : ∀ k, t.transport.link.current = some k →
    k ≤ t.transport.link.begun ∧ (t.journal k).closed = none
  flying : ∀ kf ∈ t.flying, kf.2 ∈ sent
  /-- Every connection has had a run of its own. -/
  journeys : ∀ k p, t.journey? k = some p → ∃ url moves,
    (Journey.begin (t.behaviour k) url t.transport.mode).run moves = some p ∧
      ∀ f ∈ moves.filterMap Journey.Move.sent?, f ∈ sent

theorem sound_begin (behaviour : Nat → Behaviour) (mode : Compression) :
    (begin behaviour mode).Sound [] where
  known := by simp [begin, journey?, Transport.connection?]
  current := by simp [begin]
  flying := by simp [begin]
  journeys := by simp [begin, journey?, Transport.connection?]

variable {sent : List Frame}

theorem journal_of_journey? (hp : t.journey? k = some p) : t.journal k = p.journal := by
  obtain ⟨x, -, rfl⟩ : ∃ x, t.transport.connection? k = some x ∧
      ⟨t.behaviour k, x, t.journal k⟩ = p := by simpa [journey?] using hp
  rfl

theorem Sound.closed (h : t.Sound sent) (hk : t.transport.link.current = some k)
    (hp : t.journey? k = some p) : p.journal.closed = none :=
  journal_of_journey? hp ▸ (h.current k hk).2

/-! ## What a move is for a connection -/

/-- What a move is for a connection. -/
inductive Sees (t t' : Traffic) (k : Nat) : Prop where
  /-- The connection takes no part in it. -/
  | same (h : t'.journey? k = t.journey? k)
  /-- It is a move of the connection. -/
  | moved {p q : Journey} {a : Journey.Move} (hp : t.journey? k = some p) (ha : p.move a = some q)
      (hq : t'.journey? k = some q) (hsent : ∀ f, a = .accept f → (k, f) ∈ t.flying)
  /-- The connection is begun. -/
  | begun (hp : t.journey? k = none) (hk : k ≤ t'.transport.link.begun) {url : String}
      (hq : t'.journey? k = some (.begin (t.behaviour k) url t.transport.mode))

/-- What else changes does not matter for a journey. -/
theorem Sees.of_eq (h : t.Sees t' k) {u : Traffic} (hu : u.journey? k = t'.journey? k)
    (hle : t'.transport.link.begun ≤ u.transport.link.begun) : t.Sees u k := by
  cases h with
  | same hq => exact .same (hu.trans hq)
  | moved hp ha hq hsent => exact .moved hp ha (hu.trans hq) hsent
  | begun hp hk hq => exact .begun hp (Nat.le_trans hk hle) (hu.trans hq)

theorem sees_put (hp : t.journey? k = some p) {a : Journey.Move} (ha : p.move a = some q)
    (hsent : ∀ f, a = .accept f → (k, f) ∈ t.flying) (j : Nat) : t.Sees (t.put k q) j := by
  have hput := journey?_put (j := j) hp (Journey.grows_move ha).1
  by_cases hj : j = k
  · subst hj
    exact .moved hp ha (by simpa using hput) hsent
  · exact .same (by simpa [hj] using hput)

theorem sees_landed (hf : (k, f) ∈ t.flying) (j : Nat) : t.Sees (t.landed k f) j := by
  unfold landed
  split
  · next q hq =>
    obtain ⟨p, hp, ha⟩ := Option.bind_eq_some_iff.mp hq
    refine sees_put hp ha ?_ j
    intro f' hf'
    obtain rfl : f = f' := by simpa using hf'
    exact hf
  · exact .same rfl

theorem sees_shut (h : t.Sound sent) (code : Nat) (reason : String) (j : Nat) :
    t.Sees (t.shut code reason) j := by
  have hshut := journey?_shut t code reason j
  by_cases hj : t.transport.link.current = some j
  · rw [if_pos hj] at hshut
    cases hp : t.journey? j with
    | none => exact .same (by rw [hshut, hp]; rfl)
    | some p =>
      refine .moved (a := .close code reason) hp ?_ (by rw [hshut, hp]; rfl) (by simp)
      simp [Journey.move, h.closed hj hp]
  · exact .same (by rw [hshut, if_neg hj])

theorem sees_dialled (h : t.Sound sent) (url : String) (j : Nat) : t.Sees (t.dialled url) j := by
  cases hlive : t.transport.isLive with
  | true =>
    rw [dialled, if_pos hlive]
    exact .same rfl
  | false =>
    have hdialled := journey?_dialled hlive url j
    by_cases hj : j = t.transport.link.begun + 1
    · rw [if_pos hj] at hdialled
      refine .begun ?_ ?_ hdialled
      · cases hp : t.journey? j with
        | none => rfl
        | some p =>
          have hle := h.known j p hp
          omega
      · rw [dialled, if_neg (by simp [hlive])]
        simp [Transport.link_dial_of_dead hlive, Link.renew, hj]
    · rw [if_neg hj] at hdialled
      refine (sees_shut h 1000 "superseded" j).of_eq hdialled ?_
      rw [dialled, if_neg (by simp [hlive])]
      simp [shut, Transport.link_dial_of_dead hlive, Link.renew]

/-- **A move is for every connection a move of its own, or nothing.** -/
theorem sees_move (h : t.Sound sent) {a : Move} (ha : t.move a = some t') (j : Nat) :
    t.Sees t' j := by
  cases moved_of_move ha with
  | task htask hp hb =>
    refine sees_put hp hb ?_ j
    rintro f rfl
    simp [Journey.Move.isTask] at htask
  | dial url => exact sees_dialled h url j
  | close code reason => exact sees_shut h code reason j
  | send f =>
    refine .same ?_
    unfold Traffic.sent
    split
    · split <;> rfl
    · rfl
  | arrive hn => exact (sees_landed (List.mem_of_getElem? hn) j).of_eq rfl (Nat.le_refl _)

/-! ## The invariant -/

/-- The frame that is sent in a move. -/
def Move.sent? : Move → Option Frame
  | .send f => some f
  | _ => none

/-- A connection that its owner has was not closed. -/
theorem Sound.current_put (h : t.Sound sent) (hp : t.journey? k = some p)
    (hclosed : q.journal.closed = p.journal.closed) :
    ∀ j, (t.put k q).transport.link.current = some j →
      j ≤ (t.put k q).transport.link.begun ∧ ((t.put k q).journal j).closed = none := by
  intro j hj
  have hlink : (t.put k q).transport.link = t.transport.link := Transport.link_modify ..
  rw [hlink] at hj ⊢
  obtain ⟨hle, hopen⟩ := h.current j hj
  refine ⟨hle, ?_⟩
  by_cases hjk : j = k
  · subst hjk
    simp [put, hclosed, h.closed hj hp]
  · simpa [put, hjk] using hopen

theorem Sound.current_move (h : t.Sound sent) {a : Move} (ha : t.move a = some t') :
    ∀ k, t'.transport.link.current = some k →
      k ≤ t'.transport.link.begun ∧ (t'.journal k).closed = none := by
  cases moved_of_move ha with
  | task htask hp hb => exact h.current_put hp (Journey.closed_of_isTask hb htask)
  | dial url =>
    unfold dialled
    split
    · exact h.current
    · next hlive =>
      rw [Transport.link_dial_of_dead (by simpa using hlive)]
      intro k hk
      obtain rfl : t.transport.link.begun + 1 = k := by simpa using hk
      exact ⟨Nat.le_refl _, by simp⟩
  | close code reason => simp [shut]
  | send f =>
    unfold Traffic.sent
    split
    · split <;> exact h.current
    · exact h.current
  | arrive hn =>
    unfold landed
    split
    · next q hq =>
      obtain ⟨p, hp, hb⟩ := Option.bind_eq_some_iff.mp hq
      have hclosed : q.journal.closed = p.journal.closed := by
        cases Journey.moved_of_move hb
        rfl
      exact h.current_put hp hclosed
    · exact h.current

theorem Sound.flying_move (h : t.Sound sent) {a : Move} (ha : t.move a = some t') :
    ∀ kf ∈ t'.flying, kf.2 ∈ sent ++ a.sent?.toList := by
  have hold : ∀ kf ∈ t.flying, kf.2 ∈ sent ++ a.sent?.toList := fun kf hkf =>
    List.mem_append_left _ (h.flying kf hkf)
  cases moved_of_move ha with
  | task => exact hold
  | dial url =>
    unfold dialled
    split <;> exact hold
  | close code reason => exact hold
  | send f =>
    unfold Traffic.sent
    split
    · split
      · intro kf hkf
        rcases List.mem_append.mp hkf with hkf | hkf
        · exact hold kf hkf
        · obtain rfl := List.mem_singleton.mp hkf
          simp [Move.sent?]
      · exact hold
    · exact hold
  | arrive hn => exact fun kf hkf => hold kf (List.mem_of_mem_eraseIdx hkf)

theorem sound_move (h : t.Sound sent) {a : Move} (ha : t.move a = some t') :
    t'.Sound (sent ++ a.sent?.toList) where
  known := by
    intro k p hp
    cases sees_move h ha k with
    | same hq => exact Nat.le_trans (h.known k p (hq ▸ hp)) (keeps_move ha).begun
    | moved hp' => exact Nat.le_trans (h.known k _ hp') (keeps_move ha).begun
    | begun _ hk => exact hk
  current := h.current_move ha
  flying := h.flying_move ha
  journeys := by
    intro k p hp
    have hkeeps := keeps_move ha
    rw [hkeeps.behaviour, hkeeps.mode]
    cases sees_move h ha k with
    | same hq =>
      obtain ⟨url, moves, hrun, hsent⟩ := h.journeys k p (hq ▸ hp)
      exact ⟨url, moves, hrun, fun f hf => List.mem_append_left _ (hsent f hf)⟩
    | @moved p' q b hp' hb hq hfrom =>
      obtain rfl : p = q := Option.some.inj (hp.symm.trans hq)
      obtain ⟨url, moves, hrun, hsent⟩ := h.journeys k p' hp'
      refine ⟨url, moves ++ [b], Journey.run_snoc hrun hb, fun f hf => ?_⟩
      rw [List.filterMap_append] at hf
      rcases List.mem_append.mp hf with hf | hf
      · exact List.mem_append_left _ (hsent f hf)
      · obtain rfl : b = .accept f := by
          cases b <;> simp_all [Journey.Move.sent?]
        exact List.mem_append_left _ (h.flying _ (hfrom f rfl))
    | @begun _ _ url hq =>
      obtain rfl : p = .begin (t.behaviour k) url t.transport.mode :=
        Option.some.inj (hp.symm.trans hq)
      exact ⟨url, [], rfl, by simp⟩

theorem sound_run (h : t.Sound sent) {moves : List Move} (ht : t.run moves = some t') :
    t'.Sound (sent ++ moves.filterMap Move.sent?) ∧ t.Keeps t' := by
  induction moves generalizing t sent with
  | nil =>
    obtain rfl : t = t' := by simpa [run] using ht
    exact ⟨by simpa using h, rfl, rfl, Nat.le_refl _⟩
  | cons a rest ih =>
    obtain ⟨u, ha, hrest⟩ : ∃ u, t.move a = some u ∧ u.run rest = some t' := by
      simpa [run, Option.bind_eq_some_iff] using ht
    rw [filterMap_cons_toList, ← List.append_assoc]
    obtain ⟨hsound, hkeeps⟩ := ih (sound_move h ha) hrest
    have hfirst := keeps_move ha
    exact ⟨hsound, hkeeps.behaviour.trans hfirst.behaviour, hkeeps.mode.trans hfirst.mode,
      Nat.le_trans hfirst.begun hkeeps.begun⟩

/-! ## Connections apart from each other -/

theorem onTheWay_sent (hj : t.transport.link.current ≠ some j) (f : Frame) :
    (t.sent f).onTheWay j = t.onTheWay j := by
  unfold sent
  split
  · next k hk =>
    have hkj : k ≠ j := by
      rintro rfl
      exact hj hk
    split
    · simp [onTheWay, hkj]
    · rfl
  · rfl

theorem onTheWay_eraseIdx {n : Nat} (hn : t.flying[n]? = some (k, f)) (hj : j ≠ k) :
    (t.flying.eraseIdx n).filter (·.1 = j) = t.onTheWay j := by
  obtain ⟨hlt, hget⟩ := List.getElem?_eq_some_iff.mp hn
  have hall : t.flying = t.flying.take n ++ (k, f) :: t.flying.drop (n + 1) := by
    rw [← hget, List.getElem_cons_drop, List.take_append_drop]
  have hskip : ((k, f) :: t.flying.drop (n + 1)).filter (·.1 = j) =
      (t.flying.drop (n + 1)).filter (·.1 = j) := by
    simp [Ne.symm hj]
  rw [List.eraseIdx_eq_take_drop_succ, List.filter_append, ← hskip, ← List.filter_append, ← hall]
  rfl

/-- What a move is not about it leaves as it is, with all that is on the way to it. -/
theorem apart_move {a : Move} (ha : t.move a = some t') (hj : ¬t.Concerns a j) :
    t'.journey? j = t.journey? j ∧ t'.onTheWay j = t.onTheWay j := by
  cases moved_of_move ha with
  | @task k _ _ _ _ hp hb =>
    have hjk : j ≠ k := hj
    exact ⟨by rw [journey?_put hp (Journey.grows_move hb).1, if_neg hjk], rfl⟩
  | dial url =>
    cases hlive : t.transport.isLive with
    | true =>
      rw [dialled, if_pos hlive]
      exact ⟨rfl, rfl⟩
    | false =>
      obtain ⟨hcurrent, hnext⟩ : t.transport.link.current ≠ some j ∧
          j ≠ t.transport.link.begun + 1 := by simpa [Concerns, hlive] using hj
      refine ⟨?_, by rw [dialled, if_neg (by simp [hlive])]; rfl⟩
      rw [journey?_dialled hlive, if_neg hnext, journey?_shut, if_neg hcurrent]
  | close code reason =>
    have hcurrent : t.transport.link.current ≠ some j := hj
    exact ⟨by rw [journey?_shut, if_neg hcurrent], rfl⟩
  | send f =>
    refine ⟨?_, onTheWay_sent hj f⟩
    unfold sent
    split
    · split <;> rfl
    · rfl
  | @arrive n k f hn =>
    have hjk : j ≠ k := by
      rintro rfl
      exact hj ⟨f, hn⟩
    refine ⟨?_, onTheWay_eraseIdx hn hjk⟩
    have hland : (t.landed k f).journey? j = t.journey? j := by
      unfold landed
      split
      · next q hq =>
        obtain ⟨p, hp, hb⟩ := Option.bind_eq_some_iff.mp hq
        rw [journey?_put hp (Journey.grows_move hb).1, if_neg hjk]
      · rfl
    exact hland

/-! ## What is written -/

/-- **What is written on a connection.** However the owner opens, sends and closes, and however the
tasks go on: frames are written in the order in which the writer accepted them, and what it takes up
after the call that closed the connection is written only if it is a close frame. One letter at most,
the one that is waited for, is the work of that call, with its code and its reason. Unless somebody
hands over another close frame, it is the only one that is written, and the last frame. A connection
is closed once, as its owner lets go of it, and what is about others does not touch it, be it that
another connection is closed or opened. -/
theorem written_of_run {behaviour : Nat → Behaviour} {mode : Compression} {moves : List Move}
    (h : (begin behaviour mode).run moves = some t) (hp : t.journey? k = some p) :
    p.journal.written.Sublist p.journal.given ∧
      (∀ l ∈ p.journal.late, l.isClose = true) ∧
      (p.journal.given.filter Letter.awaited).Sublist p.journal.own ∧
      ((∀ l ∈ p.journal.given, l.awaited = false → l.isClose = false) →
        (∀ l ∈ p.journal.early, l.isClose = false) ∧ p.journal.late.Sublist p.journal.own) ∧
      (∀ l ∈ p.journal.given, l.awaited = false → l.isClose = true →
        ∃ f, .send f ∈ moves ∧ l = .frame f false) ∧
      (t.transport.link.current = some k → p.journal.closed = none) ∧
      ∀ a t', t.move a = some t' → ¬t.Concerns a k →
        t'.journey? k = some p ∧ t'.onTheWay k = t.onTheWay k := by
  obtain ⟨hsound, -⟩ := sound_run (sound_begin behaviour mode) h
  obtain ⟨url, own, hrun, hsent⟩ := hsound.journeys k p hp
  have hkept : p.Kept ([] ++ own.filterMap Journey.Move.sent?) :=
    Journey.kept_run (Journey.kept_begin ..) hrun
  refine ⟨hkept.written_sublist, hkept.late, hkept.awaited_sublist, hkept.late_sublist, ?_,
    fun hk => hsound.closed hk hp, fun a t' ha ha' => ?_⟩
  · intro l hl hawaited hclose
    obtain ⟨f, hf, rfl⟩ := hkept.sent l hl hawaited hclose
    have hmem : f ∈ moves.filterMap Move.sent? := by simpa using hsent f (by simpa using hf)
    obtain ⟨a, ha, haf⟩ := List.mem_filterMap.mp hmem
    obtain rfl : a = .send f := by
      cases a <;> simp_all [Move.sent?]
    exact ⟨f, ha, rfl⟩
  · obtain ⟨hjourney, hway⟩ := apart_move ha ha'
    exact ⟨hjourney.trans hp, hway⟩

/-- A connection is closed while a frame is on the way to it, and another one is opened in its place:
the frame is not written, the close frame is, and the other connection goes on. -/
theorem written_of_run_reopened :
    ∃ t p, (begin (fun _ => {}) .none).run
        [.dial "wss://gateway", .task 1 .answer, .send (.text [97]), .arrive 0,
          .task 1 (.write none), .send (.text [98]), .close 4000 "reconnecting",
          .dial "wss://gateway", .task 1 .report, .task 1 .notice, .task 1 (.write none),
          .task 1 .conclude, .task 1 .halt, .task 2 .answer, .arrive 0] = some t ∧
      t.journey? 1 = some p ∧
      p.journal.written =
        [.frame (.text [97]) false, .frame (.closing 4000 "reconnecting") true] ∧
      p.journal.closed = some (4000, "reconnecting") ∧
      (∀ l ∈ p.journal.early, l.isClose = false) ∧ p.journal.late.Sublist p.journal.own := by
  have hall : ((begin (fun _ => {}) .none).run
      [.dial "wss://gateway", .task 1 .answer, .send (.text [97]), .arrive 0,
        .task 1 (.write none), .send (.text [98]), .close 4000 "reconnecting",
        .dial "wss://gateway", .task 1 .report, .task 1 .notice, .task 1 (.write none),
        .task 1 .conclude, .task 1 .halt, .task 2 .answer, .arrive 0]).bind (fun t =>
          (t.journey? 1).map fun p => (p.journal.written, p.journal.closed, p.journal.given)) =
      some ([.frame (.text [97]) false, .frame (.closing 4000 "reconnecting") true],
        some (4000, "reconnecting"),
        [.frame (.text [97]) false, .frame (.closing 4000 "reconnecting") true, .stop,
          .frame (.text [98]) false]) := by decide +kernel
  obtain ⟨t, ht, hmap⟩ := Option.bind_eq_some_iff.mp hall
  obtain ⟨p, hp, hjournal⟩ := Option.map_eq_some_iff.mp hmap
  obtain ⟨hwritten, hclosed, hgiven⟩ : _ ∧ _ ∧ _ := by simpa using hjournal
  obtain ⟨-, -, -, hlast, -⟩ := written_of_run ht hp
  refine ⟨t, p, ht, hp, hwritten, hclosed, hlast ?_⟩
  rw [hgiven]
  decide

/-- A close frame that is sent like any other is written before the one that closes the connection. -/
theorem written_of_run_twice :
    ∃ t p, (begin (fun _ => {}) .none).run
        [.dial "wss://gateway", .task 1 .answer, .task 1 .report,
          .send (.closing 4000 "mine"), .arrive 0, .task 1 (.write none), .close 1000 "bye",
          .task 1 .notice, .task 1 (.write none)] = some t ∧
      t.journey? 1 = some p ∧
      p.journal.written = [.frame (.closing 4000 "mine") false, .frame (.closing 1000 "bye") true] ∧
      p.journal.written.countP Letter.isClose = 2 ∧ p.journal.closed = some (1000, "bye") := by
  have hall : ((begin (fun _ => {}) .none).run
      [.dial "wss://gateway", .task 1 .answer, .task 1 .report,
        .send (.closing 4000 "mine"), .arrive 0, .task 1 (.write none), .close 1000 "bye",
        .task 1 .notice, .task 1 (.write none)]).bind (fun t =>
          (t.journey? 1).map fun p => (p.journal.written, p.journal.closed)) =
      some ([.frame (.closing 4000 "mine") false, .frame (.closing 1000 "bye") true],
        some (1000, "bye")) := by decide +kernel
  obtain ⟨t, ht, hmap⟩ := Option.bind_eq_some_iff.mp hall
  obtain ⟨p, hp, hjournal⟩ := Option.map_eq_some_iff.mp hmap
  obtain ⟨hwritten, hclosed⟩ : _ ∧ _ := by simpa using hjournal
  exact ⟨t, p, ht, hp, hwritten, by rw [hwritten]; decide, hclosed⟩

/-! ## The halves of sending put together -/

theorem connection?_landed {x : Connection} (hx : t.transport.connection? k = some x) (f : Frame)
    (j : Nat) :
    (t.landed k f).transport.connection? j =
      if j = k then some (if x.writes then x.post (.frame f false) else x)
      else t.transport.connection? j := by
  have hp : t.journey? k = some ⟨t.behaviour k, x, t.journal k⟩ := by simp [journey?, hx]
  cases hw : x.writes with
  | true =>
    have hland : t.landed k f = t.put k (Journey.become ⟨t.behaviour k, x, t.journal k⟩
        (x.post (.frame f false)) []) := by
      simp [landed, hp, Journey.move, hw]
    rw [hland, put, Transport.connection?_modify, hx]
    rfl
  | false =>
    have hland : t.landed k f = t := by simp [landed, hp, Journey.move, hw]
    rw [hland]
    split
    · next hj => rw [hj, hx]; rfl
    · rfl

/-- To send is to look up the writer and to hand over the frame. -/
theorem run_send (t : Traffic) (f : Frame) (h : t.flying = []) :
    ∃ t', (t.run [.send f] = some t' ∨ t.run [.send f, .arrive 0] = some t') ∧
      t'.transport.link = (t.transport.send f).link ∧
      ∀ j, t'.transport.connection? j = (t.transport.send f).connection? j := by
  cases hk : t.transport.link.current with
  | none => exact ⟨t, .inl (by simp [run, move, sent, hk]), by simp [Transport.send, hk]⟩
  | some k =>
    have hsend : t.transport.send f = t.transport.modify k (·.send f) := by
      simp [Transport.send, hk]
    rw [hsend]
    cases hopen : t.transport.isOpen with
    | false =>
      refine ⟨t, .inl (by simp [run, move, sent, hk, hopen]), (Transport.link_modify ..).symm,
        fun j => ?_⟩
      rw [Transport.connection?_modify]
      split
      · next hj =>
        subst hj
        cases hx : t.transport.connection? j with
        | none => rfl
        | some x =>
          have hoffered : x.offered = false := by
            simpa [Transport.isOpen, Transport.current?, hk, hx] using hopen
          simp [Connection.send, Connection.sending, hoffered]
      · rfl
    | true =>
      obtain ⟨x, hx, hoffered⟩ : ∃ x, t.transport.connection? k = some x ∧ x.offered = true := by
        simpa [Transport.isOpen, Transport.current?, hk, Option.any_eq_true] using hopen
      have hlook : t.sent f = { t with flying := [(k, f)] } := by simp [sent, hk, hopen, h]
      refine ⟨{ landed { t with flying := [(k, f)] } k f with flying := [] },
        .inr (by simp [run, move, hlook]), ?_, fun j => ?_⟩
      · rw [Transport.link_modify]
        unfold landed
        split
        · exact Transport.link_modify ..
        · rfl
      · rw [Transport.connection?_modify, hx, Option.map_some, Connection.send_of_offered hoffered]
        exact connection?_landed (t := { t with flying := [(k, f)] }) hx f j

end Traffic

end Switchboard
