import Switchboard.Proofs.Wire.Course

/-!
# The journey of a connection

A connection goes through the hands of three: its reader, its writer, and its owner, who hands over
frames and closes it. A `Journey` is a connection with what the other side does to it and with a
journal of what came of it. Its moves are the smallest steps of the three, and they happen in any
order: what a reader is about to report waits in its hand, a reader that came to the end marks the
connection before it reports that and takes the writer back after it, and the owner may close the
connection between any two moves.

## Main definitions

* `Journal`: what is recorded of a connection.
* `Journey`: a connection with its journal; `Journey.move` and `Journey.run` are its moves.
* `Journey.Moved`: what a move comes to, and when it is possible.

## Main results

* `Journey.run_read`, `Journey.run_write`: the turns of reader and writer are runs of these moves.
-/
namespace Switchboard

namespace Letter

/-- Somebody waits for the outcome. -/
def awaited : Letter → Bool
  | .frame _ awaited => awaited
  | .stop => false

/-- The letter holds a close frame. -/
def isClose : Letter → Bool
  | .frame f _ => f.isClose
  | .stop => false

end Letter

/-- What a writer wrote of its letters when it took up the first. -/
def Writer.sends (w : Writer) : Delivery → List Letter
  | .written _ => w.mail.take 1
  | _ => []

namespace Connection

/-- What the writer has before it, as long as it is alive. -/
def queue (x : Connection) : List Letter :=
  match x.writer with
  | some w => if w.alive then w.mail else []
  | none => []

/-- The writer is taken out of reach; it goes on with what it has. -/
def retract (x : Connection) : Connection := { x with offered := false }

/-- The reader has heard that the close frame was written, or that it could not be. -/
def conclude (x : Connection) : Connection := { x with stage := .done }

theorem withdraw_eq (x : Connection) : x.withdraw = x.retract.post .stop := rfl

variable {x : Connection}

theorem stage_part (x : Connection) : x.part.stage = .parting ∨ x.part.stage = .done := by
  unfold part
  split <;> simp

@[simp] theorem finished_part (x : Connection) : x.part.finished = x.finished := by
  unfold part
  split <;> rfl

@[simp] theorem closing_part (x : Connection) : x.part.closing = x.closing := by
  unfold part
  split <;> rfl

@[simp] theorem inflater_part (x : Connection) : x.part.inflater = x.inflater := by
  unfold part
  split <;> rfl

theorem connected_of_closing (h : x.closing = true) :
    x.connected = (part { x with writer := some {} }, []) := by
  simp [connected, h]

theorem connected_of_open (h : x.closing = false) :
    x.connected =
      ({ x with writer := some {}, offered := true, stage := .reading }, [.opened]) := by
  simp [connected, h]

/-- What the reader does with a frame that is not the end. -/
theorem read_of_frame {f : Frame} (h : (Inbound.frame f).last? = none) :
    (x.read (.frame f)).1.stage = x.stage ∧ (x.read (.frame f)).1.finished = x.finished ∧
      (x.read (.frame f)).1.inflater = (Inflater.push .zlib x.inflater f).1 ∧
        (x.read (.frame f)).2 = LinkEvent.ofPush (Inflater.push .zlib x.inflater f).2 := by
  cases f with
  | close n => simp [Inbound.last?] at h
  | ping payload => simp [read, post, Inflater.push, LinkEvent.ofPush]
  | pong payload => simp [read, Inflater.push, LinkEvent.ofPush]
  | _ => exact ⟨rfl, rfl, rfl, rfl⟩

@[simp] theorem closing_read (i : Inbound) : (x.read i).1.closing = x.closing := by
  cases i with
  | frame f => cases f <;> rfl
  | _ => rfl

@[simp] theorem closing_notice : x.notice.closing = x.closing := by
  unfold notice
  split <;> simp

@[simp] theorem closing_connected : x.connected.1.closing = x.closing := by
  cases hclosing : x.closing with
  | true => simp [connected_of_closing, hclosing]
  | false => simp [connected_of_open, hclosing]

end Connection

/-- What is recorded of a connection besides its state. -/
structure Journal where
  /-- How much of what the other side gives was taken. -/
  taken : Nat := 0
  /-- What the reader has in hand to report. -/
  pending : List LinkEvent := []
  reported : List LinkEvent := []
  /-- The code and the reason of the first call that closed the connection. -/
  closed : Option (Nat × String) := none
  /-- What the writer accepted, oldest first. -/
  given : List Letter := []
  /-- What the writer took up before the connection was closed, and wrote. -/
  early : List Letter := []
  /-- What it took up afterwards, and wrote. -/
  late : List Letter := []

/-- Notes a call that closes the connection; the first is kept. -/
def Journal.shut (j : Journal) (code : Nat) (reason : String) : Journal :=
  { j with closed := j.closed.or (some (code, reason)) }

/-- Notes what was written. -/
def Journal.wrote (j : Journal) (closing : Bool) (letters : List Letter) : Journal :=
  { j with
    early := if closing then j.early else j.early ++ letters
    late := if closing then j.late ++ letters else j.late }

/-- A connection on its way. -/
structure Journey where
  behaviour : Behaviour
  connection : Connection
  journal : Journal := {}

namespace Journey

/-- What the reader, the writer and the owner of a connection do. -/
inductive Move where
  /-- The connection is made, or refused. -/
  | answer
  /-- The reader learns that its connection was closed. -/
  | notice
  /-- The reader takes what comes next. -/
  | read
  /-- The reader reports what it has in hand. -/
  | report
  /-- The reader of a connection that is over takes the writer back. -/
  | retract
  /-- The reader that waits for the close frame goes on. -/
  | conclude
  /-- The reader stops the writer. -/
  | halt
  /-- The writer takes up the first of its letters. -/
  | write (broken : Option Failure)
  /-- The writer accepts a frame that somebody hands over. -/
  | accept (f : Frame)
  /-- The owner closes the connection and lets go of it. -/
  | close (code : Nat) (reason : String)

/-- A connection that is about to be made. -/
def begin (b : Behaviour) (url : String) (mode : Compression) : Journey where
  behaviour := b
  connection := .new url mode

/-- The connection changes, and the reader has events to report. -/
def become (p : Journey) (x : Connection) (events : List LinkEvent) : Journey :=
  { p with
    connection := x
    journal := { p.journal with
      pending := p.journal.pending ++ events
      given := p.journal.given ++ x.queue.drop p.connection.queue.length } }

/-- What follows when the connection is made or refused. -/
def answered (p : Journey) : Journey :=
  match p.behaviour.obstacle with
  | some failure => p.become p.connection.mark [.failed failure.message]
  | none => p.become p.connection.connected.1 p.connection.connected.2

/-- What the other side gives next is counted as taken. -/
def advance (p : Journey) : Journey :=
  { p with journal := { p.journal with taken := p.journal.taken + 1 } }

/-- The reader takes something. The end is marked before it is reported. -/
def took (p : Journey) (i : Inbound) : Journey :=
  match i.last? with
  | some e => p.advance.become p.connection.mark [e]
  | none => p.advance.become (p.connection.read i).1 (p.connection.read i).2

/-- The writer took up its first letter. -/
def wrote (p : Journey) (w : Writer) (turn : Writer × Delivery) : Journey :=
  { p with
    connection := { p.connection with writer := some turn.1 }
    journal := p.journal.wrote p.connection.closing (w.sends turn.2) }

/-- The reader reports an event and keeps the rest in hand. -/
def said (p : Journey) (e : LinkEvent) (rest : List LinkEvent) : Journey :=
  { p with journal := { p.journal with pending := rest, reported := p.journal.reported ++ [e] } }

/-- The owner closes the connection. -/
def shut (p : Journey) (code : Nat) (reason : String) : Journey :=
  { p with
    connection := p.connection.close code reason
    journal := p.journal.shut code reason }

/-- One move, if it is possible. -/
def move (p : Journey) : Move → Option Journey
  | .answer => if p.connection.stage = .connecting then some p.answered else none
  | .notice =>
    if p.connection.closing ∧ p.journal.pending = [] then some (p.become p.connection.notice [])
    else none
  | .read =>
    if p.connection.stage = .reading ∧ p.journal.pending = [] then
      p.behaviour.items[p.journal.taken]?.map p.took
    else none
  | .report =>
    match p.journal.pending with
    | [] => none
    | e :: rest => some (p.said e rest)
  | .retract =>
    if p.connection.stage = .done ∧ p.journal.pending = [] then
      some (p.become p.connection.retract [])
    else none
  | .conclude =>
    if p.connection.stage = .parting ∧ p.connection.queue.all (!·.awaited) then
      some (p.become p.connection.conclude [])
    else none
  | .halt =>
    if p.connection.stage = .done ∧ p.connection.offered = false then
      some (p.become (p.connection.post .stop) [])
    else none
  | .write broken =>
    p.connection.writer.bind fun w =>
      (w.turn p.connection.closing broken).map (p.wrote w)
  | .accept f =>
    if p.connection.writes then some (p.become (p.connection.post (.frame f false)) []) else none
  | .close code reason => if p.journal.closed = none then some (p.shut code reason) else none

/-- A schedule of moves, if all are possible. -/
def run (p : Journey) : List Move → Option Journey
  | [] => some p
  | a :: rest => (p.move a).bind (run · rest)

variable {p q : Journey}

@[simp] theorem behaviour_become (x : Connection) (events : List LinkEvent) :
    (p.become x events).behaviour = p.behaviour := rfl
@[simp] theorem connection_become (x : Connection) (events : List LinkEvent) :
    (p.become x events).connection = x := rfl
@[simp] theorem taken_become (x : Connection) (events : List LinkEvent) :
    (p.become x events).journal.taken = p.journal.taken := rfl

@[simp] theorem behaviour_advance : p.advance.behaviour = p.behaviour := rfl
@[simp] theorem taken_advance : p.advance.journal.taken = p.journal.taken + 1 := rfl

theorem took_of_some {i : Inbound} {e : LinkEvent} (h : i.last? = some e) :
    p.took i = p.advance.become p.connection.mark [e] := by simp [took, h]

theorem took_of_none {i : Inbound} (h : i.last? = none) :
    p.took i = p.advance.become (p.connection.read i).1 (p.connection.read i).2 := by
  simp [took, h]

/-- What a move comes to, and when it is possible. -/
inductive Moved (p : Journey) : Move → Journey → Prop where
  | answer (hstage : p.connection.stage = .connecting) : Moved p .answer p.answered
  | notice (hclosing : p.connection.closing = true) (hpending : p.journal.pending = []) :
      Moved p .notice (p.become p.connection.notice [])
  | read (hstage : p.connection.stage = .reading) (hpending : p.journal.pending = []) {i : Inbound}
      (hi : p.behaviour.items[p.journal.taken]? = some i) : Moved p .read (p.took i)
  | report {e : LinkEvent} {rest : List LinkEvent} (hpending : p.journal.pending = e :: rest) :
      Moved p .report (p.said e rest)
  | retract (hstage : p.connection.stage = .done) (hpending : p.journal.pending = []) :
      Moved p .retract (p.become p.connection.retract [])
  | conclude (hstage : p.connection.stage = .parting)
      (hqueue : p.connection.queue.all (!·.awaited) = true) :
      Moved p .conclude (p.become p.connection.conclude [])
  | halt (hstage : p.connection.stage = .done) (hoffered : p.connection.offered = false) :
      Moved p .halt (p.become (p.connection.post .stop) [])
  | write {broken : Option Failure} {w : Writer} {turn : Writer × Delivery}
      (hw : p.connection.writer = some w)
      (hturn : w.turn p.connection.closing broken = some turn) :
      Moved p (.write broken) (p.wrote w turn)
  | accept {f : Frame} (hwrites : p.connection.writes = true) :
      Moved p (.accept f) (p.become (p.connection.post (.frame f false)) [])
  | close {code : Nat} {reason : String} (hclosed : p.journal.closed = none) :
      Moved p (.close code reason) (p.shut code reason)

theorem moved_of_move {a : Move} (h : p.move a = some q) : Moved p a q := by
  cases a with
  | read =>
    obtain ⟨⟨hstage, hpending⟩, i, hi, rfl⟩ :
        (p.connection.stage = .reading ∧ p.journal.pending = []) ∧
          ∃ i, p.behaviour.items[p.journal.taken]? = some i ∧ p.took i = q := by
      simpa [move] using h
    exact .read hstage hpending hi
  | report =>
    cases hpending : p.journal.pending with
    | nil => simp [move, hpending] at h
    | cons e rest =>
      obtain rfl : p.said e rest = q := by simpa [move, hpending] using h
      exact .report hpending
  | write broken =>
    obtain ⟨w, hw, turn, hturn, rfl⟩ : ∃ w, p.connection.writer = some w ∧
        ∃ turn, w.turn p.connection.closing broken = some turn ∧ p.wrote w turn = q := by
      simpa [move, Option.bind_eq_some_iff] using h
    exact .write hw hturn
  | answer | notice | retract | conclude | halt | accept f | close code reason =>
    simp only [move, Option.ite_none_right_eq_some, Option.some.injEq] at h
    obtain ⟨hguard, rfl⟩ := h
    first
      | exact .answer hguard
      | exact .notice hguard.1 hguard.2
      | exact .retract hguard.1 hguard.2
      | exact .conclude hguard.1 hguard.2
      | exact .halt hguard.1 hguard.2
      | exact .accept hguard
      | exact .close hguard

/-- The other side stays as it is, and what was reported stays reported. -/
theorem grows_move {a : Move} (ha : p.move a = some q) :
    q.behaviour = p.behaviour ∧ p.journal.reported <+: q.journal.reported := by
  cases moved_of_move ha with
  | answer => unfold answered; split <;> exact ⟨rfl, List.prefix_rfl⟩
  | read => unfold took; split <;> exact ⟨rfl, List.prefix_rfl⟩
  | report => exact ⟨rfl, List.prefix_append _ _⟩
  | _ => exact ⟨rfl, List.prefix_rfl⟩

theorem grows_run {moves : List Move} (h : p.run moves = some q) :
    q.behaviour = p.behaviour ∧ p.journal.reported <+: q.journal.reported := by
  induction moves generalizing p with
  | nil =>
    obtain rfl : p = q := by simpa [run] using h
    exact ⟨rfl, List.prefix_rfl⟩
  | cons a rest ih =>
    obtain ⟨r, ha, hrest⟩ : ∃ r, p.move a = some r ∧ r.run rest = some q := by
      simpa [run, Option.bind_eq_some_iff] using h
    obtain ⟨hb, hr⟩ := grows_move ha
    obtain ⟨hb', hr'⟩ := ih hrest
    exact ⟨hb'.trans hb, hr.trans hr'⟩

theorem run_snoc {r : Journey} {moves : List Move} (h : p.run moves = some q) {a : Move}
    (ha : q.move a = some r) : p.run (moves ++ [a]) = some r := by
  induction moves generalizing p with
  | nil =>
    obtain rfl : p = q := by simpa [run] using h
    simp [run, ha]
  | cons b rest ih =>
    obtain ⟨p', hb, hrest⟩ : ∃ p', p.move b = some p' ∧ p'.run rest = some q := by
      simpa [run, Option.bind_eq_some_iff] using h
    simpa [run, hb] using ih hrest

/-! ## The smallest steps put together -/

/-- To read the end of a connection is to take it, to report it, and to take the writer back. -/
theorem run_read {i : Inbound} {e : LinkEvent} (hstage : p.connection.stage = .reading)
    (hpending : p.journal.pending = []) (hi : p.behaviour.items[p.journal.taken]? = some i)
    (hl : i.last? = some e) :
    ∃ q, p.run [.read, .report, .retract, .halt] = some q ∧
      q.connection = (p.connection.read i).1 ∧
        q.journal.reported = p.journal.reported ++ (p.connection.read i).2 := by
  rw [Connection.read_of_last hl, Connection.withdraw_eq]
  have hread : p.move .read = some (p.advance.become p.connection.mark [e]) := by
    simp [move, hstage, hpending, hi, took_of_some hl]
  have hreport : (p.advance.become p.connection.mark [e]).move .report =
      some ((p.advance.become p.connection.mark [e]).said e []) := by
    simp [move, become, advance, hpending]
  rw [run, hread, Option.bind_some, run, hreport, Option.bind_some]
  exact ⟨_, rfl, rfl, rfl⟩

/-- To write is to take up a letter; a reader that waited for the outcome goes on and stops the
writer. -/
theorem run_write {broken : Option Failure} {x : Connection} {d : Delivery}
    (hoffered : p.connection.stage = .parting → p.connection.offered = false)
    (hw : p.connection.write broken = some (x, d)) :
    ∃ q, (p.run [.write broken] = some q ∨ p.run [.write broken, .conclude, .halt] = some q) ∧
      q.connection = x := by
  simp only [Connection.write, Option.bind_eq_bind, Option.bind_eq_some_iff] at hw
  obtain ⟨w, hwriter, turn, hturn, hx⟩ := hw
  have hwrite : p.move (.write broken) = some (p.wrote w turn) := by
    simp [move, hwriter, hturn]
  split at hx
  · next hparts =>
    obtain ⟨hstage, hidle⟩ : p.connection.stage = .parting ∧
        (turn.1.mail = [] ∨ turn.1.alive = false) := by simpa using hparts
    obtain ⟨rfl, -⟩ :
        (({ p.connection with writer := some turn.1 } : Connection).conclude.post .stop) = x ∧
          turn.2 = d := Prod.mk.inj (Option.some.inj hx)
    have hqueue : (p.wrote w turn).connection.queue = [] := by
      rcases hidle with hmail | halive
      · simp [wrote, Connection.queue, hmail]
      · simp [wrote, Connection.queue, halive]
    have hconclude : (p.wrote w turn).move .conclude =
        some ((p.wrote w turn).become (p.wrote w turn).connection.conclude []) := by
      rw [move, if_pos ⟨hstage, by rw [hqueue]; rfl⟩]
    let r := (p.wrote w turn).become (p.wrote w turn).connection.conclude []
    refine ⟨r.become (r.connection.post .stop) [], .inr ?_, rfl⟩
    rw [run, hwrite, Option.bind_some, run, hconclude, Option.bind_some, run, move,
      if_pos ⟨rfl, hoffered hstage⟩]
    rfl
  · obtain ⟨rfl, -⟩ : ({ p.connection with writer := some turn.1 } : Connection) = x ∧ turn.2 = d := by
      simpa using hx
    exact ⟨p.wrote w turn, .inl (by simp [run, hwrite]), rfl⟩

end Journey

end Switchboard
