import Switchboard.Wire.Link

/-!
# Connections and transports, one change at a time

The end of a connection has several parts: its reader marks it as finished, reports the last event
and takes the writer back. Here each part has a name, and so has what the changes to a transport do
to its link and to its connections.

## Main definitions

* `Inbound.last?`: the event with which a connection ends.
* `Connection.mark`, `Connection.withdraw`: the end of a connection, step by step.
-/
namespace Switchboard

/-! ## The end of a connection -/

/-- The event with which a connection ends when its reader takes this, if it does. -/
def Inbound.last? : Inbound → Option LinkEvent
  | .ended => some (.closed none "stream ended")
  | .broken failure => some (.failed failure.message)
  | .frame (.close n) => some (Connection.closedBy n)
  | .frame _ => none

theorem Inbound.last?_ne_opened {i : Inbound} {e : LinkEvent} (h : i.last? = some e) :
    e ≠ .opened := by
  rintro rfl
  cases i with
  | frame f =>
    cases f with
    | close n => cases n <;> simp [last?, Connection.closedBy] at h
    | _ => simp [last?] at h
  | _ => simp [last?] at h

namespace Connection

/-- The connection is finished: its reader goes no further. -/
def mark (x : Connection) : Connection := { x with finished := true, stage := .done }

/-- The writer is taken back, and stops. -/
def withdraw (x : Connection) : Connection := { x.post .stop with offered := false }

theorem refused_eq (x : Connection) (failure : Failure) :
    x.refused failure = (x.mark, [.failed failure.message]) := rfl

theorem read_of_last {x : Connection} {i : Inbound} {e : LinkEvent} (h : i.last? = some e) :
    x.read i = (x.mark.withdraw, [e]) := by
  cases i with
  | ended =>
    obtain rfl : LinkEvent.closed none "stream ended" = e := by simpa [Inbound.last?] using h
    rfl
  | broken failure =>
    obtain rfl : LinkEvent.failed failure.message = e := by simpa [Inbound.last?] using h
    rfl
  | frame f =>
    cases f with
    | close n =>
      obtain rfl : closedBy n = e := by simpa [Inbound.last?] using h
      rfl
    | _ => simp [Inbound.last?] at h

/-- What is not the end leaves the reader where it is and reports no close. -/
theorem read_of_none {x : Connection} {i : Inbound} (h : i.last? = none) :
    (x.read i).1.stage = x.stage ∧ ∀ code reason, .closed code reason ∉ (x.read i).2 := by
  cases i with
  | ended => simp [Inbound.last?] at h
  | broken failure => simp [Inbound.last?] at h
  | frame f =>
    cases f with
    | close n => simp [Inbound.last?] at h
    | ping payload => simp [read, post]
    | pong payload => simp [read]
    | _ =>
      refine ⟨rfl, fun code reason => ?_⟩
      simp only [read]
      split <;> simp

theorem stage_notice {x : Connection} (h : x.stage = .done) : x.notice.stage = .done := by
  simp [notice, h]

/-- A writer that goes on leaves the reader where it stands, or lets one go that waited for the close
frame. -/
theorem stage_of_write {x x' : Connection} {broken : Option Failure} {y : Delivery}
    (hw : x.write broken = some (x', y)) : x'.stage = x.stage ∨ x'.stage = .done := by
  simp only [write, Option.bind_eq_bind, Option.bind_eq_some_iff] at hw
  obtain ⟨w, -, z, -, hx⟩ := hw
  split at hx
  · obtain ⟨rfl, -⟩ := Prod.mk.inj (Option.some.inj hx)
    exact .inr rfl
  · obtain ⟨rfl, -⟩ := Prod.mk.inj (Option.some.inj hx)
    exact .inl rfl

theorem stage_write {x x' : Connection} {broken : Option Failure} {y : Delivery}
    (h : x.stage = .done) (hw : x.write broken = some (x', y)) : x'.stage = .done :=
  (stage_of_write hw).elim (·.trans h) id

end Connection

/-! ## Changes to a transport -/

namespace Transport

theorem link_modify (t : Transport) (k : Nat) (f : Connection → Connection) :
    (t.modify k f).link = t.link := by
  unfold modify
  split <;> rfl

theorem link_close {t : Transport} {k : Nat} (h : t.link.current = some k) (code : Nat)
    (reason : String) : (t.close code reason).link = t.link.drop := by
  simp [close, h]

theorem link_dial {t : Transport} (h : t.link.current = none) (url : String) :
    (t.dial url).1.link = t.link.renew := by
  simp [dial, h]

@[simp] theorem current_close (t : Transport) (code : Nat) (reason : String) :
    (t.close code reason).link.current = none := by
  cases hk : t.link.current with
  | none => simp [close, hk]
  | some k => simp [close, hk]

theorem link_send (t : Transport) (f : Frame) : (t.send f).link = t.link := by
  unfold send
  split
  · exact link_modify ..
  · rfl

@[simp] theorem mode_modify (t : Transport) (k : Nat) (f : Connection → Connection) :
    (t.modify k f).mode = t.mode := by
  unfold modify
  split <;> rfl

@[simp] theorem mode_close (t : Transport) (code : Nat) (reason : String) :
    (t.close code reason).mode = t.mode := by
  unfold close
  split
  · exact mode_modify ..
  · rfl

@[simp] theorem begun_close (t : Transport) (code : Nat) (reason : String) :
    (t.close code reason).link.begun = t.link.begun := by
  unfold close
  split <;> rfl

theorem link_dial_of_dead {t : Transport} (h : t.isLive = false) (url : String) :
    (t.dial url).1.link = t.link.renew := by
  cases hk : t.link.current with
  | none => exact link_dial hk url
  | some k => simp [dial, hk, h, Link.renew]

@[simp] theorem mode_dial (t : Transport) (url : String) : (t.dial url).1.mode = t.mode := by
  unfold dial
  split
  · split
    · rfl
    · exact mode_close ..
  · rfl

theorem connection?_modify (t : Transport) (k j : Nat) (f : Connection → Connection) :
    (t.modify k f).connection? j = if j = k then (t.connection? k).map f else t.connection? j := by
  cases hx : t.connection? k with
  | none =>
    by_cases hj : j = k
    · simp [modify, hx, hj]
    · simp [modify, hx, hj]
  | some x =>
    have hput : (t.modify k f).connections = Table.put k (f x) t.connections := by
      simp [modify, hx]
    rw [connection?, hput, Table.get?_put]
    rfl

theorem connection?_close (t : Transport) (code : Nat) (reason : String) (j : Nat) :
    (t.close code reason).connection? j =
      if t.link.current = some j then (t.connection? j).map (·.close code reason)
      else t.connection? j := by
  cases hk : t.link.current with
  | none => simp [close, hk]
  | some k =>
    have hmodify : (t.close code reason).connection? j =
        (t.modify k (·.close code reason)).connection? j := by
      simp [close, hk, connection?]
    rw [hmodify, connection?_modify]
    by_cases hj : j = k
    · simp [hj]
    · simp [hj, Ne.symm hj]

/-- A connection that is opened is the next by number; the one before it, which has come to its end,
counts as closed. -/
theorem connection?_dial {t : Transport} (h : t.isLive = false) (url : String) (j : Nat) :
    (t.dial url).1.connection? j =
      if j = t.link.begun + 1 then some (.new url t.mode)
      else (t.close 1000 "superseded").connection? j := by
  cases hk : t.link.current with
  | none => simp [dial, hk, connection?, Table.get?_put, close]
  | some k => simp [dial, hk, h, connection?, Table.get?_put]

theorem modify_modify (t : Transport) (k : Nat) (f g : Connection → Connection) :
    (t.modify k f).modify k g = t.modify k (g ∘ f) := by
  cases hx : t.connection? k with
  | none => simp [modify, hx]
  | some x =>
    have hf : t.modify k f = { t with connections := Table.put k (f x) t.connections } := by
      simp [modify, hx]
    have hget : (t.modify k f).connection? k = some (f x) := by
      simp [connection?_modify, hx]
    rw [modify, hget, hf]
    simp [modify, hx]

end Transport

end Switchboard
