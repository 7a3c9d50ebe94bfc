import Switchboard.Proofs.Session.Acts
import Switchboard.Wire.Connection

/-!
# The events of a server, and how they reach a session

The server numbers its events upwards and begins with one that names the session. Over a connection
it sends them one by one from some place on, among other news. Whoever has published the first `n` of
them and hears the news of a connection misses nothing as long as each event in flight is at most the
next one at its turn, and what the server sends after those in flight is so as well.

## Main definitions

* `EventStream`: the events of a server.
* `EventStream.upTo`: how many events have a number up to a given one.
* `EventStream.Flows`: news that leave no gap after the first `n` events.
-/
namespace Switchboard

open Session

/-- An event as the server numbers it. -/
structure Numbered where
  kind : String
  sequence : Nat
  data : Json

namespace Numbered

/-- The event as it is published for a shard. -/
def toEvent (shard : Shard) (d : Numbered) : Event := ⟨shard.id, d.kind, d.sequence, d.data⟩

/-- What carries the event. -/
def message (d : Numbered) : Message := .dispatch d.kind d.sequence d.data

end Numbered

/-- The events of a server: numbers increase, and the first event names the session. -/
structure EventStream where
  items : List Numbered
  increasing : items.Pairwise (·.sequence < ·.sequence)
  welcoming : ∀ d, items[0]? = some d → (welcome? d.kind d.data).isSome = true

namespace EventStream

variable {t : EventStream} {n : Nat}

/-- The number of the last of the first `n` events. -/
def last? (t : EventStream) (n : Nat) : Option Nat := (t.items.take n).getLast?.map (·.sequence)

/-- How many events have a number up to `q`. -/
def upTo (t : EventStream) (q : Nat) : Nat := (t.items.takeWhile (·.sequence ≤ q)).length

theorem sequence_lt {i j : Nat} {d e : Numbered} (hij : i < j) (hd : t.items[i]? = some d)
    (he : t.items[j]? = some e) : d.sequence < e.sequence := by
  obtain ⟨hi, rfl⟩ := List.getElem?_eq_some_iff.mp hd
  obtain ⟨hj, rfl⟩ := List.getElem?_eq_some_iff.mp he
  exact List.pairwise_iff_getElem.mp t.increasing i j hi hj hij

theorem last?_zero : t.last? 0 = none := rfl

theorem last?_succ {d : Numbered} (h : t.items[n]? = some d) :
    t.last? (n + 1) = some d.sequence := by
  have htake : t.items.take (n + 1) = t.items.take n ++ [d] := by
    rw [List.take_add_one, h]
    rfl
  simp [last?, htake]

theorem last?_eq_some {q : Nat} (h : t.last? n = some q) (hn : n ≤ t.items.length) :
    ∃ d, 0 < n ∧ t.items[n - 1]? = some d ∧ d.sequence = q := by
  cases n with
  | zero => simp [last?_zero] at h
  | succ n =>
    have hd : t.items[n]? = some t.items[n] := List.getElem?_eq_getElem (by omega)
    rw [last?_succ hd] at h
    exact ⟨_, by omega, hd, Option.some.inj h⟩

/-- No more events have a number up to that of the last of the first `n` than these. -/
theorem upTo_le {q : Nat} (hn : n ≤ t.items.length) (h : t.last? n = some q) : t.upTo q ≤ n := by
  obtain ⟨d, hpos, hd, rfl⟩ := last?_eq_some h hn
  by_cases hlt : n < t.items.length
  · -- The event after those `n` has a greater number, and the count ends there at the latest.
    have he : t.items[n]? = some t.items[n] := List.getElem?_eq_getElem hlt
    have hgt : d.sequence < t.items[n].sequence := sequence_lt (by omega) hd he
    refine Nat.le_of_not_lt fun hlong => ?_
    have hmem : t.items[n] ∈ t.items.takeWhile (·.sequence ≤ d.sequence) := by
      rw [← (List.takeWhile_prefix (·.sequence ≤ d.sequence)).getElem hlong]
      exact List.getElem_mem hlong
    have hall := List.all_takeWhile (p := (·.sequence ≤ d.sequence)) (l := t.items)
    have hsmall : t.items[n].sequence ≤ d.sequence := by
      simpa using List.all_eq_true.mp hall _ hmem
    omega
  · have hle : (t.items.takeWhile (·.sequence ≤ d.sequence)).length ≤ t.items.length :=
      (List.takeWhile_prefix _).length_le
    unfold upTo
    omega

/-- News in which no event leaves a gap after the first `n`, and neither does what is sent from the
cursor on after them. Nothing in them ends the session at the server. -/
def Flows (t : EventStream) : Nat → List LinkEvent → Option Nat → Prop
  | n, [], cursor => ∀ p, cursor = some p → p ≤ n
  | n, .received text :: rest, cursor =>
    match Message.parse text with
    | .ok (.dispatch kind q data) =>
      ∃ p, p ≤ n ∧ t.items[p]? = some ⟨kind, q, data⟩ ∧ Flows t (max n (p + 1)) rest cursor
    | .ok (.invalidSession false) => False
    | _ => Flows t n rest cursor
  | n, .closed code _ :: rest, cursor =>
    CloseAction.ofCode code ≠ .reidentify ∧ Flows t n rest cursor
  | n, .opened :: rest, cursor => Flows t n rest cursor
  | n, .failed _ :: rest, cursor => Flows t n rest cursor

/-- What the server sends next may be chosen anew, as long as it is at most the event after those
that have been published. -/
theorem Flows.seek {news : List LinkEvent} {cursor cursor' : Option Nat}
    (h : t.Flows n news cursor) (hc : ∀ p, cursor' = some p → p ≤ n) :
    t.Flows n news cursor' := by
  induction news generalizing n with
  | nil => exact hc
  | cons e rest ih =>
    cases e with
    | opened => exact ih h hc
    | failed reason => exact ih h hc
    | closed code reason => exact ⟨h.1, ih h.2 hc⟩
    | received text =>
      simp only [Flows] at h ⊢
      split at h
      · obtain ⟨p, hp, hd, hrest⟩ := h
        refine ⟨p, hp, hd, ih hrest fun p' hp' => ?_⟩
        have := hc p' hp'
        omega
      · exact h
      · exact ih h hc

/-- Further news, if they leave no gap whenever what was sent before has arrived. -/
theorem Flows.append {news more : List LinkEvent} {cursor cursor' : Option Nat}
    (h : t.Flows n news cursor)
    (hmore : ∀ m, n ≤ m → (∀ p, cursor = some p → p ≤ m) → t.Flows m more cursor') :
    t.Flows n (news ++ more) cursor' := by
  induction news generalizing n with
  | nil => exact hmore n (Nat.le_refl n) h
  | cons e rest ih =>
    cases e with
    | opened => exact ih h hmore
    | failed reason => exact ih h hmore
    | closed code reason => exact ⟨h.1, ih h.2 hmore⟩
    | received text =>
      simp only [List.cons_append, Flows] at h ⊢
      split at h
      · obtain ⟨p, hp, hd, hrest⟩ := h
        exact ⟨p, hp, hd, ih hrest fun m hm hc => hmore m (by omega) hc⟩
      · exact h
      · exact ih h hmore

/-- The first of the news only, and nothing after them. -/
theorem Flows.take {news : List LinkEvent} {cursor : Option Nat} (h : t.Flows n news cursor)
    (j : Nat) : t.Flows n (news.take j) none := by
  induction news generalizing n j with
  | nil => simp [Flows]
  | cons e rest ih =>
    cases j with
    | zero => simp [Flows]
    | succ j =>
      cases e with
      | opened => exact ih h j
      | failed reason => exact ih h j
      | closed code reason => exact ⟨h.1, ih h.2 j⟩
      | received text =>
        simp only [List.take_succ_cons, Flows] at h ⊢
        split at h
        · obtain ⟨p, hp, hd, hrest⟩ := h
          exact ⟨p, hp, hd, ih hrest j⟩
        · exact h
        · exact ih h j

/-- The next event. -/
theorem Flows.dispatch {news : List LinkEvent} {p : Nat} {d : Numbered} {text : String}
    (h : t.Flows n news (some p)) (hd : t.items[p]? = some d)
    (ht : Message.parse text = .ok d.message) :
    t.Flows n (news ++ [.received text]) (some (p + 1)) := by
  refine h.append fun m _ hc => ?_
  have hp : p ≤ m := hc p rfl
  simp only [Flows, ht, Numbered.message]
  refine ⟨p, hp, hd, fun p' hp' => ?_⟩
  obtain rfl : p + 1 = p' := Option.some.inj hp'
  omega

end EventStream

end Switchboard
