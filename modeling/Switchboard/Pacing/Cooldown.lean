import Switchboard.Span

/-!
# A pause for everyone

A cooldown holds off all callers until an instant. It can be extended and never shortened, and it is
forgotten once somebody looks and finds it over.

## Main definitions

* `Cooldown.trigger`: extends the pause.
* `Cooldown.remaining`: how much of it is left.
-/
namespace Switchboard

/-- The end of the pause, if one was set and not yet forgotten. -/
structure Cooldown where
  until? : Option Instant
deriving DecidableEq, Repr, Inhabited

namespace Cooldown

/-- No pause. -/
def none : Cooldown := ⟨.none⟩

/-- The pause lasts until `ending` at least. -/
def trigger (c : Cooldown) (ending : Instant) : Cooldown :=
  ⟨some (match c.until? with
    | .none => ending
    | some current => max current ending)⟩

/-- What is left of the pause at `now`; one that is over is forgotten. -/
def remaining (c : Cooldown) (now : Instant) : Cooldown × Option Span :=
  match c.until? with
  | .none => (c, .none)
  | some u => if now < u then (c, some (u - now)) else (⟨.none⟩, .none)

/-- The pause is not over at `now`. -/
def isActive (c : Cooldown) (now : Instant) : Bool := (c.remaining now).2.isSome

end Cooldown

end Switchboard
