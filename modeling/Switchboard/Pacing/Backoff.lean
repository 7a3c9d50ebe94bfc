import Switchboard.Span

/-!
# Growing delays

Delays that grow by a factor up to a limit, of which a random part may be shaved off. Randomness
comes from outside: a draw is a point between zero and one.

## Main definitions

* `jittered`: a delay with a random part shaved off.
* `Backoff`: the delay that comes next; `Backoff.next` takes it and `Backoff.reset` begins again.
-/
namespace Switchboard

/-- The smaller of two floats. -/
def lesser (a b : Float) : Float := if b < a then b else a

/-- The longest delay that is ever drawn: 64 bits of nanoseconds. -/
def longestDraw : Span := (1 <<< 64) - 1

/-- The least share of a delay that remains when `fraction` of it may be shaved off. -/
def leastShare (fraction : Float) : Float :=
  let least := 1.0 - (if 1.0 < fraction || Decimal.isNaN fraction then 1.0 else fraction)
  if least < 0.0 then 0.0 else least

/-- A delay of which up to `fraction` is shaved off; the draw places it between the least share and
the whole. -/
def jittered (base : Span) (fraction draw : Float) : Span :=
  if base = 0 || fraction ≤ 0.0 then base
  else
    let least := leastShare fraction
    let share := lesser 1.0 (least + draw * (1.0 - least))
    min ((Decimal.floor? (Decimal.ofNat base * share)).getD 0) longestDraw

/-- Delays that grow from a base to a limit. -/
structure Backoff where
  base : Span
  most : Span
  factor : Float
  jitter : Float
  /-- The next delay, before anything is shaved off. -/
  current : Span
deriving Repr

namespace Backoff

/-- Begins at `base`. A factor that does not grow is replaced by two, and the limit is never below
the base. -/
def new (base most : Span) (factor : Float) : Backoff :=
  { base := base
    most := max most base
    factor := if Decimal.isFinite factor && 1.0 < factor then factor else 2.0
    jitter := 0.0
    current := base }

/-- Up to this fraction of each delay may be shaved off. -/
def withJitter (b : Backoff) (jitter : Float) : Backoff :=
  { b with
    jitter :=
      if !Decimal.isFinite jitter then 0.0
      else if jitter < 0.0 then 0.0
      else if 1.0 < jitter then 1.0
      else jitter }

/-- From one second to a minute, doubling, with up to half shaved off. -/
def standard : Backoff := (new (Span.ofSecs 1) (Span.ofSecs 60) 2.0).withJitter 0.5

/-- The delay after `current`, before anything is shaved off. -/
def grown (b : Backoff) : Span :=
  let seconds := lesser (Span.toSeconds b.current * b.factor) (Span.toSeconds b.most)
  (Span.ofSeconds? seconds).getD b.most

/-- Takes the next delay. -/
def next (b : Backoff) (draw : Float) : Backoff × Span :=
  ({ b with current := b.grown }, jittered b.current b.jitter draw)

/-- A delay that may come next: between the least share of the current one and the whole. -/
def allows (b : Backoff) (delay : Span) : Bool :=
  jittered b.current b.jitter 0.0 ≤ delay && delay ≤ b.current

/-- Begins again. -/
def reset (b : Backoff) : Backoff := { b with current := b.base }

@[simp] theorem current_reset (b : Backoff) : b.reset.current = b.base := rfl

@[simp] theorem base_next (b : Backoff) (draw : Float) : (b.next draw).1.base = b.base := rfl

end Backoff

end Switchboard
