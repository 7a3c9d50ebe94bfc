import Switchboard.Decimal.Binary64
import Switchboard.Decimal.Shortest

/-!
# Spans of time

A span is a whole number of nanoseconds, an instant the span since the clock began. Spans are
written in the largest unit that keeps a whole part, and a number of seconds is turned into the
nearest span.
-/
namespace Switchboard

/-- A length of time in nanoseconds. -/
abbrev Span := Nat

/-- A point in time: nanoseconds since the clock began. -/
abbrev Instant := Nat

namespace Span

/-- The nanoseconds of a microsecond. -/
abbrev microsecond : Span := 1000
/-- The nanoseconds of a millisecond. -/
abbrev millisecond : Span := 1000000
/-- The nanoseconds of a second. -/
abbrev second : Span := 1000000000

/-- A span of whole milliseconds. -/
def ofMillis (n : Nat) : Span := n * millisecond

/-- The whole milliseconds in a span. -/
def toMillis (s : Span) : Nat := s / millisecond

/-- A span of whole seconds. -/
def ofSecs (n : Nat) : Span := n * second

/-- One more than the most whole seconds that a span may have. -/
def secondsBound : Nat := 1 <<< 64

/-- The digits of a fraction of `places` places, without trailing zeros. -/
def fractionDigits (places n : Nat) : List Char :=
  let digits := Nat.toDigits 10 n
  let padded := List.replicate (places - digits.length) '0' ++ digits
  (padded.reverse.dropWhile (· = '0')).reverse

/-- A span counted in one unit of `10 ^ places` nanoseconds. -/
def renderIn (places : Nat) (unitName : String) (s : Span) : String :=
  let whole := toString (s / Nat.pow 10 places)
  match fractionDigits places (s % Nat.pow 10 places) with
  | [] => whole ++ unitName
  | fraction => whole ++ "." ++ String.ofList fraction ++ unitName

/-- The text of a span: seconds, milliseconds, microseconds or nanoseconds, whichever is the largest
unit not above it, with as many decimals as it takes. -/
def render (s : Span) : String :=
  if second ≤ s then renderIn 9 "s" s
  else if millisecond ≤ s then renderIn 6 "ms" s
  else if microsecond ≤ s then renderIn 3 "µs" s
  else toString s ++ "ns"

/-- The span nearest to a number of seconds; none for what is negative, too long or no number. -/
def ofSeconds? (x : Float) : Option Span :=
  match Decimal.parts x with
  | .finite negative m e =>
    if negative && m ≠ 0 then none
    else
      let n := Decimal.halfEven (m * Nat.pow 2 e.toNat * second) (Nat.pow 2 (-e).toNat)
      if n / second < secondsBound then some n else none
  | _ => none

/-- A span as a number of seconds: the whole seconds plus the fraction, each rounded. -/
def toSeconds (s : Span) : Float :=
  Decimal.ofNat (s / second) + Decimal.ofNat (s % second) / Decimal.ofNat second

end Span

end Switchboard
