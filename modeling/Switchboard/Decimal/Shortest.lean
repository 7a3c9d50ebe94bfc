import Switchboard.Decimal.Binary64

/-!
# The fewest digits that read back

The decimal text of a float is the shortest that is nearer to it than to any other float. For one
digit after another the two neighbours of the exact value on that decimal grid are tested against
the interval of numbers that round to the float; the first grid with a hit wins, and of two hits the
nearer.

## Main definitions

* `Decimal.shortest`: the digits and the power of ten.
* `Decimal.plain`: the positional layout, without an exponent.
-/
namespace Switchboard.Decimal

/-- `digits * 10 ^ exponent`. -/
structure Numeral where
  digits : Nat
  exponent : Int
deriving DecidableEq, Repr

/-- The numbers that round to one float: `low ≤ value ≤ high` in units of `2 ^ unit`, the ends
included when the mantissa is even. -/
structure Interval where
  low : Nat
  value : Nat
  high : Nat
  unit : Int
  closed : Bool

/-- The interval of a positive float. Below a power of two the next float is half as far. -/
def Interval.ofParts (mantissa : Nat) (exponent : Int) : Interval :=
  let narrow := mantissa = hiddenBit && leastExponent < exponent
  { low := 4 * mantissa - (if narrow then 1 else 2)
    value := 4 * mantissa
    high := 4 * mantissa + 2
    unit := exponent - 2
    closed := mantissa % 2 = 0 }

/-- The factors that turn units of `2 ^ unit` into units of `10 ^ k`. -/
def Interval.factors (i : Interval) (k : Int) : Nat × Nat :=
  (Nat.pow 2 i.unit.toNat * Nat.pow 10 (-k).toNat, Nat.pow 2 (-i.unit).toNat * Nat.pow 10 k.toNat)

/-- The point of the grid `10 ^ k` that is in the interval and nearest to its value, if any is. A
tie goes to the even digit when `tieEven` holds and up otherwise. -/
def Interval.onGrid? (i : Interval) (tieEven : Bool) (k : Int) : Option Nat :=
  let (num, den) := i.factors k
  let below := i.value * num / den
  let lowHit :=
    if i.closed then i.low * num ≤ below * den else i.low * num < below * den
  let highHit :=
    if i.closed then (below + 1) * den ≤ i.high * num else (below + 1) * den < i.high * num
  let gapBelow := i.value * num - below * den
  let gapAbove := (below + 1) * den - i.value * num
  if lowHit then
    if highHit then
      some (if gapBelow < gapAbove then below
        else if gapAbove < gapBelow then below + 1
        else if tieEven && below % 2 = 0 then below else below + 1)
    else some below
  else if highHit then some (below + 1) else none

/-- The position of the leading digit: the greatest `p` with `10 ^ p ≤ mantissa * 2 ^ exponent`. -/
def leadingPlace (mantissa : Nat) (exponent : Int) : Int :=
  let guess := ((mantissa.log2 : Int) + exponent) * 30103 / 100000 - 1
  let reaches (p : Int) : Bool :=
    Nat.pow 10 p.toNat * Nat.pow 2 (-exponent).toNat ≤
      mantissa * Nat.pow 2 exponent.toNat * Nat.pow 10 (-p).toNat
  [3, 2, 1].foldr (fun step best => if reaches (guess + step) then guess + step else best) guess

/-- The digits without their trailing zeros. -/
def Numeral.trimmed (n : Numeral) : Nat → Numeral
  | 0 => n
  | fuel + 1 =>
    if n.digits % 10 = 0 ∧ n.digits ≠ 0 then
      Numeral.trimmed ⟨n.digits / 10, n.exponent + 1⟩ fuel
    else n

/-- The shortest numeral that reads back as the positive float `mantissa * 2 ^ exponent`. -/
def shortest (tieEven : Bool) (mantissa : Nat) (exponent : Int) : Numeral :=
  let i := Interval.ofParts mantissa exponent
  let place := leadingPlace mantissa exponent
  let found := (List.range 17).findSome? fun (n : Nat) =>
    (i.onGrid? tieEven (place - n)).map fun d => Numeral.trimmed ⟨d, place - n⟩ 20
  found.getD ⟨0, 0⟩

/-- The decimal digits of a natural number. -/
def digitChars (n : Nat) : List Char := Nat.toDigits 10 n

theorem isDigit_of_mem_digitChars {n : Nat} {c : Char} (h : c ∈ digitChars n) :
    c.isDigit = true := Nat.isDigit_of_mem_toDigits (by omega) (by omega) h

/-- The digits of a whole number and of a fraction, from the digits and the place of the point. -/
def splitAtPoint (digits : List Char) (exponent : Int) : List Char × List Char :=
  if 0 ≤ exponent then (digits ++ List.replicate exponent.toNat '0', [])
  else
    let places := (-exponent).toNat
    let padded := List.replicate (places + 1 - digits.length) '0' ++ digits
    (padded.take (padded.length - places), padded.drop (padded.length - places))

/-- A numeral in positional layout, without a point when it is whole. -/
def Numeral.plainChars (n : Numeral) : List Char :=
  match splitAtPoint (digitChars n.digits) n.exponent with
  | (whole, []) => whole
  | (whole, fraction) => whole ++ '.' :: fraction

/-- A float in positional layout: the fewest digits, never an exponent, no point when it is whole.
-/
def plain (x : Float) : String :=
  match parts x with
  | .nan => "NaN"
  | .infinite negative => if negative then "-inf" else "inf"
  | .finite negative m e =>
    let body := if m = 0 then ['0'] else (shortest false m e).plainChars
    String.ofList (if negative then '-' :: body else body)

/-- A non-negative float with exactly `places` digits after the point, a tie going to the even one.
-/
def fixed (places : Nat) (x : Float) : String :=
  match parts x with
  | .finite _ m e =>
    let n := halfEven (m * Nat.pow 2 e.toNat * Nat.pow 10 places) (Nat.pow 2 (-e).toNat)
    let (whole, fraction) := splitAtPoint (digitChars n) (-(places : Int))
    String.ofList (whole ++ (if places = 0 then [] else '.' :: fraction))
  | _ => plain x

end Switchboard.Decimal
