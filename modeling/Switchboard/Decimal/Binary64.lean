/-!
# Binary floating point numbers as exact ratios

A `Float` is decoded into a sign, a whole mantissa and a power of two, and a ratio of natural
numbers is rounded to the nearest `Float`. All arithmetic between is on natural numbers, so nothing
is lost on the way.

## Main definitions

* `Decimal.parts`: the exact value of a float.
* `Decimal.halfEven`: a ratio rounded to a whole number, a tie going to the even neighbour.
* `Decimal.ofRatio`: the float nearest to a ratio.
-/
namespace Switchboard.Decimal

/-- What a float is: no number, an infinity, or `mantissa * 2 ^ exponent` with a sign. -/
inductive Parts where
  | nan
  | infinite (negative : Bool)
  | finite (negative : Bool) (mantissa : Nat) (exponent : Int)
deriving DecidableEq, Repr

/-- The least exponent of a mantissa: that of the subnormal numbers. -/
def leastExponent : Int := -1074

/-- The implicit bit of a normal mantissa. -/
def hiddenBit : Nat := 1 <<< 52

/-- The exact value of a float. -/
def parts (x : Float) : Parts :=
  let bits := x.toBits.toNat
  let negative := decide (1 <<< 63 ≤ bits)
  let field := bits / hiddenBit % 2048
  let fraction := bits % hiddenBit
  if field = 2047 then
    if fraction = 0 then .infinite negative else .nan
  else if field = 0 then .finite negative fraction leastExponent
  else .finite negative (hiddenBit + fraction) (leastExponent + (field - 1 : Nat))

/-- `num / den` rounded to a whole number; a tie goes to the even neighbour. -/
def halfEven (num den : Nat) : Nat :=
  let q := num / den
  let twice := 2 * (num % den)
  if twice < den then q
  else if den < twice then q + 1
  else if q % 2 = 0 then q else q + 1

/-- The numerator and denominator of `num / den / 2 ^ e`. -/
def scaled (num den : Nat) (e : Int) : Nat × Nat :=
  if 0 ≤ e then (num, den * Nat.pow 2 e.toNat) else (num * Nat.pow 2 (-e).toNat, den)

/-- The exponent at which `num / den` has a mantissa of 53 bits, or that of the subnormals. -/
def exponentOf (num den : Nat) : Int :=
  let guess : Int := (num.log2 : Int) - den.log2 - 52
  let (n, d) := scaled num den guess
  max (if n / d < hiddenBit then guess - 1 else guess) leastExponent

/-- The bits of the float nearest to a positive ratio, sign excluded. -/
def magnitudeBits (num den : Nat) : Nat :=
  let e := exponentOf num den
  let (n, d) := scaled num den e
  min ((e - leastExponent).toNat * hiddenBit + halfEven n d) (2047 * hiddenBit)

/-- The float with the given sign and magnitude bits. -/
def signed (negative : Bool) (magnitude : Nat) : Float :=
  Float.ofBits (UInt64.ofNat (if negative then (1 <<< 63) + magnitude else magnitude))

/-- The float nearest to `num / den`. -/
def ofRatio (negative : Bool) (num den : Nat) : Float :=
  signed negative (if num = 0 then 0 else magnitudeBits num den)

/-- The float nearest to a whole number. -/
def ofNat (n : Nat) : Float := ofRatio false n 1

/-- Positive infinity, or negative. -/
def infinity (negative : Bool) : Float := signed negative (2047 * hiddenBit)

/-- The value that is no number. -/
def nan : Float := signed false (2047 * hiddenBit + (1 <<< 51))

/-- The float nearest to `mantissa * 10 ^ exponent`. Exponents far outside the range of floats are
settled without computing the power. -/
def ofDecimal (negative : Bool) (mantissa : Nat) (exponent : Int) : Float :=
  if mantissa = 0 then signed negative 0
  else
    let magnitude : Int := (Nat.toDigits 10 mantissa).length + exponent
    if 400 < magnitude then infinity negative
    else if magnitude < -400 then signed negative 0
    else if 0 ≤ exponent then ofRatio negative (mantissa * Nat.pow 10 exponent.toNat) 1
    else ofRatio negative mantissa (Nat.pow 10 (-exponent).toNat)

/-- The float is neither infinite nor no number. -/
def isFinite (x : Float) : Bool :=
  match parts x with
  | .finite .. => true
  | _ => false

/-- The float is no number. -/
def isNaN (x : Float) : Bool := parts x == .nan

/-- The whole part of a non-negative finite float; zero for a negative one, `none` for what is no
finite number. -/
def floor? (x : Float) : Option Nat :=
  match parts x with
  | .finite negative m e =>
    some (if negative then 0
      else if 0 ≤ e then m * Nat.pow 2 e.toNat else m / Nat.pow 2 (-e).toNat)
  | _ => none

end Switchboard.Decimal
