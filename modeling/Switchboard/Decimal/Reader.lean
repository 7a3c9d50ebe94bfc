import Switchboard.Decimal.Binary64
import Switchboard.Text.Blank
import Switchboard.Text.Unsigned

/-!
# Reading floating point text

An optional sign, then a decimal numeral with an optional point and exponent, or one of the words
for infinity and for no number, in any case of letters. The value is the float nearest to the
numeral; a numeral out of range is infinite.
-/
namespace Switchboard.Decimal

/-- Why a text is no float. -/
inductive FloatError where
  | empty
  | invalid
deriving DecidableEq, Repr

/-- The wording of a float error. -/
def FloatError.message : FloatError → String
  | .empty => "cannot parse float from empty string"
  | .invalid => "invalid float literal"

/-- The digits in front and what follows them. -/
def spanDigits (cs : List Char) : List Char × List Char :=
  (cs.takeWhile Char.isDigit, cs.dropWhile Char.isDigit)

/-- The number that a list of digits denotes. -/
def digitsValue (cs : List Char) : Nat := cs.foldl (fun n c => n * 10 + (c.toNat - '0'.toNat)) 0

/-- A sign in front, and what follows it. -/
def spanSign : List Char → Bool × List Char
  | '-' :: rest => (true, rest)
  | '+' :: rest => (false, rest)
  | cs => (false, cs)

/-- The exponent after a mantissa: none at the end of the text, otherwise a letter, a sign and
digits. -/
def readExponent : List Char → Option Int
  | [] => some 0
  | c :: rest =>
    if c = 'e' ∨ c = 'E' then
      let (negative, digits) := spanSign rest
      if digits.isEmpty || !digits.all Char.isDigit then none
      else
        let n : Int := digitsValue digits
        some (if negative then -n else n)
    else none

/-- A numeral without its sign: whole digits, a fraction, an exponent; one digit at least. -/
def readNumeral (negative : Bool) (cs : List Char) : Option Float :=
  let (whole, rest) := spanDigits cs
  let (fraction, rest) :=
    match rest with
    | '.' :: more => spanDigits more
    | _ => ([], rest)
  if whole.isEmpty && fraction.isEmpty then none
  else (readExponent rest).map fun e =>
    ofDecimal negative (digitsValue (whole ++ fraction)) (e - fraction.length)

/-- Reads a float. -/
def readFloat (s : String) : Except FloatError Float :=
  if s.isEmpty then .error .empty
  else
    let (negative, body) := spanSign s.toList
    let word := Text.lower (String.ofList body)
    if word == "inf" || word == "infinity" then .ok (infinity negative)
    else if word == "nan" then .ok nan
    else
      match readNumeral negative body with
      | some x => .ok x
      | none => .error .invalid

end Switchboard.Decimal
