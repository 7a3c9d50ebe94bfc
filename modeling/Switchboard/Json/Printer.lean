import Switchboard.Decimal.Shortest
import Switchboard.Json.Value

/-!
# Compact JSON text

Values are written without blanks, objects in the order of their members. Strings escape the quote,
the backslash and the controls below U+0020 and nothing else. A float has a point and a digit after
it from `1e-5` up to below `1e16`, and an exponent without a plus sign elsewhere.

## Main definitions

* `Json.quoteChars`: a string between quotes.
* `Json.numberChars`: a number.
* `Json.render`: a value as compact text.
-/
namespace Switchboard.Json

/-- A control character by its code: four hexadecimal digits. -/
def hexEscape (c : Char) : List Char :=
  let digits := Nat.toDigits 16 c.toNat
  ['\\', 'u'] ++ List.replicate (4 - digits.length) '0' ++ digits

/-- One character as it stands inside a string. -/
def escapeChar (c : Char) : List Char :=
  if c = '"' then ['\\', '"']
  else if c = '\\' then ['\\', '\\']
  else if c.toNat < 0x20 then
    if c.toNat = 0x08 then ['\\', 'b']
    else if c.toNat = 0x0c then ['\\', 'f']
    else if c = '\n' then ['\\', 'n']
    else if c = '\r' then ['\\', 'r']
    else if c = '\t' then ['\\', 't']
    else hexEscape c
  else [c]

/-- A string between quotes. -/
def quoteChars (cs : List Char) : List Char := '"' :: cs.flatMap escapeChar ++ ['"']

/-- The least power of ten that is written without an exponent. -/
def leastPlainPlace : Int := -5

/-- The greatest power of ten that is written without an exponent. -/
def greatestPlainPlace : Int := 15

/-- A positive numeral: positional with at least one decimal, or scientific. -/
def numeralChars (n : Decimal.Numeral) : List Char :=
  let digits := Decimal.digitChars n.digits
  let place := n.exponent + digits.length - 1
  if leastPlainPlace ≤ place ∧ place ≤ greatestPlainPlace then
    match Decimal.splitAtPoint digits n.exponent with
    | (whole, []) => whole ++ ['.', '0']
    | (whole, fraction) => whole ++ '.' :: fraction
  else
    let mantissa :=
      match digits with
      | [d] => [d]
      | d :: more => d :: '.' :: more
      | [] => []
    mantissa ++ 'e' :: (toString place).toList

/-- A float; what is no finite number has no notation of its own and is written as null. -/
def floatChars (x : Float) : List Char :=
  match Decimal.parts x with
  | .finite negative m e =>
    let body := if m = 0 then ['0', '.', '0'] else numeralChars (Decimal.shortest true m e)
    if negative then '-' :: body else body
  | _ => ['n', 'u', 'l', 'l']

/-- A whole number. -/
def integerChars : Int → List Char
  | .ofNat n => Decimal.digitChars n
  | .negSucc n => '-' :: Decimal.digitChars (n + 1)

/-- A number. -/
def numberChars : Number → List Char
  | .integer i => integerChars i
  | .float x => floatChars x

mutual

/-- A value as compact text. -/
def chars : Json → List Char
  | null => ['n', 'u', 'l', 'l']
  | bool true => ['t', 'r', 'u', 'e']
  | bool false => ['f', 'a', 'l', 's', 'e']
  | number n => numberChars n
  | text s => quoteChars s.toList
  | array items => '[' :: itemsChars items
  | object members => '\x7b' :: membersChars members

/-- The rest of an array, its bracket included. -/
def itemsChars : List Json → List Char
  | [] => [']']
  | [item] => chars item ++ [']']
  | item :: rest => chars item ++ ',' :: itemsChars rest

/-- The rest of an object, its brace included. -/
def membersChars : List (String × Json) → List Char
  | [] => ['\x7d']
  | [member] => memberChars member ++ ['\x7d']
  | member :: rest => memberChars member ++ ',' :: membersChars rest

/-- A name and its value. -/
def memberChars : String × Json → List Char
  | (key, value) => quoteChars key.toList ++ ':' :: chars value

end

/-- A value as compact text. -/
def render (value : Json) : String := String.ofList (chars value)

end Switchboard.Json
