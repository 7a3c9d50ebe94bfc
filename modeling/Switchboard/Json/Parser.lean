import Switchboard.Decimal.Reader
import Switchboard.Json.Value

/-!
# Reading JSON

Strict JSON: no comments, no trailing commas, no leading zeros, no raw controls in strings and no
lone surrogates. A whole number in the range of 64 bits stays whole; any other is the nearest float,
zero without a sign, and one too large for a float is refused. Besides reading there is scanning,
which passes over a value that nobody wants: it checks the shape only, so a number of any size
passes, and so do four characters of any kind after a unicode escape.

## Main definitions

* `Json.readString`, `Json.readNumber`, `Json.readValue`: read from the front and return the rest.
* `Json.scanValue`: the rest after one value.
* `Json.parse?`: a whole document.
-/
namespace Switchboard.Json

/-- A character that may stand between tokens. -/
def isSpace (c : Char) : Bool := c = ' ' || c = '\n' || c = '\r' || c = '\t'

/-- What follows the blanks. -/
def skipSpace (cs : List Char) : List Char := cs.dropWhile isSpace

/-- Puts a character in front of a string that was read. -/
def withChar (c : Char) : Option (List Char × List Char) → Option (List Char × List Char)
  | some (cs, rest) => some (c :: cs, rest)
  | none => none

/-- The value of a hexadecimal digit. -/
def hexDigit? (c : Char) : Option Nat :=
  if '0' ≤ c ∧ c ≤ '9' then some (c.toNat - '0'.toNat)
  else if 'a' ≤ c ∧ c ≤ 'f' then some (c.toNat - 'a'.toNat + 10)
  else if 'A' ≤ c ∧ c ≤ 'F' then some (c.toNat - 'A'.toNat + 10)
  else none

/-- The code unit that four hexadecimal digits denote. -/
def codeUnit? (a b c d : Char) : Option Nat := do
  let a ← hexDigit? a
  let b ← hexDigit? b
  let c ← hexDigit? c
  let d ← hexDigit? d
  return ((a * 16 + b) * 16 + c) * 16 + d

/-- The character that a one-letter escape stands for. -/
def shortEscape? (c : Char) : Option Char :=
  if c = '"' ∨ c = '\\' ∨ c = '/' then some c
  else if c = 'b' then some '\x08'
  else if c = 'f' then some '\x0c'
  else if c = 'n' then some '\n'
  else if c = 'r' then some '\r'
  else if c = 't' then some '\t'
  else none

/-- The code unit opens a surrogate pair. -/
def isHighSurrogate (n : Nat) : Bool := 0xd800 ≤ n && n ≤ 0xdbff

/-- The code unit closes a surrogate pair. -/
def isLowSurrogate (n : Nat) : Bool := 0xdc00 ≤ n && n ≤ 0xdfff

/-- Reads a string after its opening quote, up to and with the closing one. -/
def readString : List Char → Option (List Char × List Char)
  | [] => none
  | c :: rest =>
    if c = '"' then some ([], rest)
    else if c = '\\' then
      match rest with
      | [] => none
      | e :: tail =>
        if e = 'u' then
          match tail with
          | a :: b :: c :: d :: more =>
            match codeUnit? a b c d with
            | none => none
            | some n =>
              if isHighSurrogate n then
                match more with
                | x :: y :: p :: q :: r :: s :: last =>
                  if x = '\\' ∧ y = 'u' then
                    match codeUnit? p q r s with
                    | none => none
                    | some m =>
                      if isLowSurrogate m then
                        withChar (Char.ofNat (0x10000 + (n - 0xd800) * 0x400 + (m - 0xdc00)))
                          (readString last)
                      else none
                  else none
                | _ => none
              else if isLowSurrogate n then none
              else withChar (Char.ofNat n) (readString more)
          | _ => none
        else
          match shortEscape? e with
          | none => none
          | some c => withChar c (readString tail)
    else if c.toNat < 0x20 then none
    else withChar c (readString rest)

/-- The parts of a number: sign, whole digits, fraction digits, exponent. -/
structure Figure where
  negative : Bool
  whole : List Char
  fraction : Option (List Char)
  exponent : Option Int

/-- The digits of a fraction after its point: one at least. -/
def readFraction : List Char → Option (Option (List Char) × List Char)
  | '.' :: rest =>
    match Decimal.spanDigits rest with
    | ([], _) => none
    | (digits, more) => some (some digits, more)
  | cs => some (none, cs)

/-- An exponent: a letter, a sign, one digit at least. -/
def readPower : List Char → Option (Option Int × List Char)
  | [] => some (none, [])
  | c :: rest =>
    if c = 'e' ∨ c = 'E' then
      let (negative, more) := Decimal.spanSign rest
      match Decimal.spanDigits more with
      | ([], _) => none
      | (digits, last) =>
        let n : Int := Decimal.digitsValue digits
        some (some (if negative then -n else n), last)
    else some (none, c :: rest)

/-- The whole digits: a single zero, or digits that begin with another. -/
def readWhole : List Char → Option (List Char × List Char)
  | '0' :: rest => some (['0'], rest)
  | cs =>
    match Decimal.spanDigits cs with
    | ([], _) => none
    | (digits, rest) => some (digits, rest)

/-- Reads the parts of a number. -/
def readFigure (cs : List Char) : Option (Figure × List Char) := do
  let (negative, cs) := match cs with
    | '-' :: rest => (true, rest)
    | _ => (false, cs)
  let (whole, cs) ← readWhole cs
  let (fraction, cs) ← readFraction cs
  let (exponent, cs) ← readPower cs
  return (⟨negative, whole, fraction, exponent⟩, cs)

/-- The float nearest to a figure; zero has no sign, and there is none beyond the range of floats.
-/
def Figure.float? (f : Figure) : Option Float :=
  let fraction := f.fraction.getD []
  let mantissa := Decimal.digitsValue (f.whole ++ fraction)
  let x := Decimal.ofDecimal (f.negative && mantissa ≠ 0) mantissa
    (f.exponent.getD 0 - fraction.length)
  if Decimal.isFinite x then some x else none

/-- The number that a figure denotes. -/
def Figure.number? (f : Figure) : Option Number :=
  match f.fraction, f.exponent with
  | none, none =>
    let n := Decimal.digitsValue f.whole
    if f.negative then
      if n ≠ 0 ∧ n ≤ 1 <<< 63 then some (.integer (-(n : Int))) else f.float?.map .float
    else if n < 1 <<< 64 then some (.integer n)
    else f.float?.map .float
  | _, _ => f.float?.map .float

/-- Reads a number. -/
def readNumber (cs : List Char) : Option (Number × List Char) := do
  let (figure, rest) ← readFigure cs
  let n ← figure.number?
  return (n, rest)

/-- What follows a word, if it stands in front. -/
def afterWord (word cs : List Char) : Option (List Char) :=
  if word.isPrefixOf cs then some (cs.drop word.length) else none

/-- What follows one character, blanks skipped in front of it. -/
def afterChar (c : Char) (cs : List Char) : Option (List Char) :=
  match skipSpace cs with
  | d :: rest => if d = c then some rest else none
  | [] => none

mutual

/-- Reads a value; `fuel` bounds the number of values and separators passed. -/
def readValue : Nat → List Char → Option (Json × List Char)
  | 0, _ => none
  | fuel + 1, cs =>
    match skipSpace cs with
    | [] => none
    | c :: rest =>
      if c = '"' then (readString rest).map fun (s, more) => (text (String.ofList s), more)
      else if c = '[' then
        match afterChar ']' rest with
        | some more => some (array [], more)
        | none => (readItems fuel rest).map fun (items, more) => (array items, more)
      else if c = '\x7b' then
        match afterChar '\x7d' rest with
        | some more => some (object [], more)
        | none => (readMembers fuel rest).map fun (members, more) => (object members, more)
      else if c = 'n' then (afterWord ['u', 'l', 'l'] rest).map fun more => (null, more)
      else if c = 't' then (afterWord ['r', 'u', 'e'] rest).map fun more => (bool true, more)
      else if c = 'f' then (afterWord ['a', 'l', 's', 'e'] rest).map fun more => (bool false, more)
      else (readNumber (c :: rest)).map fun (n, more) => (number n, more)

/-- Reads the items of an array up to and with its bracket; one at least. -/
def readItems : Nat → List Char → Option (List Json × List Char)
  | 0, _ => none
  | fuel + 1, cs => do
    let (item, rest) ← readValue fuel cs
    match skipSpace rest with
    | ']' :: more => return ([item], more)
    | ',' :: more =>
      let (items, last) ← readItems fuel more
      return (item :: items, last)
    | _ => none

/-- Reads the members of an object up to and with its brace; one at least. -/
def readMembers : Nat → List Char → Option (List (String × Json) × List Char)
  | 0, _ => none
  | fuel + 1, cs => do
    let rest ← afterChar '"' cs
    let (key, rest) ← readString rest
    let rest ← afterChar ':' rest
    let (value, rest) ← readValue fuel rest
    let member := (String.ofList key, value)
    match skipSpace rest with
    | '\x7d' :: more => return ([member], more)
    | ',' :: more =>
      let (members, last) ← readMembers fuel more
      return (member :: members, last)
    | _ => none

end

/-- Passes over characters that span four bytes at least, the first byte of the next excepted. -/
def scanFourBytes : Nat → List Char → List Char
  | _, [] => []
  | bytes, c :: rest => if 4 ≤ bytes then c :: rest else scanFourBytes (bytes + c.utf8Size) rest

/-- Passes over a string after its opening quote; `fuel` bounds the characters passed. -/
def scanString : Nat → List Char → Option (List Char)
  | 0, _ => none
  | _ + 1, [] => none
  | fuel + 1, c :: rest =>
    if c = '"' then some rest
    else if c = '\\' then
      match rest with
      | [] => none
      | e :: more =>
        if e = 'u' then scanString fuel (scanFourBytes 0 more)
        else if (shortEscape? e).isSome then scanString fuel more
        else none
    else if c.toNat < 0x20 then none
    else scanString fuel rest

mutual

/-- The rest after one value of any kind. -/
def scanValue : Nat → List Char → Option (List Char)
  | 0, _ => none
  | fuel + 1, cs =>
    match skipSpace cs with
    | [] => none
    | c :: rest =>
      if c = '"' then scanString (rest.length + 1) rest
      else if c = '[' then
        match afterChar ']' rest with
        | some more => some more
        | none => scanItems fuel rest
      else if c = '\x7b' then
        match afterChar '\x7d' rest with
        | some more => some more
        | none => scanMembers fuel rest
      else if c = 'n' then afterWord ['u', 'l', 'l'] rest
      else if c = 't' then afterWord ['r', 'u', 'e'] rest
      else if c = 'f' then afterWord ['a', 'l', 's', 'e'] rest
      else (readFigure (c :: rest)).map (·.2)

/-- The rest after the items of an array. -/
def scanItems : Nat → List Char → Option (List Char)
  | 0, _ => none
  | fuel + 1, cs => do
    let rest ← scanValue fuel cs
    match skipSpace rest with
    | ']' :: more => return more
    | ',' :: more => scanItems fuel more
    | _ => none

/-- The rest after the members of an object. -/
def scanMembers : Nat → List Char → Option (List Char)
  | 0, _ => none
  | fuel + 1, cs => do
    let rest ← afterChar '"' cs
    let rest ← scanString (rest.length + 1) rest
    let rest ← afterChar ':' rest
    let rest ← scanValue fuel rest
    match skipSpace rest with
    | '\x7d' :: more => return more
    | ',' :: more => scanMembers fuel more
    | _ => none

end

/-- Fuel enough for any value that the characters can hold. -/
def fuelFor (cs : List Char) : Nat := 2 * cs.length + 2

/-- Only blanks are left. -/
def atEnd (cs : List Char) : Bool := (skipSpace cs).isEmpty

/-- Reads a document: one value with blanks around it. -/
def parseChars? (cs : List Char) : Option Json :=
  match readValue (fuelFor cs) cs with
  | some (value, rest) => if atEnd rest then some value else none
  | none => none

/-- Reads a document: one value with blanks around it. -/
def parse? (s : String) : Option Json := parseChars? s.toList

end Switchboard.Json
