/-!
# Blank and control characters

The Unicode property White_Space, which decides what trimming removes, and the general category of
control characters. Both are complete: no character outside ASCII is left to chance.
-/
namespace Switchboard.Text

/-- The Unicode property White_Space. -/
def isBlank (c : Char) : Bool :=
  let n := c.toNat
  (0x09 ≤ n && n ≤ 0x0d) || n = 0x20 || n = 0x85 || n = 0xa0 || n = 0x1680 ||
    (0x2000 ≤ n && n ≤ 0x200a) || n = 0x2028 || n = 0x2029 || n = 0x202f || n = 0x205f || n = 0x3000

/-- A control character: C0, delete or C1. -/
def isControl (c : Char) : Bool :=
  c.toNat < 0x20 || (0x7f ≤ c.toNat && c.toNat ≤ 0x9f)

/-- The text without the blank characters at either end. -/
def trim (s : String) : String :=
  String.ofList ((s.toList.dropWhile isBlank).reverse.dropWhile isBlank).reverse

/-- The text with ASCII letters in lower case. -/
def lower (s : String) : String := s.map Char.toLower

/-- Two texts are the same up to the case of ASCII letters. -/
def sameLetters (s t : String) : Bool := lower s == lower t

/-- Removes the first text from the front of the second, if it stands there. -/
def stripFront? (front text : String) : Option String :=
  if front.toList.isPrefixOf text.toList then
    some (String.ofList (text.toList.drop front.length))
  else none

/-- The first text stands at the front of the second. -/
def startsWith (front text : String) : Bool := front.toList.isPrefixOf text.toList

end Switchboard.Text
