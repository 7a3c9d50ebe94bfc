import Switchboard.Decimal.Shortest
import Switchboard.Json.Parser
import Switchboard.Text.Blank
import Switchboard.Text.Utf8
import Switchboard.Table

/-!
# Requests and responses

What goes to the server and what comes back. Headers are bytes by name, names in lower case; a name
may have several values, of which the first is the one that counts.

## Main definitions

* `Request`, `Response`: the two directions.
* `Headers`: `Headers.append` and `Headers.set` build them, `Headers.text?` reads one.
-/
namespace Switchboard

/-- Headers in the order in which their names came, each with its values. -/
abbrev Headers := Table String (List (List UInt8))

namespace Headers

/-- A byte that a header may hold: no control character but the tab. -/
def allows (b : UInt8) : Bool := (32 ≤ b && b ≠ 127) || b = 9

/-- Adds a value to those of a name. -/
def append (h : Headers) (name : String) (value : List UInt8) : Headers :=
  let name := Text.lower name
  Table.put name ((Table.get? name h).getD [] ++ [value]) h

/-- Makes a text the only value of a name; a text that no header may hold changes nothing. -/
def set (h : Headers) (name value : String) : Headers :=
  let bytes := Utf8.encode value
  if bytes.all allows then Table.put (Text.lower name) [bytes] h else h

/-- A character that a readable header holds: printable ASCII or a tab. -/
def isPlain (b : UInt8) : Bool := (32 ≤ b && b < 127) || b = 9

/-- The first value of a name as text, without blanks around it; a value with other characters than
printable ASCII and tabs has none. -/
def text? (h : Headers) (name : String) : Option String := do
  let value ← (← Table.get? name h).head?
  if value.all isPlain then some (Text.trim (Utf8.decodeLossy value)) else none

/-- All names and values, by ascending name. -/
def byName (h : Headers) : List (String × List UInt8) :=
  (h.mergeSort fun a b => decide (a.1 ≤ b.1)).flatMap fun p => p.2.map (p.1, ·)

end Headers

/-- A request; the path is relative to the base address. -/
structure Request where
  method : String
  path : String
  body : Option (List UInt8)
deriving DecidableEq, Repr, Inhabited

/-- A response. -/
structure Response where
  status : Nat
  headers : Headers
  body : List UInt8
deriving DecidableEq, Repr, Inhabited

namespace Response

/-- A response without headers. -/
def new (status : Nat) (body : List UInt8) : Response := ⟨status, [], body⟩

/-- Sets a header. -/
def withHeader (r : Response) (name value : String) : Response :=
  { r with headers := r.headers.set name value }

/-- The body as text, with replacement characters for what is none. -/
def text (r : Response) : String := Utf8.decodeLossy r.body

/-- The body as a JSON value. -/
def json? (r : Response) : Option Json := do
  match Utf8.decode r.body with
  | .ok s => Json.parse? s
  | .error _ => none

/-- The request was carried out. -/
def isSuccess (r : Response) : Bool := 200 ≤ r.status && r.status < 300

/-- The server failed. -/
def isServerError (r : Response) : Bool := 500 ≤ r.status && r.status < 600

/-- The server asks for fewer requests. -/
def isTooMany (r : Response) : Bool := r.status = 429

end Response

end Switchboard
