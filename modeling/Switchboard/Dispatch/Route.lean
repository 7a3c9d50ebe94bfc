/-!
# Routes

Requests that share a rate limit have the same route: the method, and the path with all that varies
taken out. The identifiers of channels, guilds and webhooks stay, as every one of them has limits of
its own, and so does the token of a webhook.

## Main definitions

* `Route`: a method and the segments of a path template.
* `Route.ofPath`: the route of a request.
-/
namespace Switchboard

/-- What requests under one rate limit have in common. -/
structure Route where
  method : String
  template : List String
deriving DecidableEq, Repr, Inhabited

namespace Route

/-- A segment that is an identifier: digits and nothing else. -/
def isIdentifier (segment : String) : Bool :=
  let cs := segment.toList
  !cs.isEmpty && cs.all fun c => '0' ≤ c && c ≤ '9'

/-- The resources whose identifiers have limits of their own. -/
def isMajor (segment : String) : Bool :=
  segment == "channels" || segment == "guilds" || segment == "webhooks"

/-- What stands in the template for a segment, given the two segments before it. -/
def slot (beforePrevious previous : Option String) (segment : String) : String :=
  if previous.any isMajor && isIdentifier segment then segment
  else if beforePrevious == some "webhooks" && previous.any isIdentifier then segment
  else if beforePrevious == some "interactions" && previous.any isIdentifier then ":token"
  else if previous == some "reactions" then ":emoji"
  else if isIdentifier segment then ":id"
  else segment

/-- The template of the segments that follow the two given ones. -/
def templateAfter (beforePrevious previous : Option String) : List String → List String
  | [] => []
  | segment :: rest =>
    slot beforePrevious previous segment :: templateAfter previous (some segment) rest

/-- Adds a character to the segment at the front. -/
def extendFirst (c : Char) : List (List Char) → List (List Char)
  | [] => [[c]]
  | segment :: rest => (c :: segment) :: rest

/-- The pieces between slashes, the empty ones included. -/
def pieces : List Char → List (List Char)
  | [] => [[]]
  | c :: rest => if c = '/' then [] :: pieces rest else extendFirst c (pieces rest)

/-- The segments of a path: what stands between slashes before the query or the fragment, without
the empty ones. -/
def segments (path : String) : List String :=
  ((pieces (path.toList.takeWhile fun c => c ≠ '?' && c ≠ '#')).filter (!·.isEmpty)).map
    String.ofList

/-- The route of a request. -/
def ofPath (method path : String) : Route := ⟨method, templateAfter none none (segments path)⟩

/-- The path template as text. -/
def path (r : Route) : String :=
  if r.template.isEmpty then "/" else String.join (r.template.map ("/" ++ ·))

/-- The route as text. -/
def render (r : Route) : String := r.method ++ " " ++ r.path

@[simp] theorem method_ofPath (method path : String) : (ofPath method path).method = method := rfl

@[simp] theorem length_templateAfter (beforePrevious previous : Option String)
    (segments : List String) :
    (templateAfter beforePrevious previous segments).length = segments.length := by
  induction segments generalizing beforePrevious previous with
  | nil => rfl
  | cons segment rest ih => simp [templateAfter, ih]

end Route

end Switchboard
