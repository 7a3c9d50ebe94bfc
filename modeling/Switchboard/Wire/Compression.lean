import Switchboard.Text.Blank

/-!
# Compression modes

How the gateway compresses what it sends: not at all, each payload on its own, or all payloads of a
connection as one stream.
-/
namespace Switchboard

/-- How inbound payloads are compressed. -/
inductive Compression where
  | none
  | payload
  | stream
deriving DecidableEq, Repr, Inhabited

namespace Compression

/-- The name of a mode. -/
def name : Compression → String
  | none => "none"
  | payload => "payload"
  | stream => "stream"

/-- The mode that a setting names: blanks around it and the case of letters do not matter, nothing
means no compression, and the stream mode has a second name. -/
def parse? (s : String) : Option Compression :=
  let word := Text.lower (Text.trim s)
  if word == "none" || word == "" then some none
  else if word == "payload" then some payload
  else if word == "stream" || word == "zlib-stream" then some stream
  else Option.none

/-- The mode that is written exactly so. -/
def ofName? (s : String) : Option Compression :=
  if s == "none" then some none
  else if s == "payload" then some payload
  else if s == "stream" then some stream
  else Option.none

end Compression

end Switchboard
