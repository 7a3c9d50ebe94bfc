import Switchboard.Text.Utf8

/-!
# Frames

What travels over a gateway connection: text and binary data, pings and pongs, and at most one close
with a code and a reason. Payloads are bytes; only a text frame of valid UTF-8 has a text.
-/
namespace Switchboard

/-- The payload of a close frame. -/
structure CloseNotice where
  code : Nat
  reason : List UInt8
deriving DecidableEq, Repr, Inhabited

/-- The reason of a close, with a replacement character for what is no text. -/
def CloseNotice.reasonText (c : CloseNotice) : String := Utf8.decodeLossy c.reason

/-- A frame. -/
inductive Frame where
  | text (payload : List UInt8)
  | binary (payload : List UInt8)
  | ping (payload : List UInt8)
  | pong (payload : List UInt8)
  | close (notice : Option CloseNotice)
deriving DecidableEq, Repr, Inhabited

namespace Frame

/-- A text frame that holds the string. -/
def ofString (s : String) : Frame := text (Utf8.encode s)

/-- A close frame with a code and a reason. -/
def closing (code : Nat) (reason : String) : Frame := close (some ⟨code, Utf8.encode reason⟩)

/-- The payload of a data or control frame. -/
def payload? : Frame → Option (List UInt8)
  | text p | binary p | ping p | pong p => some p
  | close _ => none

/-- The string in a text frame of valid UTF-8. -/
def string? : Frame → Option String
  | text p => (Utf8.decode p).toOption
  | _ => none

/-- The frame closes the connection. -/
def isClose : Frame → Bool
  | close _ => true
  | _ => false

@[simp] theorem payload?_close (n : Option CloseNotice) : (close n).payload? = none := rfl
@[simp] theorem isClose_closing (code : Nat) (reason : String) :
    (closing code reason).isClose = true := rfl
@[simp] theorem isClose_ofString (s : String) : (ofString s).isClose = false := rfl

end Frame

end Switchboard
