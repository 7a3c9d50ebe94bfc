import Switchboard.Wire.Compression

/-!
# Gateway addresses

The address of a connection: a base without slashes at its end, the protocol version and the
encoding as its query, and the compression where one stream spans the connection.
-/
namespace Switchboard

/-- The version of the gateway protocol. -/
def gatewayVersion : Nat := 10

/-- The text without slashes at its end. -/
def withoutTrailingSlashes (s : String) : String :=
  String.ofList (s.toList.reverse.dropWhile (· = '/')).reverse

/-- The address for a base; a base with a query of its own is continued. -/
def gatewayAddress (base : String) (mode : Compression) : String :=
  let base := withoutTrailingSlashes base
  let query := "v=" ++ toString gatewayVersion ++ "&encoding=json"
  (if base.toList.contains '?' then base ++ "&" ++ query else base ++ "/?" ++ query) ++
    (if mode = .stream then "&compress=zlib-stream" else "")

end Switchboard
