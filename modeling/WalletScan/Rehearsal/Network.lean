import WalletScan.Http.Location
import WalletScan.Http.Response
import WalletScan.Table

/-!
# A rehearsed network

A `Network` has one server, whose answers are written down by path beforehand. Every other server
stays silent, and so does the server itself where a path is to close the connection.
-/

set_option autoImplicit false

namespace WalletScan.Rehearsal

/-- A server with its answers, and the requests that it got. -/
structure Network where
  /-- Where the server is. -/
  server : Http.Location
  /-- The answers by path and query; `none` closes the connection. -/
  routes : Table String (Option Http.Response)
  /-- The requests so far, in order. -/
  requests : List String
  /-- Whether any request was ever answered. -/
  answered : Bool
deriving DecidableEq, Repr

namespace Network

/-- The answer at a path that is not written down. -/
def notFound : Http.Response := ⟨404, none, Utf8.encode "not found"⟩

/-- A server without requests so far. -/
def ofRoutes (server : Http.Location) (routes : Table String (Option Http.Response)) : Network :=
  ⟨server, routes, [], false⟩

/-- Sends a request. -/
def send (method : String) (location : Http.Location) (n : Network) : Http.Reply × Network :=
  if location.sameOrigin n.server then
    let n := { n with requests := n.requests ++ [method ++ " " ++ location.target] }
    match (n.routes.lookup location.target).getD (some notFound) with
    | some response => (.ok response, { n with answered := true })
    | none => (.error ⟨location.render⟩, n)
  else (.error ⟨location.render⟩, n)

/-- Forgets the requests so far. -/
def cleared (n : Network) : Network := { n with requests := [] }

end Network

end WalletScan.Rehearsal
