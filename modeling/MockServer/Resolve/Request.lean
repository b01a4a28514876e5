/-
  MockServer.Resolve.Request — forwarded requests and their responses.
-/
import MockServer.Text.Case

namespace MockServer.Resolve

/-- Which entrance a forwarded request came through. -/
inductive Mode where
  /-- The request names its account, whose own scenario counts before the global one. -/
  | authenticated
  /-- The request has no account; the global scenario counts. -/
  | publicly
  deriving DecidableEq, Repr

/-- A forwarded request without the beginning of its path that selects the entrance. -/
structure Request where
  mode : Mode
  path : String
  query : Option String
  method : String
  body : List UInt8
  account : Option String
  feature : Option String
  deriving DecidableEq, Repr

/-- The response of a mock. -/
structure Response where
  /-- Headers in the order in which they are set; a later one replaces an earlier one. -/
  headers : List (String × String)
  body : String
  /-- Whether the body came from the cache. -/
  isCached : Bool
  deriving DecidableEq, Repr

namespace Response

/-- A JSON response with its content type only. -/
def json (body : String) : Response := ⟨[("Content-Type", "application/json")], body, false⟩

/-- The value of the last header of a name, up to ASCII case. -/
def header? (r : Response) (name : String) : Option String :=
  (r.headers.reverse.find? fun h => Text.sameFold h.1 name).map Prod.snd

end Response

end MockServer.Resolve
