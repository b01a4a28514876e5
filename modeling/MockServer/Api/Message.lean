/-
  MockServer.Api.Message — requests to the HTTP interface, and its
  responses.

  A target is kept as it was sent: a path and perhaps a query, both
  still encoded.  A fragment is not part of it.
-/
import MockServer.Api.Error
import MockServer.Header.Field
import MockServer.Json.Printer
import MockServer.Service.Basic

namespace MockServer.Api

/-! ## Targets -/

/-- What a request asks for. -/
structure Target where
  path : String
  query : Option String
  deriving DecidableEq, Repr, Inhabited

def isPathChar (c : Char) : Bool :=
  ('!' ≤ c && c != '#' && c != '<' && c != '>' && c != '\x60' && c != '\x7f' && c != '?')

def isQueryChar (c : Char) : Bool :=
  ('!' ≤ c && c != '"' && c != '#' && c != '<' && c != '>' && c != '\x7f')

/-- Reads a target that starts with a slash. -/
def Target.parse? (text : String) : Option Target :=
  let whole := text.toList.takeWhile (· != '#')
  let path := whole.takeWhile (· != '?')
  let query := (whole.dropWhile (· != '?')).drop 1
  if path.head? = some '/' ∧ path.all isPathChar ∧ query.all isQueryChar then
    some {
      path := String.ofList path
      query := if whole.contains '?' then some (String.ofList query) else none }
  else none

/-! ## Requests -/

/-- The mark that follows a request through the server. -/
structure RequestId where
  text : String
  deriving DecidableEq, Repr, Inhabited

/-- A request. -/
structure Request where
  method : String
  target : Target
  headers : Header.Fields
  body : List UInt8
  /-- The mark it was given, if it was given one. -/
  requestId : Option RequestId := none
  deriving DecidableEq, Repr, Inhabited

/-- The first value of a header, if it can be shown. -/
def Request.header? (r : Request) (name : String) : Option String :=
  (r.headers.first? name).bind Header.visibleText?

/-! ## Responses -/

/-- A response; the names of its headers are in lower case. -/
structure Response where
  status : Nat
  headers : Header.Fields
  body : String
  deriving DecidableEq, Repr, Inhabited

namespace Response

def empty (status : Nat) : Response := ⟨status, [], ""⟩

def plain (status : Nat) (body : String) : Response :=
  ⟨status, [.ofText "content-type" "text/plain; charset=utf-8"], body⟩

def json (status : Nat) (v : Json) : Response :=
  ⟨status, [.ofText "content-type" "application/json"], v.compact⟩

def setHeader (r : Response) (name value : String) : Response :=
  { r with headers := r.headers.replace name (Text.Utf8.ofString value) }

def hasHeader (r : Response) (name : String) : Bool := (r.headers.first? name).isSome

def isSuccess (r : Response) : Bool := 200 ≤ r.status && r.status < 300

end Response

/-- The response that reports an error, marked with a fresh identifier. -/
def fail (e : ApiError) (s : Service) : Response × Service :=
  let (stamp, s) := s.draw
  (.json e.httpStatus (e.body stamp.id).toJson, s)

end MockServer.Api
