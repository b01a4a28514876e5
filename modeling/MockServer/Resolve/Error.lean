/-
  MockServer.Resolve.Error — why a forwarded request has no mock
  response.
-/
import MockServer.ErrorBody

namespace MockServer

/-- Why a forwarded request has no mock response. -/
inductive ResolveError where
  /-- A routing header is missing or the body is no JSON object. -/
  | badRequest (message : String)
  /-- No active mock answers the request. -/
  | mockNotFound (traceId : String)
  /-- No scenario is active for the account, nor globally. -/
  | noActiveScenario (feature : String)
  /-- Records are broken or the store fails. -/
  | internal (message : String)
  /-- A backend cannot be reached. -/
  | unavailable (message : String)
  deriving DecidableEq, Repr

namespace ResolveError

def message : ResolveError → String
  | badRequest m | internal m | unavailable m => m
  | mockNotFound _ => "Mock API not found"
  | noActiveScenario feature => "no active scenario for feature '" ++ feature ++ "'"

def httpStatus : ResolveError → Nat
  | badRequest _ => 400
  | noActiveScenario _ => 404
  | mockNotFound _ | internal _ => 500
  | unavailable _ => 503

/-- The gRPC status that corresponds to an error. -/
def grpcCode : ResolveError → Int
  | badRequest _ => 3
  | noActiveScenario _ => 5
  | mockNotFound _ | internal _ => 13
  | unavailable _ => 14

def code : ResolveError → String
  | badRequest _ => "BAD_REQUEST"
  | mockNotFound _ => "ERR.001"
  | noActiveScenario _ => "NO_ACTIVE_SCENARIO"
  | internal _ => "INTERNAL_ERROR"
  | unavailable _ => "SERVICE_UNAVAILABLE"

/-- The trace identifier that an error brings along. -/
def traceId? : ResolveError → Option String
  | mockNotFound id => some id
  | _ => none

/-- The body that reports an error; a fresh trace identifier serves one that brings none. -/
def body (fresh : Uuid) (e : ResolveError) : ErrorBody :=
  .traced e.httpStatus e.grpcCode e.code e.message (e.traceId?.getD fresh.toText)

end ResolveError

end MockServer
