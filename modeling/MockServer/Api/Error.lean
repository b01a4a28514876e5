/-
  MockServer.Api.Error — errors that the HTTP interface reports.

  An error of the resolver keeps its own status and code; the others
  are those of the management interface.
-/
import MockServer.Resolve.Error

namespace MockServer

/-- Why a request to the HTTP interface fails. -/
inductive ApiError where
  | resolve (e : ResolveError)
  | badRequest (message : String)
  | notFound (message : String)
  | internal (message : String)
  | unavailable (message : String)
  deriving DecidableEq, Repr

namespace ApiError

def message : ApiError → String
  | resolve e => e.message
  | badRequest m | notFound m | internal m | unavailable m => m

def httpStatus : ApiError → Nat
  | resolve e => e.httpStatus
  | badRequest _ => 400
  | notFound _ => 404
  | internal _ => 500
  | unavailable _ => 503

/-- The gRPC status that corresponds to an error. -/
def grpcCode : ApiError → Int
  | resolve e => e.grpcCode
  | badRequest _ => 3
  | notFound _ => 5
  | internal _ => 13
  | unavailable _ => 14

def code : ApiError → String
  | resolve e => e.code
  | badRequest _ => "BAD_REQUEST"
  | notFound _ => "NOT_FOUND"
  | internal _ => "INTERNAL_ERROR"
  | unavailable _ => "SERVICE_UNAVAILABLE"

def body (fresh : Uuid) : ApiError → ErrorBody
  | resolve e => e.body fresh
  | e => .traced e.httpStatus e.grpcCode e.code e.message fresh.toText

end ApiError

end MockServer
