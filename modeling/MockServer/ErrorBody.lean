/-
  MockServer.ErrorBody — the JSON body of every reported error.

  A body carries a trace identifier twice: among its details, under
  `x-trace-id`, and on its own.  The second is always read off the
  first, so the two agree.
-/
import MockServer.Document.Basic
import MockServer.Json.Build
import MockServer.Uuid

namespace MockServer

/-- The body of a reported error. -/
structure ErrorBody where
  isSuccess : Bool
  httpStatus : Nat
  grpcCode : Int
  code : String
  message : String
  details : Dict String
  traceId : String
  deriving DecidableEq, Repr, Inhabited

namespace ErrorBody

def traceKey : String := "x-trace-id"

/-- The body with the given parts; the trace identifier is empty when the details have none. -/
def ofParts (httpStatus : Nat) (grpcCode : Int) (code message : String) (details : Dict String) :
    ErrorBody :=
  { isSuccess := false
    httpStatus
    grpcCode
    code
    message
    details
    traceId := (details.get? traceKey).getD "" }

/-- The body with only a trace identifier among its details. -/
def traced (httpStatus : Nat) (grpcCode : Int) (code message traceId : String) : ErrorBody :=
  ofParts httpStatus grpcCode code message (Dict.empty.insert traceKey traceId)

def ofDocument? (d : Document) : Option ErrorBody := do
  let f ← d.fields?
    ["success", "http_status", "grpc_code", "error_code", "error_message", "details", "trace_id"]
  return {
    isSuccess := ← f.required "success" Document.bool?
    httpStatus := ← f.required "http_status" (Document.nat? UInt16.size)
    grpcCode := ← f.required "grpc_code" (Document.int? 32)
    code := ← f.required "error_code" Document.text?
    message := ← f.required "error_message" Document.text?
    details := ← f.required "details" (Document.dictOf? Document.text?)
    traceId := ← f.required "trace_id" Document.text? }

def toJson (b : ErrorBody) : Json :=
  .record [
    .always "success" (.bool b.isSuccess),
    .always "http_status" (.nat b.httpStatus),
    .always "grpc_code" (.num (.int b.grpcCode)),
    .always "error_code" (.str b.code),
    .always "error_message" (.str b.message),
    .always "details" (.textTable b.details),
    .always "trace_id" (.str b.traceId)]

end ErrorBody

end MockServer
