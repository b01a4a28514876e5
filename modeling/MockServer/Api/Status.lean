/-
  MockServer.Api.Status — how the server is.
-/
import MockServer.Api.Message

namespace MockServer.Api.Status

def serviceName : String := "mocktool"

def health : Response :=
  .json 200 (.obj [("service", .str serviceName), ("status", .str "healthy")])

/-- The store answers, or does not. -/
def readiness (s : Service) : Response :=
  match s.store.checkHealth with
  | .ok () =>
    .json 200 (.obj [
      ("database", .str "connected"), ("service", .str serviceName), ("status", .str "ready")])
  | .error _ =>
    .json 503 (.obj [
      ("error", .str "database connection failed"), ("service", .str serviceName),
      ("status", .str "not ready")])

def metrics (s : Service) : Response :=
  .json 200 (Json.obj [("cache", s.cache.stats.toJson), ("resolver", s.metrics.toJson)]).settle

end MockServer.Api.Status
