/-
  MockServer.Config.Basic — the settings of a server.

  Every setting has a default, so a document may leave out any of them.
  Lengths of time are kept in the unit in which they are written: whole
  seconds, and whole milliseconds for the pause between attempts.

  Main definitions:
    * `Config` and its sections;
    * `Config.ofDocument?`, `Config.toJson` — settings read and written.
-/
import MockServer.Document.Basic
import MockServer.Json.Build
import MockServer.Log.Level

namespace MockServer

namespace Config

/-! ## Sections -/

/-- Which pages of a browser may use the server. -/
structure Cors where
  /-- Origins; a star stands for all. -/
  allowedOrigins : List String := ["*"]
  /-- How long a browser may keep the permission, in seconds. -/
  maxAge : UInt64 := 3600
  deriving DecidableEq, Repr, Inhabited

/-- Where the server listens and what it does around a request. -/
structure Server where
  bindAddress : String := "0.0.0.0"
  port : UInt16 := 8080
  /-- The path under which the management routes are. -/
  apiPrefix : String := "/api/v1/mocktool"
  enableCors : Bool := true
  enableRequestId : Bool := true
  enableTracing : Bool := true
  /-- The time for open requests when the server stops, in seconds. -/
  shutdownTimeout : UInt64 := 30
  cors : Cors := {}
  deriving DecidableEq, Repr, Inhabited

/-- The cache of responses. -/
structure Caching where
  enabled : Bool := true
  maxCapacity : UInt64 := 10000
  /-- How long an entry is kept, in seconds; without end if absent. -/
  ttl : Option UInt64 := none
  invalidateOnStartup : Bool := true
  deriving DecidableEq, Repr, Inhabited

/-- What the store starts with. -/
structure Storage where
  fixturesPath : Option String := none
  deriving DecidableEq, Repr, Inhabited

/-- The client that sends the requests of load tests. -/
structure Client where
  timeout : UInt64 := 30
  maxRedirects : UInt32 := 10
  userAgent : String := "mocktool/0.4.11"
  verifySsl : Bool := true
  deriving DecidableEq, Repr, Inhabited

/-- The log. -/
structure Logging where
  level : Log.Level := .info
  format : Log.Format := .text
  includeLocation : Bool := false
  directives : List String := []
  deriving DecidableEq, Repr, Inhabited

/-- How load tests run. -/
structure Running where
  retryInterval : UInt64 := 1000
  maxConcurrency : UInt64 := 256
  deriving DecidableEq, Repr, Inhabited

end Config

/-- The settings of a server. -/
structure Config where
  server : Config.Server := {}
  cache : Config.Caching := {}
  storage : Config.Storage := {}
  http : Config.Client := {}
  logging : Config.Logging := {}
  loadtest : Config.Running := {}
  deriving DecidableEq, Repr, Inhabited

namespace Config

/-! ## Presets -/

def Caching.development : Caching := { maxCapacity := 1000, ttl := some 60 }

def Caching.disabled : Caching := { enabled := false }

def Server.socketAddress (x : Server) : String :=
  x.bindAddress ++ ":" ++ Nat.repr x.port.toNat

/-! ## Reading -/

def Cors.ofDocument? (d : Document) : Option Cors := do
  let f ← d.fields? ["allowed_origins", "max_age"]
  let absent : Cors := {}
  return {
    allowedOrigins := ←
      f.optional "allowed_origins" absent.allowedOrigins (Document.listOf? Document.text?)
    maxAge := ← f.optional "max_age" absent.maxAge Document.uint64? }

def Server.ofDocument? (d : Document) : Option Server := do
  let f ← d.fields?
    ["bind_address", "port", "api_prefix", "enable_cors", "enable_request_id", "enable_tracing",
     "shutdown_timeout", "cors"]
  let absent : Server := {}
  return {
    bindAddress := ← f.optional "bind_address" absent.bindAddress Document.text?
    port := ← f.optional "port" absent.port Document.uint16?
    apiPrefix := ← f.optional "api_prefix" absent.apiPrefix Document.text?
    enableCors := ← f.optional "enable_cors" absent.enableCors Document.bool?
    enableRequestId := ← f.optional "enable_request_id" absent.enableRequestId Document.bool?
    enableTracing := ← f.optional "enable_tracing" absent.enableTracing Document.bool?
    shutdownTimeout := ← f.optional "shutdown_timeout" absent.shutdownTimeout Document.uint64?
    cors := ← f.optional "cors" absent.cors Cors.ofDocument? }

def Caching.ofDocument? (d : Document) : Option Caching := do
  let f ← d.fields? ["enabled", "max_capacity", "ttl", "invalidate_on_startup"]
  let absent : Caching := {}
  return {
    enabled := ← f.optional "enabled" absent.enabled Document.bool?
    maxCapacity := ← f.optional "max_capacity" absent.maxCapacity Document.uint64?
    ttl := ← f.nullable "ttl" Document.uint64?
    invalidateOnStartup := ←
      f.optional "invalidate_on_startup" absent.invalidateOnStartup Document.bool? }

def Storage.ofDocument? (d : Document) : Option Storage := do
  let f ← d.fields? ["fixtures_path"]
  return { fixturesPath := ← f.nullable "fixtures_path" Document.text? }

def Client.ofDocument? (d : Document) : Option Client := do
  let f ← d.fields? ["timeout", "max_redirects", "user_agent", "verify_ssl"]
  let absent : Client := {}
  return {
    timeout := ← f.optional "timeout" absent.timeout Document.uint64?
    maxRedirects := ← f.optional "max_redirects" absent.maxRedirects Document.uint32?
    userAgent := ← f.optional "user_agent" absent.userAgent Document.text?
    verifySsl := ← f.optional "verify_ssl" absent.verifySsl Document.bool? }

def Logging.ofDocument? (d : Document) : Option Logging := do
  let f ← d.fields? ["level", "format", "include_location", "directives"]
  let absent : Logging := {}
  return {
    level := ← f.optional "level" absent.level (Document.choice? Log.Level.named)
    format := ← f.optional "format" absent.format (Document.choice? Log.Format.named)
    includeLocation := ← f.optional "include_location" absent.includeLocation Document.bool?
    directives := ← f.optional "directives" absent.directives (Document.listOf? Document.text?) }

def Running.ofDocument? (d : Document) : Option Running := do
  let f ← d.fields? ["retry_interval", "max_concurrency"]
  let absent : Running := {}
  return {
    retryInterval := ← f.optional "retry_interval" absent.retryInterval Document.uint64?
    maxConcurrency := ← f.optional "max_concurrency" absent.maxConcurrency Document.uint64? }

def ofDocument? (d : Document) : Option Config := do
  let f ← d.fields? ["server", "cache", "storage", "http", "logging", "loadtest"]
  return {
    server := ← f.optional "server" {} Server.ofDocument?
    cache := ← f.optional "cache" {} Caching.ofDocument?
    storage := ← f.optional "storage" {} Storage.ofDocument?
    http := ← f.optional "http" {} Client.ofDocument?
    logging := ← f.optional "logging" {} Logging.ofDocument?
    loadtest := ← f.optional "loadtest" {} Running.ofDocument? }

/-! ## Writing -/

def textsJson (ss : List String) : Json := .arr (ss.map .str)

def Cors.toJson (x : Cors) : Json :=
  .record [
    .always "allowed_origins" (textsJson x.allowedOrigins),
    .always "max_age" (.nat x.maxAge.toNat)]

def Server.toJson (x : Server) : Json :=
  .record [
    .always "bind_address" (.str x.bindAddress),
    .always "port" (.nat x.port.toNat),
    .always "api_prefix" (.str x.apiPrefix),
    .always "enable_cors" (.bool x.enableCors),
    .always "enable_request_id" (.bool x.enableRequestId),
    .always "enable_tracing" (.bool x.enableTracing),
    .always "shutdown_timeout" (.nat x.shutdownTimeout.toNat),
    .always "cors" x.cors.toJson]

/-- Writes the section on the cache; a time without end is left out. -/
def Caching.toJson (x : Caching) : Json :=
  .record [
    .always "enabled" (.bool x.enabled),
    .always "max_capacity" (.nat x.maxCapacity.toNat),
    .whenSome "ttl" x.ttl fun n => .nat n.toNat,
    .always "invalidate_on_startup" (.bool x.invalidateOnStartup)]

/-- Writes the section on the store; a missing path is left out. -/
def Storage.toJson (x : Storage) : Json :=
  .record [.whenSome "fixtures_path" x.fixturesPath .str]

def Client.toJson (x : Client) : Json :=
  .record [
    .always "timeout" (.nat x.timeout.toNat),
    .always "max_redirects" (.nat x.maxRedirects.toNat),
    .always "user_agent" (.str x.userAgent),
    .always "verify_ssl" (.bool x.verifySsl)]

/-- Writes the section on the log; an empty list of directives is left out. -/
def Logging.toJson (x : Logging) : Json :=
  .record [
    .always "level" (.str x.level.name),
    .always "format" (.str x.format.name),
    .always "include_location" (.bool x.includeLocation),
    .omitWhen x.directives.isEmpty "directives" (textsJson x.directives)]

def Running.toJson (x : Running) : Json :=
  .record [
    .always "retry_interval" (.nat x.retryInterval.toNat),
    .always "max_concurrency" (.nat x.maxConcurrency.toNat)]

/-- Writes settings, section by section. -/
def toJson (x : Config) : Json :=
  .record [
    .always "server" x.server.toJson,
    .always "cache" x.cache.toJson,
    .always "storage" x.storage.toJson,
    .always "http" x.http.toJson,
    .always "logging" x.logging.toJson,
    .always "loadtest" x.loadtest.toJson]

end Config

end MockServer
