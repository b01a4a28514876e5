/-
  MockServer.Config.Check — which settings are accepted.

  The sections are checked in a fixed order, and within a section its
  settings; the first fault is reported with the name of its section.
  Settings of a cache that is switched off are not looked at.
-/
import MockServer.Config.Basic
import MockServer.Config.Fault

namespace MockServer.Config

/-- Checks every item of a list in order. -/
def checkAll {α : Type} (check : α → Except Fault Unit) : List α → Except Fault Unit
  | [] => .ok ()
  | x :: rest => do
    check x
    checkAll check rest

def checkCount (setting : String) (value : UInt64) : Except Fault Unit :=
  checkPositive setting (.int value.toNat)

/-- An origin: all of them, none, or an absolute URL. -/
def checkOrigin (origin : String) : Except Fault Unit :=
  if origin = "*" ∨ origin = "" then .ok () else checkUrl "allowed_origins" origin

def Cors.check (x : Cors) : Except Fault Unit := do
  checkAll checkOrigin x.allowedOrigins
  checkCount "max_age" x.maxAge

/-- Checks the section on the server, that on browsers aside. -/
def Server.check (x : Server) : Except Fault Unit := do
  checkText "bind_address" x.bindAddress
  checkPort "port" x.port
  ensure (x.apiPrefix.toList.head? == some '/') (.unrooted x.apiPrefix)

def Caching.check (x : Caching) : Except Fault Unit :=
  if !x.enabled then .ok ()
  else do
    checkCount "max_capacity" x.maxCapacity
    match x.ttl with
    | none => .ok ()
    | some ttl => checkCount "ttl" ttl

/-- Does the path end in the extension of a fixture, in any case? -/
def isFixturePath (path : String) : Bool :=
  let ending := (Text.lower path).toList.reverse
  [".yaml", ".yml", ".json"].any fun e => (Text.after? e.toList.reverse ending).isSome

def Storage.check (x : Storage) : Except Fault Unit :=
  match x.fixturesPath with
  | none => .ok ()
  | some path => ensure (isFixturePath path) (.fixtureKind path)

def Client.check (x : Client) : Except Fault Unit := do
  checkCount "timeout" x.timeout
  checkText "user_agent" x.userAgent
  ensure (decide (x.maxRedirects ≤ 100)) .redirects

/-- A log directive: a text without white space. -/
def checkDirective (directive : String) : Except Fault Unit := do
  ensure (!Text.isBlankText directive) .blankDirective
  ensure (!directive.toList.any Text.isBlank) (.brokenDirective directive)

def Logging.check (x : Logging) : Except Fault Unit := checkAll checkDirective x.directives

def Running.check (x : Running) : Except Fault Unit := checkCount "max_concurrency" x.maxConcurrency

/-- A fault with the name of its section. -/
def within (domain : String) (result : Except Fault Unit) : Except (String × Fault) Unit :=
  result.mapError fun fault => (domain, fault)

/-- Checks settings, section by section. -/
def check (x : Config) : Except (String × Fault) Unit := do
  within "server" x.server.check
  within "server.cors" x.server.cors.check
  within "cache" x.cache.check
  within "storage" x.storage.check
  within "http" x.http.check
  within "logging" x.logging.check
  within "loadtest" x.loadtest.check

end MockServer.Config
