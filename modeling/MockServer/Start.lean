/-
  MockServer.Start — what it takes for a server to be up.

  A server is made of its settings: its store is filled from the file
  of fixtures, if there is one, and it has a client for load tests.  As
  it goes up it may clear its cache.
-/
import MockServer.Cache.Key
import MockServer.Config.Basic
import MockServer.Fixture.File
import MockServer.Fixture.Seed
import MockServer.Http.Client
import MockServer.Service.Basic

namespace MockServer

/-- Why a server cannot be made. -/
inductive StartError where
  | unreadable (path : String) (e : StoreError)
  | refused (path : String) (e : StoreError)
  | client
  deriving DecidableEq, Repr

def StartError.message : StartError → String
  | .unreadable path _ => "Failed to load fixtures from " ++ path
  | .refused path _ => "Failed to seed fixtures from " ++ path
  | .client => "Failed to create load test HTTP client"

namespace Service

/-- A server whose store is filled from a file of fixtures. -/
def fill (s : Service) (files : Files) (path : String) : Except StartError Service :=
  match Fixture.ofFile files path path with
  | .error e => .error (.unreadable path e)
  | .ok fixture =>
    match fixture.seed s.store s.supply with
    | (_, some e) => .error (.refused path e)
    | (p, none) => .ok { s with store := p.store, supply := p.supply }

def start (files : Files) (x : Config) (supply : Supply) : Except StartError Service := do
  let empty := Service.new x.cache.enabled supply
  let filled ←
    match x.storage.fixturesPath with
    | none => pure empty
    | some path => empty.fill files path
  if x.http.isUsable then return filled else throw .client

/-- What a server does when it goes up. -/
def goUp (s : Service) (x : Config.Caching) : Service :=
  if x.invalidateOnStartup then (s.clearCache Cache.allPattern).2 else s

end Service

end MockServer
