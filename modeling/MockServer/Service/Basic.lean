/-
  MockServer.Service.Basic — the running server: records, cache,
  counters, and the calls on them that can fail.

  Records and cache are reached by calls that may be out of order for
  a while; a call that is out of order fails with a given detail and
  changes nothing.  Activations change by single calls, so that several
  activations can be interleaved call by call.

  Main definitions:
    * `Service` — the state of a running server;
    * `Change`, `Service.change` — one call that changes the activations;
    * `Service.findActivation`, `getScenario`, `findMock` — reads;
    * `Service.readCache`, `writeCache`, `clearCache` — the cache.
-/
import MockServer.Cache.Basic
import MockServer.Metrics
import MockServer.Store.Basic
import MockServer.Supply

namespace MockServer

/-! ## State -/

/-- The calls that can be out of order. -/
inductive Call where
  | findActivation
  | getScenario
  | findMock
  | removeOverrides
  | removeActivation
  | addActivation
  | readCache
  | writeCache
  | clearCache
  deriving DecidableEq, Repr

/-- A running server. -/
structure Service where
  store : Store
  cache : Cache
  metrics : Metrics
  supply : Supply
  /-- The calls that are out of order, each with the detail it fails with. -/
  outages : List (Call × String)
  deriving DecidableEq, Repr

namespace Service

def new (cacheEnabled : Bool) (supply : Supply) : Service :=
  ⟨.empty, .new cacheEnabled, .new, supply, []⟩

/-- The detail a call fails with, if it is out of order. -/
def outage? (s : Service) (c : Call) : Option String := s.outages.lookup c

/-- The result of a call to the store, unless it is out of order. -/
def ifInOrder {α : Type} (s : Service) (c : Call) (result : Except StoreError α) :
    Except StoreError α :=
  match s.outage? c with
  | some detail => .error (.unavailable detail)
  | none => result

def draw (s : Service) : Stamp × Service := (s.supply.stamp, { s with supply := s.supply.advance })

/-! ## Reads -/

/-- The activation for exactly this account, or the global one. -/
def findActivation (s : Service) (feature : String) (account : Option String) :
    Except StoreError (Option Activation) :=
  s.ifInOrder .findActivation (.ok (s.store.findActivation feature account))

def activationFor (s : Service) (feature : String) (account : Option String) :
    Except StoreError (Option Activation) :=
  s.ifInOrder .findActivation (.ok (s.store.activationFor feature account))

def getScenario (s : Service) (id : Uuid) : Except StoreError (Option Scenario) :=
  s.ifInOrder .getScenario (.ok (s.store.getScenario id))

def findMock (s : Service) (k : MockKey) : Except StoreError (Option Mock) :=
  s.ifInOrder .findMock (.ok (s.store.findMock k))

/-! ## Changes of the activations -/

/-- One call that changes the activations. -/
inductive Change where
  /-- Remove every activation of a feature that is bound to an account. -/
  | removeOverrides (feature : String)
  /-- Remove the activation for exactly this account, or the global one. -/
  | remove (feature : String) (account : Option String)
  /-- Add an activation. -/
  | add (a : Activation)
  deriving DecidableEq, Repr

def Change.call : Change → Call
  | removeOverrides _ => .removeOverrides
  | remove _ _ => .removeActivation
  | add _ => .addActivation

/-- Changes the activations of a store, and tells how many were removed. -/
def Change.applyTo (store : Store) : Change → Except StoreError (Nat × Store)
  | removeOverrides feature =>
    let (store, n) := store.removeOverrides feature
    .ok (n, store)
  | remove feature account =>
    let (store, n) := store.removeActivation feature account
    .ok (n, store)
  | add a => (store.addActivation? a).map fun store => (0, store)

/-- Changes the activations, and tells how many were removed; a refused change changes nothing. -/
def change (s : Service) (c : Change) : Except StoreError Nat × Service :=
  match s.ifInOrder c.call (c.applyTo s.store) with
  | .ok (n, store) => (.ok n, { s with store })
  | .error e => (.error e, s)

/-! ## Cache -/

/-- Reads a key of the cache; a cache that is out of order counts nothing. -/
def readCache (s : Service) (key : String) : Except CacheError (Option String) × Service :=
  match s.outage? .readCache with
  | some detail => (.error (.backend detail), s)
  | none =>
    let (found, cache) := s.cache.get key
    (.ok found, { s with cache })

def writeCache (s : Service) (key body : String) : Except CacheError Unit × Service :=
  match s.outage? .writeCache with
  | some detail => (.error (.backend detail), s)
  | none => (.ok (), { s with cache := s.cache.set key body })

/-- Removes every key that matches a pattern, and tells how many they were. -/
def clearCache (s : Service) (pattern : String) : Except CacheError Nat × Service :=
  match s.outage? .clearCache with
  | some detail => (.error (.backend detail), s)
  | none =>
    match s.cache.invalidate pattern with
    | .ok (n, cache) => (.ok n, { s with cache })
    | .error e => (.error e, s)

end Service

end MockServer
