/-
  MockServer.Cache.Basic — the cache of response bodies.

  A cache maps key texts to bodies and counts what happens to it.  A
  cache that is switched off counts its reads and holds nothing.
-/
import MockServer.Cache.Key
import MockServer.Cache.Stats

namespace MockServer

/-- A cache of response bodies by key text. -/
structure Cache where
  isEnabled : Bool
  entries : Dict String
  counters : Cache.Counters
  deriving DecidableEq, Repr, Inhabited

/-- Why a cache refuses. -/
inductive CacheError where
  | invalidPattern (pattern : String) (error : GlobError)
  | backend (detail : String)
  deriving DecidableEq, Repr

def CacheError.message : CacheError → String
  | .invalidPattern pattern error =>
    "Invalid cache pattern '" ++ pattern ++ "': " ++ error.message
  | .backend detail => "Cache backend error: " ++ detail

namespace Cache

def new (isEnabled : Bool) : Cache := ⟨isEnabled, .empty, .zero⟩

def get (c : Cache) (key : String) : Option String × Cache :=
  match (if c.isEnabled then c.entries.get? key else none) with
  | some body => (some body, { c with counters := c.counters.hit })
  | none => (none, { c with counters := c.counters.miss })

def set (c : Cache) (key body : String) : Cache :=
  if c.isEnabled then
    { c with entries := c.entries.insert key body, counters := c.counters.set }
  else c

/-- The keys that match a pattern. -/
def matching (pattern : List GlobToken) (entries : Dict String) : List String :=
  entries.names.filter fun key => Glob.isMatch pattern key.toList

/-- Removes keys one after another, and counts those that were there. -/
def removeAll : List String → Dict String → Nat × Dict String
  | [], entries => (0, entries)
  | key :: keys, entries =>
    let (removed, left) := removeAll keys (entries.erase key)
    (if entries.contains key then removed + 1 else removed, left)

/-- Removes every key that matches a pattern, and tells how many they were. -/
def invalidate (c : Cache) (pattern : String) : Except CacheError (Nat × Cache) :=
  if c.isEnabled then
    match Glob.parse? pattern with
    | .error e => .error (.invalidPattern pattern e)
    | .ok tokens =>
      let (removed, left) := removeAll (matching tokens c.entries) c.entries
      .ok (removed, { c with entries := left, counters := c.counters.invalidate removed })
  else .ok (0, c)

def stats (c : Cache) : Stats := c.counters.stats c.entries.size

end Cache

end MockServer
