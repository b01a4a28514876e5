/-
  MockServer.Cache.Key — names of cached responses.

  A key lists feature, scenario, account, path, method and fingerprint
  between colons, after a name space.  A pattern selects the keys with
  a given beginning; the names in it stand for themselves alone.
-/
import MockServer.Glob

namespace MockServer.Cache

def space : String := "mocktool"

/-- What a cached response answers. -/
structure Key where
  feature : String
  scenario : String
  account : Option String
  path : String
  method : String
  hash : String
  deriving DecidableEq, Repr, Inhabited

/-- The parts of a text with a colon after each. -/
def fields (parts : List String) : List Char := parts.flatMap fun p => p.toList ++ [':']

def Key.toText (k : Key) : String :=
  String.ofList (fields [space, k.feature, k.scenario, k.account.getD "", k.path, k.method] ++
    k.hash.toList)

/-- The pattern of all keys that begin with the given parts after the name space. -/
def startingWith (parts : List String) : String :=
  String.ofList (fields (space :: parts.map Glob.escape) ++ ['*'])

def allPattern : String := startingWith []

/-- The pattern of the keys of a feature. -/
def featurePattern (feature : String) : String := startingWith [feature]

/-- The pattern of the keys of a scenario. -/
def scenarioPattern (feature scenario : String) : String := startingWith [feature, scenario]

/-- The pattern of the keys of an account within a scenario. -/
def accountPattern (feature scenario account : String) : String :=
  startingWith [feature, scenario, account]

end MockServer.Cache
