/-
  MockServer.Store.Basic — the records of the server.

  Five lists in order of creation.  Names of features, pairs of feature
  and scenario name, pairs of feature and account, and names of load
  tests are unique; so is the lookup key among active mocks.  Every
  operation that would break this is refused and leaves the store as it
  was.

  Main definitions:
    * `addFeature?`, `addScenario?`, `addActivation?`, `addMock?`,
      `addLoadTest?` — new records;
    * `removeOverrides`, `removeActivation` — fewer activations;
    * `activationFor` — the activation that counts for an account;
    * `findMock` — the mock that answers a lookup.
-/
import MockServer.Entity.LoadTest
import MockServer.Entity.Mock
import MockServer.Store.Error
import MockServer.Text.Blank

namespace MockServer

/-- All records. -/
structure Store where
  features : List Feature
  scenarios : List Scenario
  activations : List Activation
  mocks : List Mock
  loadTests : List LoadTest
  isHealthy : Bool
  deriving DecidableEq, Repr, Inhabited

namespace Store

def empty : Store := ⟨[], [], [], [], [], true⟩

/-! ## Features and scenarios -/

def findFeature (s : Store) (name : String) : Option Feature :=
  s.features.find? fun f => f.name == name

/-- Adds a feature, whose name must not be blank. -/
def addFeature? (s : Store) (f : Feature) : Except StoreError Store :=
  if Text.isBlankText f.name then .error (.invalid "feature name cannot be empty")
  else if (s.findFeature f.name).isSome then .error (.duplicate (.feature f.name))
  else .ok { s with features := s.features ++ [f] }

/-- The scenario of a name within a feature. -/
def findScenario (s : Store) (featureName name : String) : Option Scenario :=
  s.scenarios.find? fun x => x.featureName == featureName && x.name == name

def getScenario (s : Store) (id : Uuid) : Option Scenario :=
  s.scenarios.find? fun x => x.id == id

def scenariosOf (s : Store) (featureName : String) : List Scenario :=
  s.scenarios.filter fun x => x.featureName == featureName

/-- Adds a scenario; its feature need not be known. -/
def addScenario? (s : Store) (x : Scenario) : Except StoreError Store :=
  if (s.findScenario x.featureName x.name).isSome then
    .error (.duplicate (.scenario x.featureName x.name))
  else .ok { s with scenarios := s.scenarios ++ [x] }

/-! ## Activations -/

/-- The activation for exactly this account, or the global one. -/
def findActivation (s : Store) (featureName : String) (account : Option String) :
    Option Activation :=
  s.activations.find? fun a => a.featureName == featureName && a.account == account

/-- The activation that counts for an account: its own, else the global one. -/
def activationFor (s : Store) (featureName : String) (account : Option String) :
    Option Activation :=
  match account with
  | none => s.findActivation featureName none
  | some _ => (s.findActivation featureName account).or (s.findActivation featureName none)

def activationsOf (s : Store) (featureName : String) : List Activation :=
  s.activations.filter fun a => a.featureName == featureName

/-- Removes the activations with a property, and tells how many they were. -/
def removeWhere (s : Store) (p : Activation → Bool) : Store × Nat :=
  ({ s with activations := s.activations.filter fun a => !p a }, s.activations.countP p)

/-- Removes every activation of a feature that is bound to an account. -/
def removeOverrides (s : Store) (featureName : String) : Store × Nat :=
  s.removeWhere fun a => a.featureName == featureName && a.account.isSome

/-- Removes the activation for exactly this account, or the global one. -/
def removeActivation (s : Store) (featureName : String) (account : Option String) : Store × Nat :=
  s.removeWhere fun a => a.featureName == featureName && a.account == account

def addActivation? (s : Store) (a : Activation) : Except StoreError Store :=
  if (s.findActivation a.featureName a.account).isSome then
    .error (.duplicate (.activation a.featureName a.account))
  else .ok { s with activations := s.activations ++ [a] }

/-! ## Mocks -/

def findMock (s : Store) (k : MockKey) : Option Mock :=
  s.mocks.find? fun m => m.isActive && m.answers k

def mocksOf (s : Store) (featureName scenarioName : String) : List Mock :=
  s.mocks.filter fun m => m.featureName == featureName && m.scenarioName == scenarioName

/-- Adds a mock with its path in canonical form, and gives back what was stored; an inactive mock
may repeat the key of another. -/
def addMock? (s : Store) (m : Mock) : Except StoreError (Store × Mock) :=
  -- whatever was done to the record since it was made
  let m := { m with path := Url.Lookup.canonical m.path }
  if m.isActive && (s.findMock m.key).isSome then
    .error (.duplicate (.mock m.method m.path m.featureName m.scenarioName))
  else .ok ({ s with mocks := s.mocks ++ [m] }, m)

/-! ## Load tests -/

def findLoadTest (s : Store) (name : String) : Option LoadTest :=
  s.loadTests.find? fun x => x.name == name

def getLoadTest (s : Store) (id : Uuid) : Option LoadTest :=
  s.loadTests.find? fun x => x.id == id

def addLoadTest? (s : Store) (x : LoadTest) : Except StoreError Store :=
  if (s.findLoadTest x.name).isSome then .error (.duplicate (.loadTest x.name))
  else .ok { s with loadTests := s.loadTests ++ [x] }

/-! ## Health -/

def checkHealth (s : Store) : Except StoreError Unit :=
  if s.isHealthy then .ok () else .error (.unavailable "in-memory store marked unhealthy")

end Store

end MockServer
